import ClusterScheduler.Json.Shape
import ClusterScheduler.Config
import ClusterScheduler.Resource.Row
import ClusterScheduler.Binary64.Basic
import ClusterScheduler.Request

/-!
# Snapshot records

A snapshot is the state of the cluster at the start of a scheduling round as the persistence
layer exports it: the time, an optional configuration, the queues, the resource inventory and
the scheduled and waiting jobs. Jobs name resources by their external ids. The records are read
with the shapes below and then taken apart; fields left out take their defaults.
-/

namespace ClusterScheduler

/-- A queue: name, priority, and state (`Active` by default). -/
structure QueueRecord where
  name : String
  priority : Int
  state : String
  deriving DecidableEq, Repr

/-- A request group: counts per level, and the resources of its properties (all default
resources when absent), by external id. -/
structure RequestRecord where
  levels : List LevelCount
  resources : Option (List Int)
  deriving DecidableEq, Repr

structure MoldableRecord where
  id : Int
  walltime : Int
  requests : List RequestRecord
  deriving DecidableEq, Repr

/-- An assignment by external resource ids. -/
structure AssignmentRecord where
  begin : Int
  «end» : Int
  resources : List Int
  moldable : Nat
  deriving DecidableEq, Repr

structure DependencyRecord where
  job : Int
  state : String
  exitCode : Option Int
  deriving DecidableEq, Repr

structure JobRecord where
  id : Int
  name : Option String
  user : Option String
  queue : String
  types : List String
  moldables : List MoldableRecord
  assignment : Option AssignmentRecord
  dependencies : List DependencyRecord
  earliestStart : Option Int
  submissionTime : Int
  karma : Double
  priority : Int
  state : String
  deriving DecidableEq, Repr

structure Snapshot where
  now : Int
  config : Option Config
  queues : List QueueRecord
  resources : List ResourceRow
  scheduled : List JobRecord
  waiting : List JobRecord
  deriving DecidableEq, Repr

namespace Snapshot

open Json

def queueShape : Shape :=
  .record "QueueRecord" [("name", .string, none), ("priority", .i32, none),
    ("state", .string, some (.str "Active"))]

def requestShape : Shape :=
  .record "RequestRecord" [("levels", .seq (.pair .string .u32), none),
    ("resources", .option (.seq .i64), some .null)]

def moldableShape : Shape :=
  .record "MoldableRecord" [("id", .i64, none), ("walltime", .i64, none),
    ("requests", .seq requestShape, none)]

def assignmentShape : Shape :=
  .record "AssignmentRecord" [("begin", .i64, none), ("end", .i64, none),
    ("resources", .seq .i64, none), ("moldable_index", .usize, some (.int 0))]

def dependencyShape : Shape :=
  .record "DependencyRecord" [("job_id", .i64, none), ("state", .string, none),
    ("exit_code", .option .i32, some .null)]

def jobShape : Shape :=
  .record "JobRecord" [
    ("id", .i64, none),
    ("name", .option .string, some .null),
    ("user", .option .string, some .null),
    ("queue", .string, some (.str "default")),
    ("types", .seq .string, some (.arr [])),
    ("moldables", .seq moldableShape, none),
    ("assignment", .option assignmentShape, some .null),
    ("dependencies", .seq dependencyShape, some (.arr [])),
    ("earliest_start_time", .option .i64, some .null),
    ("submission_time", .i64, some (.int 0)),
    ("karma", .f64, some (.num (.float Binary64.zero))),
    ("priority", .i64, some (.int 0)),
    ("state", .string, some (.str "Waiting"))]

def shape : Shape :=
  .record "Snapshot" [
    ("now", .i64, none),
    ("config", .option Config.shape, some .null),
    ("queues", .seq queueShape, none),
    ("resources", .seq ResourceRow.shape, none),
    ("scheduled_jobs", .seq jobShape, some (.arr [])),
    ("waiting_jobs", .seq jobShape, some (.arr []))]

def intOf (j : Json) (k : String) : Int := ((j.get? k).bind Json.asInt?).getD 0

def strOf (j : Json) (k : String) : String := ((j.get? k).bind Json.asStr?).getD ""

def optIntOf (j : Json) (k : String) : Option Int := (j.get? k).bind Json.asInt?

def optStrOf (j : Json) (k : String) : Option String := (j.get? k).bind Json.asStr?

def arrOf (j : Json) (k : String) : List Json := ((j.get? k).bind Json.asArr?).getD []

def queueOf (j : Json) : QueueRecord := ⟨strOf j "name", intOf j "priority", strOf j "state"⟩

def requestOf (j : Json) : RequestRecord :=
  { levels := (arrOf j "levels").map fun p =>
      match p with
      | .arr [l, c] => ⟨(l.asStr?).getD "", ((c.asInt?).getD 0).toNat⟩
      | _ => ⟨"", 0⟩
    resources := ((j.get? "resources").bind Json.asArr?).map fun xs => xs.map fun x => (x.asInt?).getD 0 }

def moldableOf (j : Json) : MoldableRecord :=
  ⟨intOf j "id", intOf j "walltime", (arrOf j "requests").map requestOf⟩

def assignmentOf (j : Json) : AssignmentRecord :=
  ⟨intOf j "begin", intOf j "end", (arrOf j "resources").map fun x => (x.asInt?).getD 0,
    (intOf j "moldable_index").toNat⟩

def dependencyOf (j : Json) : DependencyRecord :=
  ⟨intOf j "job_id", strOf j "state", optIntOf j "exit_code"⟩

def jobOf (j : Json) : JobRecord :=
  { id := intOf j "id", name := optStrOf j "name", user := optStrOf j "user",
    queue := strOf j "queue",
    types := (arrOf j "types").map fun x => (x.asStr?).getD "",
    moldables := (arrOf j "moldables").map moldableOf,
    assignment := (j.field? "assignment").map assignmentOf,
    dependencies := (arrOf j "dependencies").map dependencyOf,
    earliestStart := optIntOf j "earliest_start_time",
    submissionTime := intOf j "submission_time",
    karma := .finite (((j.get? "karma").bind Json.asFloat?).getD Binary64.zero),
    priority := intOf j "priority", state := strOf j "state" }

def ofRecord (j : Json) : Snapshot :=
  { now := intOf j "now", config := (j.field? "config").map Config.ofRecord,
    queues := (arrOf j "queues").map queueOf,
    resources := (arrOf j "resources").map ResourceRow.ofRecord,
    scheduled := (arrOf j "scheduled_jobs").map jobOf,
    waiting := (arrOf j "waiting_jobs").map jobOf }

end Snapshot

end ClusterScheduler
