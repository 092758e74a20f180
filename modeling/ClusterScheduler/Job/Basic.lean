import ClusterScheduler.Request
import ClusterScheduler.Notice
import ClusterScheduler.Binary64.Basic
import ClusterScheduler.Text.Basic
import ClusterScheduler.Word

/-!
# Jobs

A job asks for resources through its moldables, alternative shapes tried in order, and once
placed holds an assignment. Its types (`container`, `inner=…`, `timesharing=…`, `placeholder=…`,
`allow=…`, `find=…`) change how it is placed: which slot set it goes to, which resources it may
share, and which matcher chooses its resources. Types are read into those fields once, when the
job is built; a malformed type is warned about and read as absent.
-/

namespace ClusterScheduler

/-- With whom a job shares its resources. -/
inductive TimeSharing where
  /-- Any job sharing: `timesharing=*,*`. -/
  | allAll
  /-- Jobs of the same user: `timesharing=user,*`. -/
  | userAll
  /-- Jobs of the same name: `timesharing=*,name`. -/
  | allName
  /-- Jobs of the same user and name. -/
  | userName
  deriving DecidableEq, Repr

namespace TimeSharing

def parse : String → String → Option TimeSharing
  | "*", "*" => some .allAll
  | "user", "*" | "*", "user" => some .userAll
  | "name", "*" | "*", "name" => some .allName
  | "user", "name" | "name", "user" => some .userName
  | _, _ => none

def name : TimeSharing → String
  | .allAll => "AllAll"
  | .userAll => "UserAll"
  | .allName => "AllName"
  | .userName => "UserName"

def ofName? : String → Option TimeSharing
  | "AllAll" => some .allAll
  | "UserAll" => some .userAll
  | "AllName" => some .allName
  | "UserName" => some .userName
  | _ => none

end TimeSharing

/-- Whether a job reserves resources for others, or may use such reserved resources. -/
inductive Placeholder where
  | none
  /-- Reserves its resources for the `allow` jobs of that name. -/
  | holds (name : String)
  /-- May use the resources reserved under that name. -/
  | allows (name : String)
  deriving DecidableEq, Repr, Inhabited

/-- The state of a job that another one depends on. -/
inductive DependencyState where
  /-- Not finished: the dependent job starts after its end. -/
  | waiting
  | terminated (exitCode : Option Int)
  /-- Ignored. -/
  | error
  /-- Any other state blocks the dependent job for this round. -/
  | other (state : String)
  deriving DecidableEq, Repr

def DependencyState.parse (state : String) (exitCode : Option Int) : DependencyState :=
  match state with
  | "Waiting" => .waiting
  | "Terminated" => .terminated exitCode
  | "Error" => .error
  | s => .other s

structure Dependency where
  job : Int
  state : DependencyState
  deriving DecidableEq, Repr

/-- One shape of a job: a walltime and request groups. -/
structure Moldable where
  id : Int
  walltime : Int
  requests : List RequestGroup
  deriving DecidableEq, Inhabited

def Moldable.cacheKey (m : Moldable) : String := s!"{m.walltime}-{cacheText m.requests}"

/-- Where and when a job runs: from `begin` to `end`, security time included, on `resources`,
with the moldable at `moldable`. -/
structure Assignment where
  begin : Int
  «end» : Int
  resources : IdSet
  moldable : Nat
  deriving DecidableEq, Inhabited

/-- The assignment of a job started at `begin` for `walltime` seconds, extended by the security
time. -/
def Assignment.ofWalltime (begin walltime security : Int) (resources : IdSet) (moldable : Nat) :
    Except Fault Assignment := do
  let e ← Word.i64.add begin walltime
  let e ← Word.i64.add e security
  let e ← Word.i64.sub e 1
  pure ⟨begin, e, resources, moldable⟩

abbrev JobTypes := List (String × Option String)

def JobTypes.put (ts : JobTypes) (k : String) (v : Option String) : JobTypes :=
  if ts.any (·.1 = k) then ts.map fun (k', w) => if k' = k then (k, v) else (k', w)
  else ts ++ [(k, v)]

/-- Reads `key` or `key=value` entries, split at the first `=` and trimmed; a later key replaces
an earlier one. -/
def JobTypes.ofEntries (entries : List String) : JobTypes :=
  entries.foldl (fun ts e =>
    match Text.splitOnce '=' e.toList with
    | some (k, v) => ts.put (String.ofList (Text.trim k)) (some (String.ofList (Text.trim v)))
    | none => ts.put (String.ofList (Text.trim e.toList)) none) []

structure Job where
  id : Int
  name : Option String := none
  user : Option String := none
  queue : String := "default"
  types : JobTypes := []
  moldables : List Moldable := []
  assignment : Option Assignment := none
  timeSharing : Option TimeSharing := none
  placeholder : Placeholder := .none
  find : FindPolicy := .scattered
  dependencies : List Dependency := []
  earliestStart : Option Int := none
  submissionTime : Int := 0
  karma : Double := Double.zero
  priority : Int := 0
  state : String := "Waiting"
  deriving Inhabited

namespace Job

def type? (j : Job) (k : String) : Option (Option String) := j.types.lookup k

def isContainer (j : Job) : Bool := (j.type? "container").isSome

/-- The slot set the job is placed in: its container's for an inner job, else `default`. An
`inner` type without a value is warned about, at every call. -/
def slotSetName (j : Job) : Logged String :=
  match j.type? "inner" with
  | some (some c) => pure c
  | some none => do Logged.note (.innerWithoutContainer j.id); pure "default"
  | none => pure "default"

/-- The slot set a container job holds for its inner jobs: the container type's value, or the
job id. -/
def containerSlotSetName (j : Job) : Option String :=
  (j.type? "container").map fun v => v.getD (toString j.id)

/-- Whether the placement cache may give this job a start hint: jobs that share or reserve
resources, or use another matcher, see other free resources. -/
def canUseCache (j : Job) : Bool :=
  j.timeSharing.isNone && j.placeholder = .none && j.find = .scattered

/-- Whether the job's placement may be remembered for its siblings: only when nothing but the
free resources bounds its start. -/
def canSetCache (j : Job) : Bool :=
  j.canUseCache && j.dependencies.isEmpty && j.earliestStart.isNone

end Job

/-- A placement handed back: the job, its moldable id, the time range and the resources. -/
structure Allocation where
  job : Int
  moldable : Int
  begin : Int
  «end» : Int
  resources : IdSet
  deriving DecidableEq

/-- The allocation of a placed job. The moldable id is that of the assignment's moldable, or
the moldable index itself when it is out of range. -/
def Allocation.ofJob? (j : Job) : Option Allocation :=
  j.assignment.map fun a =>
    ⟨j.id, ((j.moldables[a.moldable]?).map Moldable.id).getD a.moldable, a.begin, a.end, a.resources⟩

/-! ## Reading types -/

def TimeSharing.ofTypes (ts : JobTypes) : Logged (Option TimeSharing) :=
  match ts.lookup "timesharing" with
  | none => pure none
  | some v =>
    let parsed := v.bind fun s =>
      (Text.splitOnce ',' s.toList).bind fun (u, n) =>
        TimeSharing.parse (String.ofList (Text.trim u)) (String.ofList (Text.trim n))
    match parsed with
    | some p => pure (some p)
    | none => do Logged.note (.badTimeSharing v); pure none

/-- The placeholder kind of the types: `placeholder=name` first, then `allow=name`; a key
without a name is warned about. -/
def Placeholder.ofTypes (ts : JobTypes) : Logged Placeholder :=
  match ts.lookup "placeholder", ts.lookup "allow" with
  | some (some n), _ => pure (.holds n)
  | _, some (some n) => pure (.allows n)
  | Option.none, Option.none => pure .none
  | _, _ => do Logged.note .badPlaceholder; pure .none

/-- The matcher of the types: `find=name` or `find=name:args`, arguments ignored; an unknown
one is warned about and replaced by the scattered matcher. -/
def FindPolicy.ofTypes (ts : JobTypes) : Logged FindPolicy :=
  match ts.lookup "find" with
  | none => pure .scattered
  | some v =>
    let parsed := v.bind fun s =>
      let n := match Text.splitOnce ':' s.toList with
        | some (n, _) => n
        | none => s.toList
      FindPolicy.parse (String.ofList (Text.trim n))
    match parsed with
    | some p => pure p
    | none => do Logged.note (.unknownFind v); pure .scattered

/-! ## Building jobs

A `JobDraft` collects a job's fields one call at a time; `build` fills the time sharing,
placeholder and matcher fields from the types when they were not given, in that order, and
gives the job with the warnings its types raised.
-/

/-- A job being built; fields not given are `none`. -/
structure JobDraft where
  id : Int
  name : Option String := none
  user : Option String := none
  queue : Option String := none
  types : JobTypes := []
  moldables : List Moldable := []
  assignment : Option Assignment := none
  timeSharing : Option TimeSharing := none
  placeholder : Option Placeholder := none
  find : Option FindPolicy := none
  dependencies : List Dependency := []
  earliestStart : Option Int := none
  submissionTime : Int := 0
  karma : Double := Double.zero
  priority : Int := 0
  state : String := "Waiting"
  deriving Inhabited

namespace JobDraft

/-- The job: fields not given are read from the types, time sharing first, then placeholder,
then matcher; the queue defaults to `default`. -/
def build (d : JobDraft) : Logged Job := do
  let timeSharing ← match d.timeSharing with
    | some t => pure (some t)
    | none => TimeSharing.ofTypes d.types
  let placeholder ← match d.placeholder with
    | some p => pure p
    | none => Placeholder.ofTypes d.types
  let find ← match d.find with
    | some f => pure f
    | none => FindPolicy.ofTypes d.types
  pure { id := d.id, name := d.name, user := d.user, queue := d.queue.getD "default",
         types := d.types, moldables := d.moldables, assignment := d.assignment, timeSharing,
         placeholder, find, dependencies := d.dependencies, earliestStart := d.earliestStart,
         submissionTime := d.submissionTime, karma := d.karma, priority := d.priority,
         state := d.state }

end JobDraft

end ClusterScheduler
