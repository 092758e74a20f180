import ClusterScheduler.IdSet.Basic

/-!
# Resource requests

A moldable asks for resources as request groups: each group counts resources per hierarchy
level, outermost level first, among the resources of its filter. A matcher (`FindPolicy`)
chooses the resources of a group. `RequestError` says why a request cannot be matched at all;
only the job that made it is skipped.
-/

namespace ClusterScheduler

/-- How the resources of a request group are chosen among the free ones. -/
inductive FindPolicy where
  /-- Greedy matching level by level, first groups first. -/
  | scattered
  /-- The first run of consecutive free ids long enough. -/
  | contiguous
  /-- The shortest run of consecutive free ids long enough. -/
  | contiguousBestFit
  /-- The outer groups with the fewest free resources first. -/
  | local
  deriving DecidableEq, Repr, Inhabited

namespace FindPolicy

def parse : String → Option FindPolicy
  | "default" | "scattered" => some .scattered
  | "contiguous" | "contiguous_1h" => some .contiguous
  | "contiguous_sorted" | "contiguous_sorted_1h" => some .contiguousBestFit
  | "local" => some .local
  | _ => none

def name : FindPolicy → String
  | .scattered => "scattered"
  | .contiguous => "contiguous"
  | .contiguousBestFit => "contiguous_sorted"
  | .local => "local"

end FindPolicy

/-- A count of resources asked at one hierarchy level. -/
structure LevelCount where
  level : String
  count : Nat
  deriving DecidableEq, Repr, Inhabited

/-- One request group: counts per level, outermost first, among the resources of `filter`. -/
structure RequestGroup where
  filter : IdSet
  levels : List LevelCount
  deriving DecidableEq, Inhabited

/-- The text identifying a request for the placement cache: per group, the filter's display
form, a dash, and `level:count` items joined by commas; groups joined by semicolons. -/
def cacheText (groups : List RequestGroup) : String :=
  ";".intercalate (groups.map fun g =>
    g.filter.render ++ "-" ++ ",".intercalate (g.levels.map fun l => s!"{l.level}:{l.count}"))

/-- Why the request of a job cannot be matched. -/
inductive RequestError where
  | noMoldable
  | emptyRequest (moldable : Int)
  | unknownLevel (moldable : Int) (level : String)
  | zeroCount (moldable : Int) (level : String)
  | nonPositiveWalltime (moldable : Int) (walltime : Int)
  | emptyFilter (moldable : Int)
  | unsupportedFind (moldable : Int) (find : FindPolicy)
  deriving DecidableEq, Repr

namespace RequestError

def message : RequestError → String
  | .noMoldable => "job has no moldable"
  | .emptyRequest m => s!"moldable {m} has no resource request"
  | .unknownLevel m l => s!"moldable {m} requests unknown hierarchy level {l}"
  | .zeroCount m l => s!"moldable {m} requests 0 of level {l}"
  | .nonPositiveWalltime m w => s!"moldable {m} has a non positive walltime {w}"
  | .emptyFilter m => s!"moldable {m} has a property filter matching no resource"
  | .unsupportedFind m f => s!"moldable {m} requests levels the {f.name} matcher can't handle"

end RequestError

/-! ## Job diagnostics

A diagnostic tells why a job was left unplaced for another reason than a lack of free
resources. A scheduling pass returns them beside its placements.
-/

/-- Why a job was skipped. -/
inductive DiagnosticKind where
  | invalidRequest (e : RequestError)
  | unsatisfiedDependencies
  | missingSlotSet (name : String)
  deriving DecidableEq, Repr

/-- A skipped job and the reason. -/
structure Diagnostic where
  job : Int
  kind : DiagnosticKind
  deriving DecidableEq, Repr

def Diagnostic.text (d : Diagnostic) : String :=
  match d.kind with
  | .invalidRequest e => s!"job {d.job}: invalid request: {e.message}"
  | .unsatisfiedDependencies => s!"job {d.job}: unsatisfied dependencies"
  | .missingSlotSet n => s!"job {d.job}: slot set {n} is missing"

end ClusterScheduler
