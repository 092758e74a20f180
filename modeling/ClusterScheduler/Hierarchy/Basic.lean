import ClusterScheduler.Resource.Row
import ClusterScheduler.Notice
import ClusterScheduler.Config
import ClusterScheduler.Request

/-!
# Resource hierarchy

A hierarchy has named levels (`switch`, `network_address`, `core`, ...). A level either lists
its groups, disjoint sets of resources ordered by their lowest id, or is a virtual unit level in
which every resource is its own group. A level whose groups are all single resources, with no
resource left out, is a unit level too; unit levels are matched by taking the lowest free ids.

`Hierarchy.build` groups active resources by the values of label columns; a label that no
resource has is refused, and resources without a value for a label get a warning.
-/

namespace ClusterScheduler

/-- One group of a level, for instance one node. -/
structure Group where
  value : String
  resources : IdSet
  deriving DecidableEq, Inhabited

/-- A hierarchy level: its groups (`none` for a virtual unit level) and whether every group is a
single resource. -/
structure Level where
  groups : Option (List Group)
  unit : Bool
  deriving DecidableEq, Inhabited

/-- Named hierarchy levels, one entry per name. -/
structure Hierarchy where
  levels : List (String × Level) := []
  deriving DecidableEq, Inhabited

namespace Hierarchy

def level? (h : Hierarchy) (name : String) : Option Level := h.levels.lookup name

def hasLevel (h : Hierarchy) (name : String) : Bool := (h.level? name).isSome

def isUnit (h : Hierarchy) (name : String) : Bool :=
  match h.level? name with
  | some l => l.unit
  | none => false

def groups? (h : Hierarchy) (name : String) : Option (List Group) :=
  (h.level? name).bind Level.groups

def addLevel (h : Hierarchy) (name : String) (l : Level) : Except Fault Hierarchy :=
  if h.hasLevel name then .error (.levelExists name)
  else .ok ⟨h.levels ++ [(name, l)]⟩

/-- Empty groups are dropped and the others ordered by lowest id, keeping the given order
between groups of the same lowest id. -/
def arrange (gs : List Group) : List Group :=
  (gs.filter (!·.resources.isEmpty)).mergeSort fun a b => decide (a.resources.min?.getD 0 ≤ b.resources.min?.getD 0)

def addGroups (h : Hierarchy) (name : String) (gs : List Group) : Except Fault Hierarchy :=
  h.addLevel name ⟨some (arrange gs), false⟩

def addPartition (h : Hierarchy) (name : String) (sets : List IdSet) : Except Fault Hierarchy :=
  h.addGroups name (sets.zipIdx.map fun (s, i) => ⟨toString i, s⟩)

def addUnit (h : Hierarchy) (name : String) : Except Fault Hierarchy :=
  h.addLevel name ⟨none, true⟩

def gather (v : String) (i : Nat) : List (String × List Nat) → List (String × List Nat)
  | [] => [(v, [i])]
  | (w, ids) :: rest => if v = w then (w, ids ++ [i]) :: rest else (w, ids) :: gather v i rest

def groupBy (rows : List (Nat × ResourceRow)) (label : String) : List (String × List Nat) × Nat :=
  rows.foldl (fun (gs, missing) (i, r) =>
    match r.value label with
    | some v => (gather v i gs, missing)
    | none => (gs, missing + 1)) ([], 0)

def addLabel (rows : List (Nat × ResourceRow)) (h : Hierarchy) (label : String) :
    ExceptT ConfigError Logged Hierarchy := do
  let (gs, missing) := groupBy rows label
  if !rows.isEmpty && gs.isEmpty then throw (.unknownLabel label)
  if 0 < missing then Logged.note (.labelGaps missing label)
  let unit := missing = 0 && gs.all (·.2.length = 1)
  let groups := arrange (gs.map fun (v, ids) => ⟨v, IdSet.ofIds ids⟩)
  h.addLevel label ⟨some groups, unit⟩

def build (rows : List (Nat × ResourceRow)) (labels : List String) :
    ExceptT ConfigError Logged Hierarchy :=
  labels.foldlM (addLabel rows) {}

/-! ## Checking requests

Before a moldable is matched its request is checked against the hierarchy: every group asks
for something, only at known levels, never zero of a level, and its filter meets the resources
that can be scheduled. A matcher other than the scattered one also needs a shape it can match.
-/

def checkLevel (h : Hierarchy) (moldable : Int) (l : LevelCount) : Except RequestError Unit :=
  if !h.hasLevel l.level then .error (.unknownLevel moldable l.level)
  else if l.count = 0 then .error (.zeroCount moldable l.level)
  else .ok ()

def checkGroup (h : Hierarchy) (moldable : Int) (resources : IdSet) (g : RequestGroup) :
    Except RequestError Unit := do
  if g.levels.isEmpty then throw (.emptyRequest moldable)
  g.levels.forM (h.checkLevel moldable)
  if !g.filter.overlaps resources then throw (.emptyFilter moldable)

def validate (h : Hierarchy) (moldable : Int) (groups : List RequestGroup) (resources : IdSet) :
    Except RequestError Unit := do
  if groups.isEmpty then throw (.emptyRequest moldable)
  groups.forM (h.checkGroup moldable resources)

/-- Whether a matcher can match the levels of a group: contiguous matchers take one unit
level, the local one one level or an outer level over a unit level. -/
def supports (h : Hierarchy) (policy : FindPolicy) (levels : List LevelCount) : Bool :=
  match policy, levels with
  | .scattered, _ => true
  | .contiguous, [l] | .contiguousBestFit, [l] => h.isUnit l.level
  | .contiguous, _ | .contiguousBestFit, _ => false
  | .local, [_] => true
  | .local, [_, inner] => h.isUnit inner.level
  | .local, _ => false

def validateFind (h : Hierarchy) (moldable : Int) (policy : FindPolicy)
    (groups : List RequestGroup) : Except RequestError Unit :=
  if groups.all (h.supports policy ·.levels) then .ok ()
  else .error (.unsupportedFind moldable policy)

end Hierarchy

end ClusterScheduler
