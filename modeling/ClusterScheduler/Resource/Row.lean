import ClusterScheduler.Json.Shape
import ClusterScheduler.Notice
import ClusterScheduler.IdSet.Basic
import ClusterScheduler.Config

/-!
# Resource rows

A row of the resource inventory: an external id, a type, a state, an optional time after which
the resource leaves, and free label columns (`network_address`, `cpu`, properties). Columns are
looked up by name with `ResourceRow.value`, the built-in ones first.
-/

namespace ClusterScheduler

/-- The state of a resource. Alive and absent resources can be scheduled, absent ones being
expected back. -/
inductive ResourceState where
  | alive
  | absent
  | suspected
  | dead
  deriving DecidableEq, Repr, Inhabited

namespace ResourceState

def name : ResourceState → String
  | .alive => "Alive"
  | .absent => "Absent"
  | .suspected => "Suspected"
  | .dead => "Dead"

def names : List String := ["Alive", "Absent", "Suspected", "Dead"]

def ofName? : String → Option ResourceState
  | "Alive" => some .alive
  | "Absent" => some .absent
  | "Suspected" => some .suspected
  | "Dead" => some .dead
  | _ => none

def isActive : ResourceState → Bool
  | .alive | .absent => true
  | _ => false

end ResourceState

/-- One row of the resource inventory. Labels are kept sorted by column, one value each. -/
structure ResourceRow where
  id : Int
  type : String := "default"
  state : ResourceState
  availableUpto : Option Int := none
  labels : List (String × String) := []
  deriving DecidableEq, Repr, Inhabited

def setLabel (col v : String) : List (String × String) → List (String × String)
  | [] => [(col, v)]
  | (c, w) :: rest =>
    if col = c then (col, v) :: rest
    else if col < c then (col, v) :: (c, w) :: rest
    else (c, w) :: setLabel col v rest

namespace ResourceRow

def builtinColumns : List String := ["resource_id", "id", "type", "state", "available_upto"]

def label (r : ResourceRow) (col v : String) : ResourceRow :=
  { r with labels := setLabel col v r.labels }

/-- The value of a column: `resource_id` and `id` give the id, `type`, `state` and
`available_upto` the built-in fields, and any other name a label. -/
def value (r : ResourceRow) (col : String) : Option String :=
  match col with
  | "resource_id" | "id" => some (toString r.id)
  | "type" => some r.type
  | "state" => some r.state.name
  | "available_upto" => r.availableUpto.map toString
  | _ => r.labels.lookup col

def hasColumn (r : ResourceRow) (col : String) : Bool :=
  builtinColumns.contains col || (r.labels.lookup col).isSome

def shape : Json.Shape :=
  .record "ResourceRow" [
    ("id", .i64, none),
    ("type", .string, some (.str "default")),
    ("state", .names ResourceState.names, none),
    ("available_upto", .option .i64, some .null),
    ("labels", .strMap .string, some (.obj []))]

def ofRecord (j : Json) : ResourceRow :=
  let labels := match j.get? "labels" with
    | some (.obj ms) => ms.foldl (fun acc (k, v) => setLabel k ((v.asStr?).getD "") acc) []
    | _ => []
  { id := ((j.get? "id").bind Json.asInt?).getD 0
    type := ((j.get? "type").bind Json.asStr?).getD "default"
    state := (((j.get? "state").bind Json.asStr?).bind ResourceState.ofName?).getD .alive
    availableUpto := (j.get? "available_upto").bind Json.asInt?
    labels }

end ResourceRow

/-! ## Resource numbering

Every id set of the scheduler holds internal ids: the positions of the resources in the
inventory order. An `IdMap` holds the external ids by position and converts both ways; an
unknown external id is dropped with a warning, an internal id past the end is dropped silently.
-/

/-- External resource ids by internal id. -/
structure IdMap where
  ids : List Int
  deriving DecidableEq, Repr, Inhabited

namespace IdMap

def firstRepeat : List Int → List Int → Option Int
  | _, [] => none
  | seen, x :: rest => if seen.contains x then some x else firstRepeat (x :: seen) rest

def ofList (ids : List Int) : Except ConfigError IdMap :=
  match firstRepeat [] ids with
  | some d => .error (.duplicateResource d)
  | none => .ok ⟨ids⟩

def size (m : IdMap) : Nat := m.ids.length

def internalId? (m : IdMap) (ext : Int) : Option Nat := m.ids.idxOf? ext

def externalId? (m : IdMap) (i : Nat) : Option Int := m.ids[i]?

def toInternal (m : IdMap) (exts : List Int) : Logged IdSet := do
  let found ← exts.filterMapM fun e =>
    match m.internalId? e with
    | some i => pure (some i)
    | none => do Logged.note (.unknownResource e); pure none
  pure (IdSet.ofIds found)

def toExternal (m : IdMap) (s : IdSet) : List Int :=
  (s.idsBelow m.size).filterMap m.externalId?

end IdMap

end ClusterScheduler
