import ClusterScheduler.Cycle
import ClusterScheduler.Json.Print

/-!
# JSON forms

The JSON forms in which the scheduler's values are reported: id sets as sorted disjoint
`[low, high]` pairs, errors as an object with the error's kind and text, jobs, placements, slot
sets and cycle reports as objects whose keys are field names. Objects are built with
`Json.object`, so their keys are sorted.
-/

namespace ClusterScheduler

open Json

def IdSet.toJson (s : IdSet) : Json :=
  .arr (s.spans.map fun sp => .arr [.int sp.lo, .int sp.hi])

def textsJson (xs : List String) : Json := .arr (xs.map .str)

def intsJson (xs : List Int) : Json := .arr (xs.map .int)

def errorJson (kind text : String) : Json := Json.object [("error", .str kind), ("message", .str text)]

def RequestError.kind : RequestError → String
  | .noMoldable => "NoMoldable"
  | .emptyRequest _ => "EmptyRequest"
  | .unknownLevel _ _ => "UnknownLevel"
  | .zeroCount _ _ => "InvalidQuantity"
  | .nonPositiveWalltime _ _ => "InvalidWalltime"
  | .emptyFilter _ => "EmptyFilter"
  | .unsupportedFind _ _ => "UnsupportedFind"

def RequestError.toJson (e : RequestError) : Json := errorJson e.kind e.message

def ConfigError.kind : ConfigError → String
  | .unreadable _ _ => "Io"
  | .invalidValue _ _ => "InvalidValue"
  | .unknownLabel _ => "UnknownHierarchyLabel"
  | .invalidOrder _ => "InvalidResourceOrder"
  | .duplicateResource _ => "DuplicateResource"

def ConfigError.toJson (e : ConfigError) : Json := errorJson e.kind e.message

def Fault.toJson (f : Fault) : Json := errorJson "panic" f.message

def Config.report (c : Config) : Json :=
  Json.object [("config", c.toJson), ("hierarchy_label_list", textsJson c.labelList),
    ("suspendable_resource_types", textsJson c.suspendableTypeList)]

def Placeholder.toJson : Placeholder → Json
  | .none => .null
  | .holds n => Json.object [("placeholder", .str n)]
  | .allows n => Json.object [("allow", .str n)]

def DependencyState.toJson : DependencyState → Json
  | .waiting => Json.object [("kind", .str "Waiting")]
  | .terminated c => Json.object [("kind", .str "Terminated"), ("exit_code", Json.opt .int c)]
  | .error => Json.object [("kind", .str "Error")]
  | .other s => Json.object [("kind", .str "Other"), ("state", .str s)]

def Dependency.toJson (d : Dependency) : Json :=
  Json.object [("job_id", .int d.job), ("state", d.state.toJson)]

def RequestGroup.toJson (g : RequestGroup) : Json :=
  Json.object [("filter", g.filter.toJson),
    ("levels", .arr (g.levels.map fun l => .arr [.str l.level, .int l.count]))]

def Moldable.toJson (m : Moldable) : Json :=
  Json.object [("id", .int m.id), ("walltime", .int m.walltime),
    ("requests", .arr (m.requests.map RequestGroup.toJson))]

def Assignment.toJson (a : Assignment) : Json :=
  Json.object [("begin", .int a.begin), ("end", .int a.end), ("resources", a.resources.toJson),
    ("moldable_index", .int a.moldable)]

def Logged.valueD {α : Type} (x : Logged α) (d : α) : α :=
  match x.result with
  | .ok a => a
  | .error _ => d

def Job.toJson (j : Job) : Json :=
  Json.object [
    ("id", .int j.id), ("name", Json.opt .str j.name), ("user", Json.opt .str j.user),
    ("queue", .str j.queue), ("state", .str j.state),
    ("time_sharing", Json.opt (fun t => .str t.name) j.timeSharing),
    ("placeholder", j.placeholder.toJson), ("find", .str j.find.name),
    ("is_container", .bool j.isContainer),
    ("slot_set_name", .str (j.slotSetName.valueD "default")),
    ("container_slot_set_name", Json.opt .str j.containerSlotSetName),
    ("can_use_cache", .bool j.canUseCache), ("can_set_cache", .bool j.canSetCache),
    ("earliest_start_time", Json.opt .int j.earliestStart),
    ("submission_time", .int j.submissionTime), ("priority", .int j.priority),
    ("dependencies", .arr (j.dependencies.map Dependency.toJson)),
    ("moldables", .arr (j.moldables.map Moldable.toJson)),
    ("assignment", Json.opt Assignment.toJson j.assignment)]

def Allocation.toJson (a : Allocation) (ids : Option IdMap) : Json :=
  let base := [("job_id", .int a.job), ("moldable_id", .int a.moldable), ("begin", .int a.begin),
    ("end", .int a.end), ("resources", a.resources.toJson)]
  Json.object (match ids with
    | some m => base ++ [("external", intsJson (m.toExternal a.resources))]
    | none => base)

def Diagnostic.toJson (d : Diagnostic) : Json :=
  let (kind, detail) : String × Json := match d.kind with
    | .invalidRequest e => ("InvalidRequest", e.toJson)
    | .unsatisfiedDependencies => ("UnsatisfiedDependencies", .null)
    | .missingSlotSet n => ("MissingSlotSet", .str n)
  Json.object [("job_id", .int d.job), ("kind", .str kind), ("detail", detail), ("text", .str d.text)]

def Window.toJson (w : Window) : Json :=
  Json.object [("begin", .int w.begin), ("end", .int w.end), ("begin_slot_id", .int w.beginSlot),
    ("end_slot_id", .int w.endSlot), ("resources", w.resources.toJson)]

def namedJson (m : NamedSets) : Json := Json.object (m.map fun (k, s) => (k, s.toJson))

def SlotSet.slotJson (ss : SlotSet) (s : Slot) : Json :=
  Json.object [("id", .int s.id), ("prev", Json.opt .int (ss.prev? s.id)),
    ("next", Json.opt .int (ss.next? s.id)), ("begin", .int s.begin), ("end", .int s.end),
    ("resources", s.resources.toJson),
    ("time_sharing", Json.object (s.shared.map fun (u, m) => (u, namedJson m))),
    ("placeholders", namedJson s.reserved)]

def SlotSet.toJson (ss : SlotSet) : Json :=
  Json.object [("begin", .int ss.begin), ("end", .int ss.end), ("slot_count", .int ss.size),
    ("cache_len", .int ss.cache.length), ("slots", .arr (ss.slots.map ss.slotJson))]

def SlotSets.toJson (m : SlotSets) : Json := Json.object (m.map fun (k, s) => (k, s.toJson))

def CycleReport.toJson (r : CycleReport) (ids : Option IdMap) : Json :=
  Json.object [("allocations", .arr (r.allocations.map (·.toJson ids))),
    ("diagnostics", .arr (r.diagnostics.map Diagnostic.toJson)), ("slot_count", .int r.slotCount)]

def Hierarchy.levelJson (h : Hierarchy) (name : String) : Json :=
  Json.object [("has_partition", .bool (h.hasLevel name)), ("unit", .bool (h.isUnit name)),
    ("groups", Json.opt (fun gs => .arr (gs.map fun g =>
      Json.object [("value", .str g.value), ("resources", g.resources.toJson)])) (h.groups? name))]

def Inventory.toJson (inv : Inventory) (labels : List String) : Json :=
  Json.object [
    ("nb_resources_not_dead", .int inv.notDead),
    ("nb_resources_default_not_dead", .int inv.defaultNotDead),
    ("suspendable_resources", inv.suspendable.toJson),
    ("default_resources", inv.defaultResources.toJson),
    ("available_upto", .arr (inv.availableUpto.map fun (t, s) => .arr [.int t, s.toJson])),
    ("i2o", intsJson inv.idMap.ids),
    ("hierarchy", .arr (labels.map fun l =>
      match inv.hierarchy.levelJson l with
      | .obj ms => Json.object ((ms.filter (·.1 ≠ "has_partition")) ++ [("label", .str l)])
      | j => j))]

end ClusterScheduler
