import ClusterScheduler.Resource.Order
import ClusterScheduler.Resource.Row
import ClusterScheduler.Hierarchy.Basic

/-!
# Inventory

The inventory is the scheduler's view of the resources: rows numbered in the configured order,
the default resources that slot sets start from, the resources suspended jobs release, the
times after which resources leave, and the hierarchy of the active ones. A `Cluster` is an
inventory with the configuration it was built from.
-/

namespace ClusterScheduler

/-- The resources of a cluster in internal numbering. -/
structure Inventory where
  notDead : Nat := 0
  defaultNotDead : Nat := 0
  suspendable : IdSet := ∅
  defaultResources : IdSet := ∅
  /-- Resources leaving after a time, by ascending time. -/
  availableUpto : List (Int × IdSet) := []
  hierarchy : Hierarchy := {}
  idMap : IdMap := ⟨[]⟩
  deriving Inhabited

namespace Inventory

def addLeaving (t : Int) (i : Nat) : List (Int × List Nat) → List (Int × List Nat)
  | [] => [(t, [i])]
  | (u, ids) :: rest =>
    if t = u then (u, ids ++ [i]) :: rest
    else if t < u then (t, [i]) :: (u, ids) :: rest
    else (u, ids) :: addLeaving t i rest

/-- What the numbered rows contribute, gathered in one pass. -/
structure Tally where
  notDead : Nat := 0
  defaultNotDead : Nat := 0
  active : List (Nat × ResourceRow) := []
  defaults : List Nat := []
  suspendable : List Nat := []
  leaving : List (Int × List Nat) := []

/-- Counts one numbered row. Rows that are not dead are counted; inactive rows add nothing
else; an `available_upto` of 0 or less means no limit. -/
def tally (suspendableTypes : List String) (t : Tally) (ir : Nat × ResourceRow) : Tally :=
  let (i, r) := ir
  let isDefault := r.type = "default"
  let t := if r.state ≠ .dead then
      { t with notDead := t.notDead + 1,
               defaultNotDead := if isDefault then t.defaultNotDead + 1 else t.defaultNotDead }
    else t
  if !r.state.isActive then t
  else
    { t with
      active := t.active ++ [(i, r)]
      defaults := if isDefault then t.defaults ++ [i] else t.defaults
      suspendable := if suspendableTypes.contains r.type then t.suspendable ++ [i] else t.suspendable
      leaving := match r.availableUpto with
        | some u => if 0 < u then addLeaving u i t.leaving else t.leaving
        | none => t.leaving }

def ofRows (rows : List ResourceRow) (c : Config) : ExceptT ConfigError Logged Inventory := do
  let order ← liftM (ResourceOrder.parse c.resourceOrder)
  let sorted ← (order.sort rows : Except Fault (List ResourceRow))
  let idMap ← liftM (IdMap.ofList (sorted.map (·.id)))
  let t := sorted.zipIdx.foldl (fun t (r, i) => tally c.suspendableTypeList t (i, r)) {}
  let hierarchy ← Hierarchy.build t.active c.labelList
  pure { notDead := t.notDead, defaultNotDead := t.defaultNotDead,
         suspendable := IdSet.ofIds t.suspendable, defaultResources := IdSet.ofIds t.defaults,
         availableUpto := t.leaving.map fun (u, ids) => (u, IdSet.ofIds ids),
         hierarchy, idMap }

end Inventory

/-- A cluster: a configuration and the inventory built with it. -/
structure Cluster where
  config : Config
  inventory : Inventory
  deriving Inhabited

def Cluster.ofRows (c : Config) (rows : List ResourceRow) : ExceptT ConfigError Logged Cluster := do
  let inv ← Inventory.ofRows rows c
  pure ⟨c, inv⟩

end ClusterScheduler
