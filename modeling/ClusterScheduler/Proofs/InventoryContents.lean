import ClusterScheduler.Proofs.InventoryTally

/-!
# What the inventory holds

A build of the inventory that ends well numbers the rows in the order the sort gives them and
fills the rest from them: the counters count the rows not dead, the default and suspendable
resources are the active rows of the right types, each time after which resources leave is
listed once, ascending, with exactly the active rows leaving then, and each label has one level,
grouping the active rows by value. The numbering is the comparison's order when no key's column
mixes integers and text; when one does, it need not be (`numbering_breaks_compare_order`).
-/

namespace ClusterScheduler

open scoped List

namespace Inventory

/-- What the inventory built from rows numbered in the order of `sorted` holds: the numbering,
the counters, the default and suspendable resources, the times after which resources leave,
and one level per label, grouping the active rows by value. -/
structure Describes (c : Config) (sorted : List ResourceRow) (inv : Inventory) : Prop where
  ids : inv.idMap.ids = sorted.map (·.id)
  ids_nodup : inv.idMap.ids.Nodup
  notDead : inv.notDead = sorted.countP fun r => r.state ≠ .dead
  defaultNotDead : inv.defaultNotDead = sorted.countP fun r => r.state ≠ .dead ∧ r.type = "default"
  defaults : ∀ x, x ∈ inv.defaultResources ↔
    ∃ r, sorted[x]? = some r ∧ r.state.isActive ∧ r.type = "default"
  suspendable : ∀ x, x ∈ inv.suspendable ↔
    ∃ r, sorted[x]? = some r ∧ r.state.isActive ∧ r.type ∈ c.suspendableTypeList
  leaving_ascending : (inv.availableUpto.map (·.1)).Pairwise (· < ·)
  leaving : ∀ e ∈ inv.availableUpto, 0 < e.1 ∧ ∀ x, x ∈ e.2 ↔
    ∃ r, sorted[x]? = some r ∧ r.state.isActive ∧ r.availableUpto = some e.1
  leaving_complete : ∀ (x : Nat) (r : ResourceRow) (u : Int), sorted[x]? = some r → r.state.isActive → r.availableUpto = some u →
    0 < u → ∃ s, (u, s) ∈ inv.availableUpto
  labels : inv.hierarchy.levels.map (·.1) = c.labelList
  labels_nodup : c.labelList.Nodup
  levels : ∀ l ∈ c.labelList, ∃ gs, inv.hierarchy.groups? l = some gs ∧
    Hierarchy.GroupsBy (Hierarchy.labelled (activeRows sorted) l) gs ∧
    (inv.hierarchy.isUnit l = true ↔
      (∀ (x : Nat) (r : ResourceRow), sorted[x]? = some r → r.state.isActive →
        (r.value l).isSome) ∧
      ∀ g ∈ gs, g.resources.card = 1)

theorem tallyRows_leaving {types : List String} {sorted : List ResourceRow} {e : Int × List Nat}
    (he : e ∈ (tallyRows types sorted).leaving) :
    0 < e.1 ∧ ∀ x, x ∈ e.2 ↔
      ∃ r, sorted[x]? = some r ∧ r.state.isActive ∧ r.availableUpto = some e.1 := by
  have ht := (tallyRows_spec types sorted).leaving
  have hmem : ∀ x, x ∈ e.2 ↔ (x, e.1) ∈ leavers (numbered sorted) := by
    intro x
    rw [ht.ids_eq e he]
    simp
  obtain ⟨y, hy⟩ := List.exists_mem_of_ne_nil _ (ht.nonempty e he)
  obtain ⟨-, -, -, -, hpos⟩ := mem_leavers.1 ((hmem y).1 hy)
  refine ⟨hpos, fun x => ?_⟩
  rw [hmem, mem_leavers]
  exact ⟨fun ⟨r, hr, hact, hu, _⟩ => ⟨r, hr, hact, hu⟩,
    fun ⟨r, hr, hact, hu⟩ => ⟨r, hr, hact, hu, hpos⟩⟩

theorem describes_inventory {c : Config} {sorted : List ResourceRow} {m : IdMap} {hier : Hierarchy}
    (hm : IdMap.ofList (sorted.map (·.id)) = .ok m)
    (hh : (Hierarchy.build (tallyRows c.suspendableTypeList sorted).active c.labelList).run.result =
      .ok (.ok hier)) :
    Describes c sorted ((tallyRows c.suspendableTypeList sorted).inventory hier m) := by
  have ht := tallyRows_spec c.suspendableTypeList sorted
  obtain ⟨hids, hnd⟩ := IdMap.ofList_ok hm
  have hact : (tallyRows c.suspendableTypeList sorted).active = activeRows sorted := ht.active
  rw [hact] at hh
  obtain ⟨hlevels, hlnd⟩ := Hierarchy.build_ok hh
  refine ⟨hids, hids ▸ hnd, ?_, ?_, fun x => ?_, fun x => ?_, ?_, fun e he => ?_,
    fun x r u hr hact hu hpos => ?_, by simp [Tally.inventory, hlevels, Function.comp_def], hlnd, fun l hl => ?_⟩
  · show (tallyRows _ _).notDead = _
    rw [ht.notDead]
    exact countP_numbered fun r => decide (r.state ≠ .dead)
  · show (tallyRows _ _).defaultNotDead = _
    rw [ht.defaultNotDead]
    exact countP_numbered fun r => decide (r.state ≠ .dead ∧ r.type = "default")
  · show x ∈ IdSet.ofIds (tallyRows _ _).defaults ↔ _
    rw [IdSet.mem_ofIds, ht.defaults]
    exact mem_ids_numbered (P := fun r => r.state.isActive ∧ r.type = "default")
  · show x ∈ IdSet.ofIds (tallyRows _ _).suspendable ↔ _
    rw [IdSet.mem_ofIds, ht.suspendable]
    exact mem_ids_numbered (P := fun r => r.state.isActive ∧ r.type ∈ c.suspendableTypeList)
  · show (((tallyRows _ _).leaving.map _).map _).Pairwise _
    rw [List.map_map]
    exact ht.ascending
  · obtain ⟨e', he', rfl⟩ := List.mem_map.1 he
    obtain ⟨hpos, hids⟩ := tallyRows_leaving he'
    exact ⟨hpos, fun x => (IdSet.mem_ofIds).trans (hids x)⟩
  · obtain ⟨e, he, heu⟩ := ht.leaving.complete (x, u) (mem_leavers.2 ⟨r, hr, hact, hu, hpos⟩)
    exact ⟨IdSet.ofIds e.2, List.mem_map.2 ⟨e, he, Prod.ext heu rfl⟩⟩
  · have hlevel := Hierarchy.level?_of_build hh hl
    refine ⟨_, by simp [Hierarchy.groups?, Tally.inventory, hlevel, Hierarchy.levelOf],
      Hierarchy.arrange_groupsBy (Hierarchy.groupBy_spec _ l).1 (labelled_ids_nodup l), ?_⟩
    simp only [Hierarchy.isUnit, Tally.inventory, hlevel]
    rw [Hierarchy.levelOf_unit_iff (labelled_ids_nodup l)]
    refine and_congr_left fun _ => ⟨fun H x r hr hact => H (x, r) (mem_activeRows.2 ⟨hr, hact⟩),
      fun H p hp => ?_⟩
    obtain ⟨hr, hact⟩ := mem_activeRows.1 hp
    exact H p.1 p.2 hr hact

/-- A build of the inventory that ends well numbers the rows in the order the sort gives, which
is the order of the comparison when no key's column mixes integers and text, and the rows in
that order describe the inventory. -/
theorem ofRows_describes {rows : List ResourceRow} {c : Config} {inv : Inventory}
    (h : (ofRows rows c).run.result = .ok (.ok inv)) :
    ∃ o sorted, ResourceOrder.parse c.resourceOrder = .ok o ∧ o.sort rows = .ok sorted ∧
      sorted ~ rows ∧ (o.Uniform rows → Sorting.Sorted (fun a b => o.compare a b == .lt) sorted) ∧
      Describes c sorted inv := by
  obtain ⟨o, sorted, m, hier, ho, hs, hm, hh, rfl⟩ := ofRows_ok h
  refine ⟨o, sorted, ho, hs, Sorting.sortBy_perm hs, fun hu => ?_, describes_inventory hm hh⟩
  obtain ⟨sorted', hs', -, hsorted⟩ := ResourceOrder.sort_sorts hu
  rw [hs] at hs'
  cases hs'
  exact hsorted

theorem ofRows_describes_one_row :
    let rows : List ResourceRow := [{ id := 7, state := .alive, availableUpto := some 50 }]
    let c : Config := { hierarchyLabels := "resource_id" }
    let inv : Inventory :=
      { notDead := 1, defaultNotDead := 1, suspendable := IdSet.ofIds [0],
        defaultResources := IdSet.ofIds [0], availableUpto := [(50, IdSet.ofIds [0])],
        hierarchy := ⟨[("resource_id", ⟨some [⟨"7", IdSet.ofIds [0]⟩], true⟩)]⟩,
        idMap := ⟨[7]⟩ }
    ∃ o sorted, ResourceOrder.parse c.resourceOrder = .ok o ∧ o.sort rows = .ok sorted ∧
      sorted ~ rows ∧ (o.Uniform rows → Sorting.Sorted (fun a b => o.compare a b == .lt) sorted) ∧
      Describes c sorted inv := by
  intro rows c inv
  exact ofRows_describes (by decide +kernel)

/-- Rows whose order column mixes integers and text are numbered in an order that the
comparison contradicts: the row numbered first compares above the row numbered last. -/
theorem numbering_breaks_compare_order :
    let o : ResourceOrder := ⟨[⟨"x", false⟩]⟩
    let r1 : ResourceRow := { id := 1, state := .alive, labels := [("x", "2")] }
    let r2 : ResourceRow := { id := 2, state := .alive, labels := [("x", "10")] }
    let r3 : ResourceRow := { id := 3, state := .alive, labels := [("x", "1a")] }
    let c : Config := { hierarchyLabels := "", resourceOrder := "x" }
    ResourceOrder.parse c.resourceOrder = .ok o ∧
      (ofRows [r3, r1, r2] c).run.result.map (·.map (·.idMap.ids)) = .ok (.ok [3, 1, 2]) ∧
      o.compare r3 r2 = .gt := by
  refine ⟨by rfl, by decide +kernel, by decide⟩

end Inventory

end ClusterScheduler
