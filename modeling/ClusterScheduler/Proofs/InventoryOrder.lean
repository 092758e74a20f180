import ClusterScheduler.Proofs.SortCorrect
import ClusterScheduler.Proofs.RowOrder
import ClusterScheduler.Inventory
import Mathlib.Data.List.Nodup

/-!
# The inventory does not depend on how its rows are listed

On rows where no key's column mixes integers and text, comparing below is a strict weak order,
and a total one when the ids are distinct. The sort then returns the one sorted permutation of
the rows, and the inventory, which sees the rows only through the sorted rows, is the same for
every listing of them. A column that mixes the two kinds breaks transitivity, and then the
numbering follows the listing (`mixed_column_order_cycles`).
-/

namespace ClusterScheduler

open scoped List

theorem liftM_ok_bind {ε α β : Type} (a : α) (f : α → ExceptT ε Logged β) :
    (liftM (Except.ok a : Except ε α) >>= f : ExceptT ε Logged β) = f a := by
  show (⟨#[] ++ (f a).notices, (f a).result⟩ : Logged (Except ε β)) = f a
  rw [Array.empty_append]
  rfl

namespace ResourceOrder

variable {o : ResourceOrder} {rows : List ResourceRow}

theorem strictWeakOn_compare (hu : o.Uniform rows) :
    Sorting.StrictWeakOn (fun a b => o.compare a b == .lt) (· ∈ rows) := by
  obtain ⟨cmp, hcmp, heq⟩ := compare_uniform hu
  -- not below the other way round is not above
  have hnot : ∀ {a b}, a ∈ rows → b ∈ rows → ((o.compare b a == .lt) = false ↔ cmp a b ≠ .gt) := by
    intro a b ha hb
    rw [heq b hb a ha, Ne, Std.OrientedCmp.gt_iff_lt]
    simp
  refine ⟨fun {a} _ => by simp [compare_self], fun ha hb hc hab hbc => ?_, fun ha hb hc hba hcb => ?_⟩
  · simp only [beq_iff_eq] at hab hbc ⊢
    exact compare_trans hu ha hb hc hab hbc
  · exact (hnot ha hc).2 (Std.TransCmp.le_trans ((hnot ha hb).1 hba) ((hnot hb hc).1 hcb))

theorem eq_of_not_lt (hids : (rows.map (·.id)).Nodup) {a b : ResourceRow} (ha : a ∈ rows)
    (hb : b ∈ rows) (hab : (o.compare a b == .lt) = false) (hba : (o.compare b a == .lt) = false) :
    a = b := by
  have heq : o.compare a b = .eq := by
    rw [compare_swap o a b] at hba
    cases h : o.compare a b <;> simp_all
  exact List.inj_on_of_nodup_map hids ha hb (id_eq_of_compare_eq heq)

theorem sort_sorts (hu : o.Uniform rows) :
    ∃ sorted, o.sort rows = .ok sorted ∧ sorted ~ rows ∧
      Sorting.Sorted (fun a b => o.compare a b == .lt) sorted :=
  Sorting.sortBy_sorts (strictWeakOn_compare hu) fun _ h => h

theorem sort_eq_of_perm {rows' : List ResourceRow} (hu : o.Uniform rows)
    (hids : (rows.map (·.id)).Nodup) (hperm : rows ~ rows') : o.sort rows = o.sort rows' :=
  Sorting.sortBy_eq_of_perm (strictWeakOn_compare hu) (fun _ h => h)
    (fun _ _ ha hb hab hba => eq_of_not_lt hids ha hb hab hba) hperm

end ResourceOrder

namespace Inventory

theorem ofRows_congr {rows rows' : List ResourceRow} {c : Config}
    (hsort : ∀ o, ResourceOrder.parse c.resourceOrder = .ok o → o.sort rows = o.sort rows') :
    ofRows rows c = ofRows rows' c := by
  unfold ofRows
  cases hp : ResourceOrder.parse c.resourceOrder with
  | error e => rfl
  | ok o => rw [liftM_ok_bind, liftM_ok_bind, hsort o hp]

/-- For the configured order, on rows with distinct ids where no key's column mixes integers and
text: the comparison turns round with its arguments, says equal only of one row, and is
transitive, and the inventory is the same whichever way the rows are listed. -/
theorem order_total_and_inventory_listing_free {c : Config} {o : ResourceOrder}
    {rows rows' : List ResourceRow} (ho : ResourceOrder.parse c.resourceOrder = .ok o)
    (hu : o.Uniform rows) (hids : (rows.map (·.id)).Nodup) (hperm : rows ~ rows') :
    (∀ a b, o.compare b a = (o.compare a b).swap) ∧
    (∀ a ∈ rows, ∀ b ∈ rows, o.compare a b = .eq ↔ a.id = b.id) ∧
    (∀ a ∈ rows, ∀ b ∈ rows, ∀ d ∈ rows,
      o.compare a b = .lt → o.compare b d = .lt → o.compare a d = .lt) ∧
    ofRows rows c = ofRows rows' c := by
  refine ⟨ResourceOrder.compare_swap o, fun a ha b hb => ⟨ResourceOrder.id_eq_of_compare_eq, fun hid => ?_⟩,
    fun a ha b hb d hd => ResourceOrder.compare_trans hu ha hb hd, ofRows_congr fun o' ho' => ?_⟩
  · rw [List.inj_on_of_nodup_map hids ha hb hid]
    exact ResourceOrder.compare_self o b
  · rw [ho, Except.ok.injEq] at ho'
    subst ho'
    exact ResourceOrder.sort_eq_of_perm hu hids hperm

theorem order_total_and_inventory_listing_free_two_rows :
    ofRows [{ id := 1, state := .alive }, { id := 2, state := .alive }] {} =
      ofRows [{ id := 2, state := .alive }, { id := 1, state := .alive }] {} :=
  (order_total_and_inventory_listing_free (o := ⟨[⟨"resource_id", false⟩]⟩) (by rfl)
    (by
      intro k hk
      simp only [List.mem_singleton] at hk
      subst hk
      refine Or.inl fun r hr v hv => ?_
      simp only [List.mem_cons, List.not_mem_nil, or_false] at hr
      rcases hr with rfl | rfl <;>
        · simp only [ResourceRow.value, Option.some.injEq] at hv
          subst hv
          decide)
    (by decide) (List.Perm.swap _ _ _)).2.2.2

/-- A column mixing integers and text: `2 < 10` as integers, `"10" < "1a"` and `"1a" < "2"` as
text. The three rows compare in a cycle, and the numbering follows the listing. -/
theorem mixed_column_order_cycles :
    let o : ResourceOrder := ⟨[⟨"x", false⟩]⟩
    let r1 : ResourceRow := { id := 1, state := .alive, labels := [("x", "2")] }
    let r2 : ResourceRow := { id := 2, state := .alive, labels := [("x", "10")] }
    let r3 : ResourceRow := { id := 3, state := .alive, labels := [("x", "1a")] }
    let c : Config := { hierarchyLabels := "", resourceOrder := "x" }
    ResourceOrder.parse c.resourceOrder = .ok o ∧
      o.compare r1 r2 = .lt ∧ o.compare r2 r3 = .lt ∧ o.compare r1 r3 = .gt ∧
      (ofRows [r1, r2, r3] c).run.result.map (·.map (·.idMap.ids)) = .ok (.ok [1, 2, 3]) ∧
      (ofRows [r3, r1, r2] c).run.result.map (·.map (·.idMap.ids)) = .ok (.ok [3, 1, 2]) := by
  refine ⟨by rfl, by decide, by decide, by decide, by decide +kernel, by decide +kernel⟩

end Inventory

end ClusterScheduler
