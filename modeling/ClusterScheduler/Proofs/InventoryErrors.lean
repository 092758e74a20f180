import ClusterScheduler.Proofs.InventoryTally

/-!
# Problems with the configuration or the rows

Building the inventory refuses a malformed order clause, an id given twice and a label that no
active row has; those are configuration errors. It stops on a fault only when the sort finds
the comparison inconsistent or a hierarchy label comes twice, so with distinct labels and key
columns that do not mix integers and text every problem is an error.
-/

namespace ClusterScheduler

open scoped List

theorem except_bind_eq_error {ε α β : Type} {x : Except ε α} {f : α → Except ε β} {e : ε}
    (h : (x >>= f) = .error e) : x = .error e ∨ ∃ a, x = .ok a ∧ f a = .error e := by
  cases x with
  | error e' => cases h; exact .inl rfl
  | ok a => exact .inr ⟨a, rfl, h⟩

namespace ResourceOrder

theorem mapM_error {α β ε : Type} {f : α → Except ε β} {e : ε} :
    ∀ {l : List α}, l.mapM f = .error e → ∃ a ∈ l, f a = .error e
  | [], h => by cases h
  | a :: l, h => by
    rw [List.mapM_cons] at h
    cases ha : f a with
    | error e' =>
      rw [ha] at h
      cases h
      exact ⟨a, List.mem_cons_self, ha⟩
    | ok b =>
      rw [ha] at h
      cases hl : l.mapM f with
      | error e' =>
        rw [hl] at h
        cases h
        obtain ⟨a', ha', hfa⟩ := mapM_error hl
        exact ⟨a', List.mem_cons_of_mem _ ha', hfa⟩
      | ok bs => rw [hl] at h; cases h

theorem parse_error {clause : String} {e : ConfigError} (h : parse clause = .error e) :
    e = .invalidOrder clause := by
  unfold parse at h
  rcases except_bind_eq_error h with hkeys | ⟨keys, -, hpure⟩
  · obtain ⟨t, -, ht⟩ := mapM_error hkeys
    split at ht
    · cases ht
    · cases ht
      rfl
  · cases hpure

end ResourceOrder

namespace Inventory

theorem ofRows_fault {rows : List ResourceRow} {c : Config} {f : Fault}
    (h : (ofRows rows c).run.result = .error f) :
    (∃ o, ResourceOrder.parse c.resourceOrder = .ok o ∧ o.sort rows = .error f) ∨
      ∃ l, f = .levelExists l ∧ 2 ≤ c.labelList.count l := by
  unfold ofRows at h
  rcases Logged.run_bind_eq_fault h with hp | ⟨o, hp, h⟩
  · simp at hp
  simp only [Logged.run_liftM, Except.ok.injEq] at hp
  rcases Logged.run_bind_eq_fault h with hs | ⟨sorted, -, h⟩
  · exact .inl ⟨o, hp, Logged.eq_error_of_run_liftFault hs⟩
  rcases Logged.run_bind_eq_fault h with hm | ⟨m, -, h⟩
  · simp at hm
  rcases Logged.run_bind_eq_fault h with hb | ⟨hier, -, h⟩
  · right
    simpa using Hierarchy.foldlM_addLabel_fault _ c.labelList {} f hb
  · simp at h

theorem ofRows_error {rows : List ResourceRow} {c : Config} {e : ConfigError}
    (h : (ofRows rows c).run.result = .ok (.error e)) :
    e = .invalidOrder c.resourceOrder ∨
      (∃ d, e = .duplicateResource d ∧ 2 ≤ (rows.map (·.id)).count d) ∨
      ∃ l ∈ c.labelList, e = .unknownLabel l ∧ (∃ r ∈ rows, r.state.isActive) ∧
        ∀ r ∈ rows, r.state.isActive → r.value l = none := by
  unfold ofRows at h
  rcases Logged.run_bind_eq_error h with hp | ⟨o, hp, h⟩
  · simp only [Logged.run_liftM, Except.ok.injEq] at hp
    exact .inl (ResourceOrder.parse_error hp)
  rcases Logged.run_bind_eq_error h with hs | ⟨sorted, hs, h⟩
  · -- the sort does not refuse, it stops on a fault or returns
    exact absurd hs (Logged.run_liftFault_ne_error _ e)
  have hperm : sorted ~ rows := Sorting.sortBy_perm (Logged.eq_ok_of_run_liftFault hs)
  rcases Logged.run_bind_eq_error h with hm | ⟨m, -, h⟩
  · -- an id given twice
    simp only [Logged.run_liftM, Except.ok.injEq] at hm
    obtain ⟨d, rfl, hd⟩ := IdMap.ofList_error hm
    exact .inr (.inl ⟨d, rfl, (hperm.map _).count_eq d ▸ hd⟩)
  rcases Logged.run_bind_eq_error h with hb | ⟨hier, -, h⟩
  · -- a label of no active row
    have hact : (tallyRows c.suspendableTypeList sorted).active = activeRows sorted :=
      (tallyRows_spec c.suspendableTypeList sorted).active
    have hb' : (Hierarchy.build (activeRows sorted) c.labelList).run.result = .ok (.error e) := by
      rw [← hact]
      exact hb
    obtain ⟨l, hl, rfl, hne, hnone⟩ := Hierarchy.foldlM_addLabel_error _ c.labelList {} e hb'
    refine .inr (.inr ⟨l, hl, rfl, ?_, fun r hr hract => ?_⟩)
    · obtain ⟨p, hp⟩ := List.exists_mem_of_ne_nil _ hne
      obtain ⟨hpx, hpact⟩ := mem_activeRows.1 hp
      exact ⟨p.2, hperm.subset (List.mem_of_getElem? hpx), hpact⟩
    · -- a value would have opened a group
      obtain ⟨x, hx⟩ := List.getElem?_of_mem (hperm.symm.subset hr)
      cases hv : r.value l with
      | none => rfl
      | some v =>
        have hmem : (x, v) ∈ Hierarchy.labelled (activeRows sorted) l :=
          mem_labelled_activeRows.2 ⟨r, hx, hract, hv⟩
        obtain ⟨g, hg, -⟩ := (Hierarchy.groupBy_spec (activeRows sorted) l).1.complete _ hmem
        rw [hnone] at hg
        cases hg
  · simp at h

/-- With distinct hierarchy labels and an order whose key columns do not mix integers and
text, building the inventory never stops on a fault: it ends with an inventory, or refuses the
configuration for a malformed order clause, an id given twice, or a label that no active row
has while some row is active. -/
theorem ofRows_reports_problems_as_errors {rows : List ResourceRow} {c : Config}
    (hlabels : c.labelList.Nodup)
    (horder : ∀ o, ResourceOrder.parse c.resourceOrder = .ok o → o.Uniform rows) :
    (∃ inv, (ofRows rows c).run.result = .ok (.ok inv)) ∨
      ∃ e, (ofRows rows c).run.result = .ok (.error e) ∧
        (e = .invalidOrder c.resourceOrder ∨
          (∃ d, e = .duplicateResource d ∧ 2 ≤ (rows.map (·.id)).count d) ∨
          ∃ l ∈ c.labelList, e = .unknownLabel l ∧ (∃ r ∈ rows, r.state.isActive) ∧
            ∀ r ∈ rows, r.state.isActive → r.value l = none) := by
  cases hrun : (ofRows rows c).run.result with
  | error f =>
    exfalso
    rcases ofRows_fault hrun with ⟨o, ho, hs⟩ | ⟨l, -, hl⟩
    · obtain ⟨sorted, hs', -⟩ := ResourceOrder.sort_sorts (horder o ho)
      rw [hs] at hs'
      cases hs'
    · have := List.nodup_iff_count_le_one.1 hlabels l
      omega
  | ok r =>
    cases r with
    | ok inv => exact .inl ⟨inv, rfl⟩
    | error e => exact .inr ⟨e, rfl, ofRows_error hrun⟩

theorem ofRows_reports_problems_as_errors_one_row :
    let rows : List ResourceRow := [{ id := 7, state := .alive }]
    let c : Config := { hierarchyLabels := "resource_id" }
    (∃ inv, (ofRows rows c).run.result = .ok (.ok inv)) ∨
      ∃ e, (ofRows rows c).run.result = .ok (.error e) ∧
        (e = .invalidOrder c.resourceOrder ∨
          (∃ d, e = .duplicateResource d ∧ 2 ≤ (rows.map (·.id)).count d) ∨
          ∃ l ∈ c.labelList, e = .unknownLabel l ∧ (∃ r ∈ rows, r.state.isActive) ∧
            ∀ r ∈ rows, r.state.isActive → r.value l = none) := by
  intro rows c
  refine ofRows_reports_problems_as_errors (by decide +kernel) fun o ho => ?_
  have hparse : ResourceOrder.parse c.resourceOrder = .ok ⟨[⟨"resource_id", false⟩]⟩ := by
    decide +kernel
  rw [hparse, Except.ok.injEq] at ho
  subst ho
  intro k hk
  simp only [List.mem_singleton] at hk
  subst hk
  refine Or.inl fun r hr v hv => ?_
  simp only [rows, List.mem_singleton] at hr
  subst hr
  simp only [ResourceRow.value, Option.some.injEq] at hv
  subst hv
  decide

/-- A label given twice stops the build on a fault, and so does a sort that finds an order
column mixing integers and text inconsistent: neither is reported as a configuration error. -/
theorem repeated_label_or_mixed_order_faults :
    let vals := ["2", "1a", "1a", "2", "10", "1a", "10", "1a", "1a", "2", "1a", "2", "10", "10",
      "1a", "2", "2", "1a", "10", "1a", "1a"]
    let rows : List ResourceRow :=
      vals.zipIdx.map fun p => { id := p.2 + 1, state := .alive, labels := [("x", p.1)] }
    (ofRows [{ id := 1, state := .alive }] { hierarchyLabels := "resource_id,resource_id" }).run.result =
        .error (.levelExists "resource_id") ∧
      (ofRows rows { hierarchyLabels := "", resourceOrder := "x" }).run.result =
        .error .orderViolation := by
  refine ⟨by decide +kernel, by decide +kernel⟩

end Inventory

end ClusterScheduler
