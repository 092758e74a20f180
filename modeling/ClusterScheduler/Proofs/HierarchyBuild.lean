import ClusterScheduler.Proofs.Grouping
import ClusterScheduler.Proofs.MatchWithin

/-!
# Building the hierarchy

A hierarchy is built label by label from the active rows. A label that some row has gives a
level whose groups are the rows' ids by value, arranged by lowest id; a label no row has is
refused when there are rows at all; a label met a second time stops the build with a fault.
The configuration steps run in `ExceptT ConfigError Logged`, read here through the result of
their run: a fault, a configuration error, or a value.
-/

namespace ClusterScheduler

/-! ## Configuration steps -/

namespace Logged

variable {ε α β : Type}

@[simp] theorem run_pure (a : α) : (pure a : ExceptT ε Logged α).run.result = .ok (.ok a) := rfl

@[simp] theorem run_liftM (r : Except ε α) : (liftM r : ExceptT ε Logged α).run.result = .ok r := rfl

@[simp] theorem run_throw (e : ε) : (throw e : ExceptT ε Logged α).run.result = .ok (.error e) := rfl

theorem run_liftFault (r : Except Fault α) :
    (liftM r : ExceptT ε Logged α).run.result = r.map .ok := by
  cases r <;> rfl

theorem eq_ok_of_run_liftFault {r : Except Fault α} {a : α}
    (h : (liftM r : ExceptT ε Logged α).run.result = .ok (.ok a)) : r = .ok a := by
  rw [run_liftFault] at h
  cases r <;> cases h
  rfl

theorem eq_error_of_run_liftFault {r : Except Fault α} {f : Fault}
    (h : (liftM r : ExceptT ε Logged α).run.result = .error f) : r = .error f := by
  rw [run_liftFault] at h
  cases r <;> cases h
  rfl

theorem run_liftFault_ne_error (r : Except Fault α) (e : ε) :
    (liftM r : ExceptT ε Logged α).run.result ≠ .ok (.error e) := by
  rw [run_liftFault]
  cases r <;> intro h <;> cases h

theorem run_bind (x : ExceptT ε Logged α) (f : α → ExceptT ε Logged β) :
    (x >>= f).run.result = (x.run >>= ExceptT.bindCont f).result := rfl

theorem run_bind_of_ok {x : ExceptT ε Logged α} {f : α → ExceptT ε Logged β} {a : α}
    (h : x.run.result = .ok (.ok a)) : (x >>= f).run.result = (f a).run.result := by
  rw [run_bind, result_bind_of_ok h]
  rfl

theorem run_bind_of_error {x : ExceptT ε Logged α} {f : α → ExceptT ε Logged β} {e : ε}
    (h : x.run.result = .ok (.error e)) : (x >>= f).run.result = .ok (.error e) := by
  rw [run_bind, result_bind_of_ok h]
  rfl

theorem run_bind_of_fault {x : ExceptT ε Logged α} {f : α → ExceptT ε Logged β} {e : Fault}
    (h : x.run.result = .error e) : (x >>= f).run.result = .error e := by
  rw [run_bind, result_bind, h]

theorem run_bind_eq_ok {x : ExceptT ε Logged α} {f : α → ExceptT ε Logged β} {b : β}
    (h : (x >>= f).run.result = .ok (.ok b)) :
    ∃ a, x.run.result = .ok (.ok a) ∧ (f a).run.result = .ok (.ok b) := by
  cases hx : x.run.result with
  | error e => rw [run_bind_of_fault hx] at h; cases h
  | ok r =>
    cases r with
    | error e => rw [run_bind_of_error hx] at h; cases h
    | ok a => exact ⟨a, rfl, by rwa [run_bind_of_ok hx] at h⟩

theorem run_bind_eq_error {x : ExceptT ε Logged α} {f : α → ExceptT ε Logged β} {e : ε}
    (h : (x >>= f).run.result = .ok (.error e)) :
    x.run.result = .ok (.error e) ∨ ∃ a, x.run.result = .ok (.ok a) ∧ (f a).run.result = .ok (.error e) := by
  cases hx : x.run.result with
  | error e' => rw [run_bind_of_fault hx] at h; cases h
  | ok r =>
    cases r with
    | error e' =>
      rw [run_bind_of_error hx] at h
      cases h
      exact .inl rfl
    | ok a => exact .inr ⟨a, rfl, by rwa [run_bind_of_ok hx] at h⟩

theorem run_bind_eq_fault {x : ExceptT ε Logged α} {f : α → ExceptT ε Logged β} {e : Fault}
    (h : (x >>= f).run.result = .error e) :
    x.run.result = .error e ∨ ∃ a, x.run.result = .ok (.ok a) ∧ (f a).run.result = .error e := by
  cases hx : x.run.result with
  | error e' =>
    rw [run_bind_of_fault hx] at h
    cases h
    exact .inl rfl
  | ok r =>
    cases r with
    | error e' => rw [run_bind_of_error hx] at h; cases h
    | ok a => exact .inr ⟨a, rfl, by rwa [run_bind_of_ok hx] at h⟩

end Logged

namespace Hierarchy

/-! ## One label -/

def levelOf (rows : List (Nat × ResourceRow)) (label : String) : Level :=
  ⟨some (arrange ((groupBy rows label).1.map toGroup)),
    decide ((groupBy rows label).2 = 0) && (groupBy rows label).1.all fun e => decide (e.2.length = 1)⟩

/-- A label's step refuses a label no row has, when there are rows, and otherwise adds its
level. -/
theorem addLabel_run (rows : List (Nat × ResourceRow)) (h : Hierarchy) (label : String) :
    (addLabel rows h label).run.result =
      if (!rows.isEmpty && (groupBy rows label).1.isEmpty) = true then .ok (.error (.unknownLabel label))
      else (h.addLevel label (levelOf rows label)).map .ok := by
  unfold addLabel
  split
  rename_i gs missing hg
  have hlevel : levelOf rows label = ⟨some (arrange (gs.map toGroup)),
      decide (missing = 0) && gs.all fun e => decide (e.2.length = 1)⟩ := by
    rw [levelOf, hg]
  rw [hg, hlevel]
  dsimp only
  split
  · rw [Logged.run_bind_of_error (Logged.run_throw _)]
  · split
    · rw [Logged.run_bind_of_ok rfl]
      exact Logged.run_liftFault _
    · exact Logged.run_liftFault _

theorem hasLevel_eq_false {h : Hierarchy} {name : String} :
    h.hasLevel name = false ↔ name ∉ h.levels.map (·.1) := by
  simp only [hasLevel, level?, Option.isSome_eq_false_iff, Option.isNone_iff_eq_none,
    List.lookup_eq_none_iff, bne_iff_ne, ne_eq, List.mem_map, not_exists, not_and]
  exact ⟨fun H e he hname => H e he hname.symm, fun H e he hname => H e he hname.symm⟩

theorem addLevel_ok {h h' : Hierarchy} {name : String} {lv : Level}
    (hadd : h.addLevel name lv = .ok h') :
    name ∉ h.levels.map (·.1) ∧ h'.levels = h.levels ++ [(name, lv)] := by
  unfold addLevel at hadd
  split at hadd
  · cases hadd
  · rename_i hnew
    cases hadd
    exact ⟨hasLevel_eq_false.1 (by simpa using hnew), rfl⟩

theorem addLevel_error {h : Hierarchy} {name : String} {lv : Level} {f : Fault}
    (hadd : h.addLevel name lv = .error f) : f = .levelExists name ∧ name ∈ h.levels.map (·.1) := by
  unfold addLevel at hadd
  split at hadd
  · rename_i hold
    cases hadd
    refine ⟨rfl, ?_⟩
    by_contra hnot
    rw [← hasLevel_eq_false] at hnot
    rw [hnot] at hold
    cases hold
  · cases hadd

variable {rows : List (Nat × ResourceRow)} {h : Hierarchy} {label : String}

theorem addLabel_ok {h' : Hierarchy} (hrun : (addLabel rows h label).run.result = .ok (.ok h')) :
    label ∉ h.levels.map (·.1) ∧ h'.levels = h.levels ++ [(label, levelOf rows label)] := by
  rw [addLabel_run] at hrun
  split at hrun
  · cases hrun
  · cases hadd : h.addLevel label (levelOf rows label) with
    | error f => rw [hadd] at hrun; cases hrun
    | ok h'' =>
      rw [hadd] at hrun
      cases hrun
      exact addLevel_ok hadd

theorem addLabel_fault {f : Fault} (hrun : (addLabel rows h label).run.result = .error f) :
    f = .levelExists label ∧ label ∈ h.levels.map (·.1) := by
  rw [addLabel_run] at hrun
  split at hrun
  · cases hrun
  · cases hadd : h.addLevel label (levelOf rows label) with
    | ok h'' => rw [hadd] at hrun; cases hrun
    | error f' =>
      rw [hadd] at hrun
      cases hrun
      exact addLevel_error hadd

theorem addLabel_error {e : ConfigError}
    (hrun : (addLabel rows h label).run.result = .ok (.error e)) :
    e = .unknownLabel label ∧ rows ≠ [] ∧ (groupBy rows label).1 = [] := by
  rw [addLabel_run] at hrun
  split at hrun
  · rename_i hunknown
    cases hrun
    simp only [Bool.and_eq_true, Bool.not_eq_true', List.isEmpty_eq_false_iff,
      List.isEmpty_iff] at hunknown
    exact ⟨rfl, hunknown⟩
  · cases hadd : h.addLevel label (levelOf rows label) with
    | error f => rw [hadd] at hrun; cases hrun
    | ok h'' => rw [hadd] at hrun; cases hrun

/-! ## All labels -/

theorem foldlM_addLabel_ok (rows : List (Nat × ResourceRow)) :
    ∀ (labels : List String) (h₀ h : Hierarchy),
      (h₀.levels.map (·.1)).Nodup →
      ((labels.foldlM (addLabel rows) h₀ : ExceptT ConfigError Logged Hierarchy)).run.result =
        .ok (.ok h) →
      h.levels = h₀.levels ++ labels.map (fun l => (l, levelOf rows l)) ∧
        (h₀.levels.map (·.1) ++ labels).Nodup
  | [], h₀, h, hnd, hrun => by
    simp only [List.foldlM_nil, Logged.run_pure, Except.ok.injEq] at hrun
    subst hrun
    simpa using hnd
  | l :: rest, h₀, h, hnd, hrun => by
    rw [List.foldlM_cons] at hrun
    obtain ⟨h₁, h₁run, hrun⟩ := Logged.run_bind_eq_ok hrun
    obtain ⟨hnew, hlevels⟩ := addLabel_ok h₁run
    have hnd₁ : (h₁.levels.map (·.1)).Nodup := by
      rw [hlevels, List.map_append, List.nodup_append]
      exact ⟨hnd, List.nodup_singleton _, fun a ha b hb hab => hnew (by simp_all)⟩
    obtain ⟨hh, hnd'⟩ := foldlM_addLabel_ok rows rest h₁ h hnd₁ hrun
    refine ⟨by rw [hh, hlevels]; simp, ?_⟩
    rw [hlevels, List.map_append, List.append_assoc] at hnd'
    exact hnd'

theorem foldlM_addLabel_fault (rows : List (Nat × ResourceRow)) :
    ∀ (labels : List String) (h₀ : Hierarchy) (f : Fault),
      ((labels.foldlM (addLabel rows) h₀ : ExceptT ConfigError Logged Hierarchy)).run.result =
        .error f →
      ∃ l, f = .levelExists l ∧ 2 ≤ (h₀.levels.map (·.1) ++ labels).count l
  | [], h₀, f, hrun => by
    simp only [List.foldlM_nil, Logged.run_pure] at hrun
    cases hrun
  | l :: rest, h₀, f, hrun => by
    rw [List.foldlM_cons] at hrun
    cases h₁run : (addLabel rows h₀ l).run.result with
    | error f' =>
      -- the label's own step stopped: its name was taken
      rw [Logged.run_bind_of_fault h₁run] at hrun
      cases hrun
      obtain ⟨rfl, hmem⟩ := addLabel_fault h₁run
      refine ⟨l, rfl, ?_⟩
      rw [List.count_append, List.count_cons_self]
      have := List.count_pos_iff.2 hmem
      omega
    | ok r =>
      cases r with
      | error e => rw [Logged.run_bind_of_error h₁run] at hrun; cases hrun
      | ok h₁ =>
        -- a later step stopped, on a name taken by then
        rw [Logged.run_bind_of_ok h₁run] at hrun
        obtain ⟨l', rfl, hcount⟩ := foldlM_addLabel_fault rows rest h₁ f hrun
        refine ⟨l', rfl, ?_⟩
        rw [(addLabel_ok h₁run).2, List.map_append, List.append_assoc] at hcount
        simpa using hcount

theorem foldlM_addLabel_error (rows : List (Nat × ResourceRow)) :
    ∀ (labels : List String) (h₀ : Hierarchy) (e : ConfigError),
      ((labels.foldlM (addLabel rows) h₀ : ExceptT ConfigError Logged Hierarchy)).run.result =
        .ok (.error e) →
      ∃ l ∈ labels, e = .unknownLabel l ∧ rows ≠ [] ∧ (groupBy rows l).1 = []
  | [], h₀, e, hrun => by
    simp only [List.foldlM_nil, Logged.run_pure] at hrun
    cases hrun
  | l :: rest, h₀, e, hrun => by
    rw [List.foldlM_cons] at hrun
    cases h₁run : (addLabel rows h₀ l).run.result with
    | error f => rw [Logged.run_bind_of_fault h₁run] at hrun; cases hrun
    | ok r =>
      cases r with
      | error e' =>
        rw [Logged.run_bind_of_error h₁run] at hrun
        cases hrun
        exact ⟨l, List.mem_cons_self, addLabel_error h₁run⟩
      | ok h₁ =>
        rw [Logged.run_bind_of_ok h₁run] at hrun
        obtain ⟨l', hl', he⟩ := foldlM_addLabel_error rows rest h₁ e hrun
        exact ⟨l', List.mem_cons_of_mem _ hl', he⟩

theorem lookup_map_of_mem {labels : List String} {f : String → Level} {l : String}
    (hl : l ∈ labels) : (labels.map fun k => (k, f k)).lookup l = some (f l) := by
  induction labels with
  | nil => cases hl
  | cons k rest ih =>
    rw [List.map_cons, List.lookup_cons]
    by_cases hlk : l = k
    · subst hlk
      simp
    · have hbeq : (l == k) = false := by simpa using hlk
      rw [hbeq]
      exact ih ((List.mem_cons.1 hl).resolve_left hlk)

theorem levelOf_unit (rows : List (Nat × ResourceRow)) (label : String) :
    (levelOf rows label).unit = true ↔
      (∀ p ∈ rows, (p.2.value label).isSome) ∧ ∀ e ∈ (groupBy rows label).1, e.2.length = 1 := by
  simp only [levelOf, Bool.and_eq_true, decide_eq_true_eq, List.all_eq_true]
  rw [(groupBy_spec rows label).2, List.countP_eq_zero]
  simp [Option.isNone_iff_eq_none, ← Option.ne_none_iff_isSome]

theorem build_ok {rows : List (Nat × ResourceRow)} {labels : List String} {hier : Hierarchy}
    (hrun : (build rows labels).run.result = .ok (.ok hier)) :
    hier.levels = labels.map (fun l => (l, levelOf rows l)) ∧ labels.Nodup := by
  have := foldlM_addLabel_ok rows labels {} hier List.nodup_nil hrun
  simpa using this

theorem level?_of_build {rows : List (Nat × ResourceRow)} {labels : List String} {hier : Hierarchy}
    (hrun : (build rows labels).run.result = .ok (.ok hier)) {l : String} (hl : l ∈ labels) :
    hier.level? l = some (levelOf rows l) := by
  rw [level?, (build_ok hrun).1]
  exact lookup_map_of_mem hl

theorem levelOf_unit_iff {rows : List (Nat × ResourceRow)} {label : String}
    (hids : ((labelled rows label).map (·.1)).Nodup) :
    (levelOf rows label).unit = true ↔
      (∀ p ∈ rows, (p.2.value label).isSome) ∧
      ∀ g ∈ arrange ((groupBy rows label).1.map toGroup), g.resources.card = 1 := by
  have hgroups := (groupBy_spec rows label).1
  rw [levelOf_unit]
  refine and_congr_right fun _ => ⟨fun hone g hg => ?_, fun hone e he => ?_⟩
  · obtain ⟨e, he, rfl⟩ := List.mem_map.1 ((arrange_perm hgroups).subset hg)
    rw [toGroup, IdSet.card_eq_of_mem_iff (hgroups.ids_nodup hids e he) fun x => IdSet.mem_ofIds]
    exact hone e he
  · have hcard := hone (toGroup e) ((arrange_perm hgroups).symm.subset (List.mem_map_of_mem he))
    rwa [toGroup, IdSet.card_eq_of_mem_iff (hgroups.ids_nodup hids e he) fun x => IdSet.mem_ofIds]
      at hcard

end Hierarchy
end ClusterScheduler
