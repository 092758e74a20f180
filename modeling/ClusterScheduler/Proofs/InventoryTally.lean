import ClusterScheduler.Proofs.HierarchyBuild
import ClusterScheduler.Proofs.InventoryOrder

/-!
# Tallying the numbered rows

The inventory numbers the sorted rows by position and tallies them in one pass: the rows that
are not dead are counted, and the active ones give the default and suspendable resources, the
times after which they leave, and the rows the hierarchy is built from. `TallyOf` says what the
tally of a list of numbered rows holds; counting one row more keeps it, so the tally of all rows
holds it. A build that ends well is this tally with the numbering and the hierarchy.
-/

namespace ClusterScheduler

open scoped List

namespace Inventory

def numbered (sorted : List ResourceRow) : List (Nat × ResourceRow) :=
  sorted.zipIdx.map fun p => (p.2, p.1)

def leaveTime (r : ResourceRow) : Option Int :=
  if r.state.isActive then r.availableUpto.filter fun u => decide (0 < u) else none

def leavers (rows : List (Nat × ResourceRow)) : List (Nat × Int) :=
  rows.filterMap fun p => (leaveTime p.2).map fun u => (p.1, u)

/-- What the tally of the numbered rows `rows` holds. -/
structure TallyOf (types : List String) (rows : List (Nat × ResourceRow)) (t : Tally) : Prop where
  notDead : t.notDead = rows.countP fun p => p.2.state ≠ .dead
  defaultNotDead : t.defaultNotDead = rows.countP fun p => p.2.state ≠ .dead ∧ p.2.type = "default"
  active : t.active = rows.filter fun p => p.2.state.isActive
  defaults : t.defaults = (rows.filter fun p => p.2.state.isActive ∧ p.2.type = "default").map (·.1)
  suspendable : t.suspendable =
    (rows.filter fun p => p.2.state.isActive ∧ p.2.type ∈ types).map (·.1)
  leaving : GroupsOf (leavers rows) t.leaving
  ascending : (t.leaving.map (·.1)).Pairwise (· < ·)

theorem TallyOf.nil (types : List String) : TallyOf types [] {} :=
  ⟨rfl, rfl, rfl, rfl, rfl, GroupsOf.nil, List.Pairwise.nil⟩

theorem tally_leaving (types : List String) (t : Tally) (i : Nat) (r : ResourceRow) :
    (tally types t (i, r)).leaving = ((leaveTime r).map fun u => addLeaving u i t.leaving).getD t.leaving := by
  cases hs : r.state <;> cases hu : r.availableUpto <;>
    simp [tally, leaveTime, hs, hu, ResourceState.isActive, Option.filter] <;> split <;> rfl

theorem TallyOf.step {types : List String} {rows : List (Nat × ResourceRow)} {t : Tally}
    (h : TallyOf types rows t) (i : Nat) (r : ResourceRow) :
    TallyOf types (rows ++ [(i, r)]) (tally types t (i, r)) := by
  refine ⟨?_, ?_, ?_, ?_, ?_, ?_, ?_⟩
  · rw [List.countP_append, ← h.notDead]
    cases hs : r.state <;> simp [tally, hs, ResourceState.isActive]
  · rw [List.countP_append, ← h.defaultNotDead]
    cases hs : r.state <;> simp [tally, hs, ResourceState.isActive] <;> split <;> simp_all
  · rw [List.filter_append, ← h.active]
    cases hs : r.state <;> simp [tally, hs, ResourceState.isActive]
  · rw [List.filter_append, List.map_append, ← h.defaults]
    cases hs : r.state <;> simp [tally, hs, ResourceState.isActive] <;> split <;> simp_all
  · rw [List.filter_append, List.map_append, ← h.suspendable]
    cases hs : r.state <;> simp [tally, hs, ResourceState.isActive] <;> split <;> simp_all
  · rw [tally_leaving]
    cases hl : leaveTime r with
    | none =>
      have : leavers (rows ++ [(i, r)]) = leavers rows := by simp [leavers, hl]
      rw [this]
      exact h.leaving
    | some u =>
      have : leavers (rows ++ [(i, r)]) = leavers rows ++ [(i, u)] := by simp [leavers, hl]
      rw [this]
      exact addLeaving_groups h.leaving h.ascending
  · rw [tally_leaving]
    cases leaveTime r with
    | none => exact h.ascending
    | some u => exact addLeaving_sorted h.ascending

def tallyRows (types : List String) (sorted : List ResourceRow) : Tally :=
  sorted.zipIdx.foldl (fun t p => tally types t (p.2, p.1)) {}

theorem tallyRows_spec (types : List String) (sorted : List ResourceRow) :
    TallyOf types (numbered sorted) (tallyRows types sorted) := by
  induction sorted using List.reverseRecOn with
  | nil => exact TallyOf.nil types
  | append_singleton rows r ih =>
    have hnum : numbered (rows ++ [r]) = numbered rows ++ [(rows.length, r)] := by
      simp [numbered, List.zipIdx_append]
    have hfold : tallyRows types (rows ++ [r]) = tally types (tallyRows types rows) (rows.length, r) := by
      simp [tallyRows, List.zipIdx_append]
    rw [hnum, hfold]
    exact ih.step rows.length r

theorem mem_numbered {sorted : List ResourceRow} {x : Nat} {r : ResourceRow} :
    (x, r) ∈ numbered sorted ↔ sorted[x]? = some r := by
  simp only [numbered, List.mem_map, List.mem_zipIdx_iff_getElem?]
  constructor
  · rintro ⟨p, hp, hpx⟩
    obtain ⟨rfl, rfl⟩ := Prod.mk.inj hpx
    exact hp
  · intro hx
    exact ⟨(r, x), hx, rfl⟩

theorem numbered_ids (sorted : List ResourceRow) :
    (numbered sorted).map (·.1) = List.range sorted.length := by
  simp [numbered, List.map_map, Function.comp_def, List.zipIdx_map_snd, List.range_eq_range']

def activeRows (sorted : List ResourceRow) : List (Nat × ResourceRow) :=
  (numbered sorted).filter fun p => p.2.state.isActive

section Numbered

variable {sorted : List ResourceRow}

theorem countP_numbered (p : ResourceRow → Bool) :
    (numbered sorted).countP (fun q => p q.2) = sorted.countP p := by
  have h := List.countP_map (p := p) (f := Prod.fst) (l := sorted.zipIdx)
  rw [List.zipIdx_map_fst] at h
  rw [h, numbered, List.countP_map]
  rfl

theorem mem_ids_numbered {P : ResourceRow → Prop} [DecidablePred P] {x : Nat} :
    x ∈ ((numbered sorted).filter fun q => decide (P q.2)).map (·.1) ↔
      ∃ r, sorted[x]? = some r ∧ P r := by
  simp only [List.mem_map, List.mem_filter, decide_eq_true_eq]
  constructor
  · rintro ⟨⟨y, r⟩, ⟨hmem, hP⟩, rfl⟩
    exact ⟨r, mem_numbered.1 hmem, hP⟩
  · rintro ⟨r, hr, hP⟩
    exact ⟨(x, r), ⟨mem_numbered.2 hr, hP⟩, rfl⟩

theorem mem_leavers {x : Nat} {u : Int} :
    (x, u) ∈ leavers (numbered sorted) ↔
      ∃ r, sorted[x]? = some r ∧ r.state.isActive ∧ r.availableUpto = some u ∧ 0 < u := by
  simp only [leavers, List.mem_filterMap, Option.map_eq_some_iff, Prod.mk.injEq]
  constructor
  · rintro ⟨⟨y, r⟩, hmem, u', hu', rfl, rfl⟩
    refine ⟨r, mem_numbered.1 hmem, ?_⟩
    simp only [leaveTime] at hu'
    split at hu'
    · rename_i hact
      simp only [Option.filter_eq_some_iff, decide_eq_true_eq] at hu'
      exact ⟨hact, hu'⟩
    · cases hu'
  · rintro ⟨r, hr, hact, hu, hpos⟩
    refine ⟨(x, r), mem_numbered.2 hr, u, ?_, rfl, rfl⟩
    simp [leaveTime, hact, hu, hpos]

theorem mem_labelled_activeRows {l : String} {x : Nat} {v : String} :
    (x, v) ∈ Hierarchy.labelled (activeRows sorted) l ↔
      ∃ r, sorted[x]? = some r ∧ r.state.isActive ∧ r.value l = some v := by
  simp only [Hierarchy.labelled, activeRows, List.mem_filterMap, List.mem_filter,
    Option.map_eq_some_iff, Prod.mk.injEq]
  constructor
  · rintro ⟨⟨y, r⟩, ⟨hmem, hact⟩, v', hv, rfl, rfl⟩
    exact ⟨r, mem_numbered.1 hmem, hact, hv⟩
  · rintro ⟨r, hr, hact, hv⟩
    exact ⟨(x, r), ⟨mem_numbered.2 hr, hact⟩, v, hv, rfl, rfl⟩

theorem mem_activeRows {p : Nat × ResourceRow} :
    p ∈ activeRows sorted ↔ sorted[p.1]? = some p.2 ∧ p.2.state.isActive := by
  rw [activeRows, List.mem_filter, ← mem_numbered]

theorem labelled_ids_nodup (l : String) :
    ((Hierarchy.labelled (activeRows sorted) l).map (·.1)).Nodup := by
  have hsub : ((Hierarchy.labelled (activeRows sorted) l).map (·.1)).Sublist
      ((activeRows sorted).map (·.1)) := by
    simp only [Hierarchy.labelled]
    induction activeRows sorted with
    | nil => exact List.Sublist.slnil
    | cons p rest ih =>
      rw [List.filterMap_cons]
      cases p.2.value l with
      | none => exact ih.cons _
      | some v => exact ih.cons_cons _
  refine (hsub.trans ((List.filter_sublist).map _)).nodup ?_
  rw [numbered_ids]
  exact List.nodup_range

end Numbered

def Tally.inventory (t : Tally) (hierarchy : Hierarchy) (idMap : IdMap) : Inventory :=
  { notDead := t.notDead, defaultNotDead := t.defaultNotDead,
    suspendable := IdSet.ofIds t.suspendable, defaultResources := IdSet.ofIds t.defaults,
    availableUpto := t.leaving.map fun e => (e.1, IdSet.ofIds e.2), hierarchy, idMap }

/-- A build of the inventory that ends well read the order, sorted the rows, numbered them,
built the hierarchy of the active ones and tallied the rest. -/
theorem ofRows_ok {rows : List ResourceRow} {c : Config} {inv : Inventory}
    (h : (ofRows rows c).run.result = .ok (.ok inv)) :
    ∃ o sorted m hier, ResourceOrder.parse c.resourceOrder = .ok o ∧ o.sort rows = .ok sorted ∧
      IdMap.ofList (sorted.map (·.id)) = .ok m ∧
      (Hierarchy.build (tallyRows c.suspendableTypeList sorted).active c.labelList).run.result =
        .ok (.ok hier) ∧
      inv = (tallyRows c.suspendableTypeList sorted).inventory hier m := by
  unfold ofRows at h
  obtain ⟨o, ho, h⟩ := Logged.run_bind_eq_ok h
  obtain ⟨sorted, hs, h⟩ := Logged.run_bind_eq_ok h
  obtain ⟨m, hm, h⟩ := Logged.run_bind_eq_ok h
  obtain ⟨hier, hh, h⟩ := Logged.run_bind_eq_ok h
  simp only [Logged.run_liftM, Except.ok.injEq] at ho hm
  simp only [Logged.run_pure, Except.ok.injEq] at h
  exact ⟨o, sorted, m, hier, ho, Logged.eq_ok_of_run_liftFault hs, hm, hh, h.symm⟩

-- inventories compare field by field, so that builds on given rows can be checked
deriving instance DecidableEq for Inventory

end Inventory

namespace IdMap

theorem firstRepeat_eq_none :
    ∀ (seen ids : List Int), firstRepeat seen ids = none → ids.Nodup ∧ ∀ x ∈ ids, x ∉ seen
  | _, [], _ => ⟨List.nodup_nil, fun _ h => (by cases h)⟩
  | seen, x :: rest, h => by
    rw [firstRepeat] at h
    split at h
    · cases h
    · rename_i hx
      obtain ⟨hnd, hfresh⟩ := firstRepeat_eq_none (x :: seen) rest h
      have hxseen : x ∉ seen := by simpa using hx
      refine ⟨List.nodup_cons.2 ⟨fun hmem => hfresh x hmem List.mem_cons_self, hnd⟩, fun y hy => ?_⟩
      rcases List.mem_cons.1 hy with rfl | hy
      · exact hxseen
      · exact fun hys => hfresh y hy (List.mem_cons_of_mem _ hys)

theorem firstRepeat_eq_some :
    ∀ (seen ids : List Int) (d : Int), firstRepeat seen ids = some d → 2 ≤ (seen ++ ids).count d
  | _, [], _, h => by cases h
  | seen, x :: rest, d, h => by
    rw [firstRepeat] at h
    split at h
    · -- `x` was seen before
      rename_i hx
      cases h
      have hmem : x ∈ seen := by simpa using hx
      rw [List.count_append, List.count_cons_self]
      have := List.count_pos_iff.2 hmem
      omega
    · have := firstRepeat_eq_some (x :: seen) rest d h
      rw [List.cons_append, List.count_cons] at this
      rw [List.count_append, List.count_cons]
      rw [List.count_append] at this
      omega

theorem ofList_ok {ids : List Int} {m : IdMap} (h : ofList ids = .ok m) : m.ids = ids ∧ ids.Nodup := by
  unfold ofList at h
  split at h
  · cases h
  · rename_i hnone
    cases h
    exact ⟨rfl, (firstRepeat_eq_none [] ids hnone).1⟩

theorem ofList_error {ids : List Int} {e : ConfigError} (h : ofList ids = .error e) :
    ∃ d, e = .duplicateResource d ∧ 2 ≤ ids.count d := by
  unfold ofList at h
  split at h
  · rename_i d hd
    cases h
    exact ⟨d, rfl, by simpa using firstRepeat_eq_some [] ids d hd⟩
  · cases h

end IdMap

end ClusterScheduler
