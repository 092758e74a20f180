import ClusterScheduler.Inventory
import ClusterScheduler.Proofs.IdSetCount
import Mathlib.Data.List.Induction
import Mathlib.Data.List.Nodup

/-!
# Grouping ids by key

The inventory groups internal ids twice: by the time after which resources leave, times kept
ascending, and by the value of a hierarchy label, values in the order they first appear. Both
keep one entry per key, holding the ids of that key in the order they came; `GroupsOf` says so,
and each insertion keeps it. Arranged by lowest id, the entries of a label are the groups of its
level: one per value, disjoint, in ascending order (`GroupsBy`).
-/

namespace ClusterScheduler

open scoped List

/-- `acc` groups the ids of `done` by key: one entry per key, each holding the ids of its key
in order, and an entry for every key of `done`. -/
structure GroupsOf {κ : Type} [DecidableEq κ] (done : List (Nat × κ)) (acc : List (κ × List Nat)) :
    Prop where
  nodup : (acc.map (·.1)).Nodup
  ids_eq : ∀ e ∈ acc, e.2 = (done.filter (·.2 = e.1)).map (·.1)
  nonempty : ∀ e ∈ acc, e.2 ≠ []
  complete : ∀ p ∈ done, ∃ e ∈ acc, e.1 = p.2

namespace GroupsOf

variable {κ : Type} [DecidableEq κ] {done : List (Nat × κ)} {acc : List (κ × List Nat)}

def appendAt (k : κ) (i : Nat) (e : κ × List Nat) : κ × List Nat :=
  if e.1 = k then (e.1, e.2 ++ [i]) else e

theorem nil : GroupsOf ([] : List (Nat × κ)) [] :=
  ⟨List.nodup_nil, fun _ h => (by cases h), fun _ h => (by cases h), fun _ h => (by cases h)⟩

theorem perm {acc' : List (κ × List Nat)} (h : GroupsOf done acc) (hp : acc ~ acc') :
    GroupsOf done acc' :=
  ⟨(hp.map _).nodup_iff.1 h.nodup, fun e he => h.ids_eq e (hp.mem_iff.2 he),
    fun e he => h.nonempty e (hp.mem_iff.2 he),
    fun p hp' => (h.complete p hp').imp fun _ he => ⟨hp.mem_iff.1 he.1, he.2⟩⟩

theorem join {k : κ} {i : Nat} (h : GroupsOf done acc) (hk : k ∈ acc.map (·.1)) :
    GroupsOf (done ++ [(i, k)]) (acc.map (appendAt k i)) := by
  refine ⟨?_, fun e he => ?_, fun e he => ?_, fun p hp => ?_⟩
  · rw [List.map_map]
    convert h.nodup using 1
    refine List.map_congr_left fun e _ => ?_
    simp only [Function.comp_apply, appendAt]
    split <;> rfl
  · obtain ⟨e', he', rfl⟩ := List.mem_map.1 he
    simp only [appendAt]
    split
    · rename_i hek
      simp [h.ids_eq e' he', List.filter_append, hek]
    · rename_i hek
      simp [h.ids_eq e' he', List.filter_append, Ne.symm hek]
  · obtain ⟨e', he', rfl⟩ := List.mem_map.1 he
    simp only [appendAt]
    split
    · simp
    · exact h.nonempty e' he'
  · rcases List.mem_append.1 hp with hp | hp
    · obtain ⟨e, he, hep⟩ := h.complete p hp
      refine ⟨appendAt k i e, List.mem_map_of_mem he, ?_⟩
      simp only [appendAt]
      split <;> exact hep
    · obtain ⟨e, he, rfl⟩ := List.mem_map.1 hk
      rw [List.mem_singleton.1 hp]
      refine ⟨appendAt e.1 i e, List.mem_map_of_mem he, ?_⟩
      simp [appendAt]

theorem add {k : κ} {i : Nat} (h : GroupsOf done acc) (hk : k ∉ acc.map (·.1)) :
    GroupsOf (done ++ [(i, k)]) (acc ++ [(k, [i])]) := by
  -- no id of `done` has the key, or it would have an entry
  have hnone : done.filter (·.2 = k) = [] := by
    refine List.filter_eq_nil_iff.2 fun p hp hpk => hk ?_
    obtain ⟨e, he, hep⟩ := h.complete p hp
    exact List.mem_map.2 ⟨e, he, hep.trans (of_decide_eq_true hpk)⟩
  refine ⟨?_, fun e he => ?_, fun e he => ?_, fun p hp => ?_⟩
  · rw [List.map_append, List.nodup_append]
    refine ⟨h.nodup, List.nodup_singleton _, fun a ha b hb hab => ?_⟩
    rw [List.map_singleton, List.mem_singleton] at hb
    rw [hab, hb] at ha
    exact hk ha
  · rcases List.mem_append.1 he with he | he
    · have hne : e.1 ≠ k := fun hek => hk (List.mem_map.2 ⟨e, he, hek⟩)
      simp [h.ids_eq e he, List.filter_append, Ne.symm hne]
    · rw [List.mem_singleton.1 he]
      simp [List.filter_append, hnone]
  · rcases List.mem_append.1 he with he | he
    · exact h.nonempty e he
    · rw [List.mem_singleton.1 he]
      simp
  · rcases List.mem_append.1 hp with hp | hp
    · obtain ⟨e, he, hep⟩ := h.complete p hp
      exact ⟨e, List.mem_append_left _ he, hep⟩
    · rw [List.mem_singleton.1 hp]
      exact ⟨(k, [i]), by simp, rfl⟩

theorem ids_nodup (h : GroupsOf done acc) (hids : (done.map (·.1)).Nodup) :
    ∀ e ∈ acc, e.2.Nodup := by
  intro e he
  rw [h.ids_eq e he]
  exact ((List.filter_sublist).map _).nodup hids

theorem map_appendAt_of_not_mem {k : κ} {i : Nat} (hk : k ∉ acc.map (·.1)) :
    acc.map (appendAt k i) = acc := by
  rw [List.map_congr_left (g := fun e => e) fun e he => ?_, List.map_id']
  rw [appendAt, if_neg fun hek => hk (List.mem_map.2 ⟨e, he, hek⟩)]

end GroupsOf

/-! ## The lowest id of a set -/

namespace IdSet

theorem min?_mem {s : IdSet} {m : Nat} (h : s.min? = some m) : m ∈ s := by
  obtain ⟨spans, hc⟩ := s
  cases spans with
  | nil => cases h
  | cons sp rest =>
    simp only [min?, List.head?_cons, Option.map_some, Option.some.injEq] at h
    subst h
    exact ⟨sp, List.mem_cons_self, Nat.le_refl _, hc.1⟩

theorem exists_min? {s : IdSet} {x : Nat} (hx : x ∈ s) : ∃ m, s.min? = some m := by
  obtain ⟨spans, hc⟩ := s
  cases spans with
  | nil => obtain ⟨sp, hsp, -⟩ := hx; cases hsp
  | cons sp rest => exact ⟨sp.lo, rfl⟩

end IdSet

/-! ## Values in the order they first appear -/

namespace Hierarchy

open GroupsOf

variable {gs : List (String × List Nat)} {v : String} {i : Nat}

theorem gather_of_not_mem (hv : v ∉ gs.map (·.1)) : gather v i gs = gs ++ [(v, [i])] := by
  induction gs with
  | nil => rfl
  | cons e rest ih =>
    obtain ⟨w, ids⟩ := e
    have hvw : v ≠ w := fun h => hv (by simp [h])
    rw [gather, if_neg hvw, ih fun h => hv (List.mem_cons_of_mem _ h)]
    rfl

theorem gather_of_mem (hnd : (gs.map (·.1)).Nodup) (hv : v ∈ gs.map (·.1)) :
    gather v i gs = gs.map (appendAt v i) := by
  induction gs with
  | nil => cases hv
  | cons e rest ih =>
    obtain ⟨w, ids⟩ := e
    rw [List.map_cons, List.nodup_cons] at hnd
    rw [gather, List.map_cons]
    split
    · -- the key's entry is the first; no later entry has the key
      rename_i hvw
      subst hvw
      rw [map_appendAt_of_not_mem hnd.1]
      simp [appendAt]
    · rename_i hvw
      have hrest : v ∈ rest.map (·.1) := by
        rcases List.mem_cons.1 hv with h | h
        · exact absurd h hvw
        · exact h
      rw [ih hnd.2 hrest, appendAt, if_neg (Ne.symm hvw)]

theorem gather_groups {done : List (Nat × String)} (h : GroupsOf done gs) :
    GroupsOf (done ++ [(i, v)]) (gather v i gs) := by
  by_cases hv : v ∈ gs.map (·.1)
  · rw [gather_of_mem h.nodup hv]
    exact h.join hv
  · rw [gather_of_not_mem hv]
    exact h.add hv

/-! ## Rows grouped by the value of a label -/

def labelled (rows : List (Nat × ResourceRow)) (label : String) : List (Nat × String) :=
  rows.filterMap fun p => (p.2.value label).map fun v => (p.1, v)

theorem groupBy_append_some {rows : List (Nat × ResourceRow)} {label : String} {i : Nat}
    {r : ResourceRow} {v : String} (h : r.value label = some v) :
    groupBy (rows ++ [(i, r)]) label = (gather v i (groupBy rows label).1, (groupBy rows label).2) := by
  unfold groupBy
  rw [List.foldl_append, List.foldl_cons, List.foldl_nil]
  split
  rename_i gs missing hacc
  rw [hacc]
  simp only [h]

theorem groupBy_append_none {rows : List (Nat × ResourceRow)} {label : String} {i : Nat}
    {r : ResourceRow} (h : r.value label = none) :
    groupBy (rows ++ [(i, r)]) label = ((groupBy rows label).1, (groupBy rows label).2 + 1) := by
  unfold groupBy
  rw [List.foldl_append, List.foldl_cons, List.foldl_nil]
  split
  rename_i gs missing hacc
  rw [hacc]
  simp only [h]

/-- The groups of a label gather the ids of the rows that have a value by value, and the rows
without one are counted. -/
theorem groupBy_spec (rows : List (Nat × ResourceRow)) (label : String) :
    GroupsOf (labelled rows label) (groupBy rows label).1 ∧
      (groupBy rows label).2 = rows.countP fun p => (p.2.value label).isNone := by
  induction rows using List.reverseRecOn with
  | nil => exact ⟨GroupsOf.nil, rfl⟩
  | append_singleton rows p ih =>
    obtain ⟨i, r⟩ := p
    cases hv : r.value label with
    | none =>
      rw [groupBy_append_none hv]
      have hl : labelled (rows ++ [(i, r)]) label = labelled rows label := by
        simp [labelled, List.filterMap_append, hv]
      refine ⟨hl ▸ ih.1, ?_⟩
      rw [List.countP_append, ih.2]
      simp [hv]
    | some v =>
      rw [groupBy_append_some hv]
      have hl : labelled (rows ++ [(i, r)]) label = labelled rows label ++ [(i, v)] := by
        simp [labelled, List.filterMap_append, hv]
      refine ⟨hl ▸ gather_groups ih.1, ?_⟩
      rw [List.countP_append, ih.2]
      simp [hv]


/-! ## The groups of a level -/

/-- `groups` are the ids of `done` grouped by value: one group per value, holding the ids that
have it, every group non-empty, by ascending lowest id. -/
structure GroupsBy (done : List (Nat × String)) (groups : List Group) : Prop where
  nodup : (groups.map (·.value)).Nodup
  mem_iff : ∀ g ∈ groups, ∀ x, x ∈ g.resources ↔ (x, g.value) ∈ done
  complete : ∀ p ∈ done, ∃ g ∈ groups, g.value = p.2
  nonempty : ∀ g ∈ groups, ∃ x, x ∈ g.resources
  ascending : groups.Pairwise fun a b => a.resources.min?.getD 0 < b.resources.min?.getD 0

def toGroup (e : String × List Nat) : Group := ⟨e.1, IdSet.ofIds e.2⟩

theorem arrange_perm {done : List (Nat × String)} {gs : List (String × List Nat)}
    (h : GroupsOf done gs) : arrange (gs.map toGroup) ~ gs.map toGroup := by
  rw [arrange, List.filter_eq_self.2 fun g hg => ?_]
  · exact List.mergeSort_perm _ _
  · obtain ⟨e, he, rfl⟩ := List.mem_map.1 hg
    obtain ⟨x, hx⟩ := List.exists_mem_of_ne_nil _ (h.nonempty e he)
    have hx' : x ∈ (toGroup e).resources := IdSet.mem_ofIds.2 hx
    simp only [Bool.not_eq_true', ← Bool.not_eq_true, IdSet.isEmpty_iff, not_forall, not_not]
    exact ⟨x, hx'⟩

theorem arrange_groupsBy {done : List (Nat × String)} {gs : List (String × List Nat)}
    (h : GroupsOf done gs) (hids : (done.map (·.1)).Nodup) :
    GroupsBy done (arrange (gs.map toGroup)) := by
  have hperm := arrange_perm h
  have hmem : ∀ g ∈ arrange (gs.map toGroup), ∀ x, x ∈ g.resources ↔ (x, g.value) ∈ done := by
    intro g hg x
    obtain ⟨e, he, rfl⟩ := List.mem_map.1 (hperm.subset hg)
    rw [toGroup, IdSet.mem_ofIds, h.ids_eq e he]
    simp
  have hnodup : ((arrange (gs.map toGroup)).map (·.value)).Nodup := by
    rw [(hperm.map _).nodup_iff, List.map_map]
    exact h.nodup
  have hne : ∀ g ∈ arrange (gs.map toGroup), ∃ x, x ∈ g.resources := by
    intro g hg
    obtain ⟨e, he, rfl⟩ := List.mem_map.1 (hperm.subset hg)
    obtain ⟨x, hx⟩ := List.exists_mem_of_ne_nil _ (h.nonempty e he)
    exact ⟨x, IdSet.mem_ofIds.2 hx⟩
  -- the merge sort orders by lowest id; groups of different values share no id, so no two
  -- lowest ids are equal
  have hle := @List.pairwise_mergeSort Group (fun a b =>
      decide (a.resources.min?.getD 0 ≤ b.resources.min?.getD 0))
    (fun a b c hab hbc => by simp only [decide_eq_true_eq] at hab hbc ⊢; omega)
    (fun a b => by simp only [Bool.or_eq_true, decide_eq_true_eq]; omega)
    ((gs.map toGroup).filter (!·.resources.isEmpty))
  refine ⟨hnodup, hmem, fun p hp => ?_, hne, ?_⟩
  · obtain ⟨e, he, hep⟩ := h.complete p hp
    exact ⟨toGroup e, hperm.symm.subset (List.mem_map_of_mem he), hep⟩
  · refine (hle.and (List.pairwise_map.1 hnodup)).imp_of_mem fun {a b} ha hb hab => ?_
    obtain ⟨hab, hval⟩ := hab
    simp only [decide_eq_true_eq] at hab
    obtain ⟨x, hx⟩ := hne a ha
    obtain ⟨y, hy⟩ := hne b hb
    obtain ⟨m, hm⟩ := IdSet.exists_min? hx
    obtain ⟨n, hn⟩ := IdSet.exists_min? hy
    rw [hm, hn, Option.getD_some, Option.getD_some] at hab ⊢
    refine Nat.lt_of_le_of_ne hab fun hmn => hval ?_
    subst hmn
    have hma := (hmem a ha m).1 (IdSet.min?_mem hm)
    have hmb := (hmem b hb m).1 (IdSet.min?_mem hn)
    exact (Prod.mk.inj (List.inj_on_of_nodup_map hids hma hmb rfl)).2

end Hierarchy

/-! ## Times kept ascending -/

namespace Inventory

open GroupsOf

variable {acc : List (Int × List Nat)} {t : Int} {i : Nat}

theorem keys_addLeaving {k : Int} (hk : k ∈ (addLeaving t i acc).map (·.1)) :
    k = t ∨ k ∈ acc.map (·.1) := by
  induction acc with
  | nil => simp_all [addLeaving]
  | cons e rest ih =>
    obtain ⟨u, ids⟩ := e
    simp only [addLeaving] at hk
    split at hk
    · rename_i htu
      simp_all
    · split at hk
      · simp only [List.map_cons, List.mem_cons] at hk
        rcases hk with hk | hk
        · exact .inl hk
        · exact .inr (List.mem_cons.2 hk)
      · simp only [List.map_cons, List.mem_cons] at hk ⊢
        rcases hk with hk | hk
        · exact .inr (.inl hk)
        · exact (ih hk).imp_right .inr

theorem addLeaving_sorted (hs : (acc.map (·.1)).Pairwise (· < ·)) :
    ((addLeaving t i acc).map (·.1)).Pairwise (· < ·) := by
  induction acc with
  | nil => simp [addLeaving]
  | cons e rest ih =>
    obtain ⟨u, ids⟩ := e
    rw [List.map_cons, List.pairwise_cons] at hs
    simp only [addLeaving]
    split
    · rename_i htu
      subst htu
      simpa using hs
    · split
      · rename_i htu hlt
        simp only [List.map_cons, List.pairwise_cons, List.mem_cons]
        refine ⟨fun k hk => ?_, hs.1, hs.2⟩
        rcases hk with rfl | hk
        · exact hlt
        · exact Int.lt_trans hlt (hs.1 k hk)
      · rename_i htu hlt
        simp only [List.map_cons, List.pairwise_cons]
        refine ⟨fun k hk => ?_, ih hs.2⟩
        rcases keys_addLeaving hk with rfl | hk
        · omega
        · exact hs.1 k hk

theorem addLeaving_of_mem (hs : (acc.map (·.1)).Pairwise (· < ·)) (ht : t ∈ acc.map (·.1)) :
    addLeaving t i acc = acc.map (appendAt t i) := by
  induction acc with
  | nil => cases ht
  | cons e rest ih =>
    obtain ⟨u, ids⟩ := e
    rw [List.map_cons, List.pairwise_cons] at hs
    rw [addLeaving, List.map_cons]
    split
    · rename_i htu
      subst htu
      rw [map_appendAt_of_not_mem fun h => Int.lt_irrefl _ (hs.1 _ h)]
      simp [appendAt]
    · rename_i htu
      have hrest : t ∈ rest.map (·.1) := by
        rcases List.mem_cons.1 ht with h | h
        · exact absurd h htu
        · exact h
      -- a time below `u` would come before every later entry, none of which can hold it
      have hgt : ¬ t < u := fun hlt => Int.lt_irrefl _ (Int.lt_trans hlt (hs.1 t hrest))
      rw [if_neg hgt, ih hs.2 hrest, appendAt, if_neg (Ne.symm htu)]

theorem addLeaving_perm_of_not_mem (ht : t ∉ acc.map (·.1)) :
    addLeaving t i acc ~ acc ++ [(t, [i])] := by
  induction acc with
  | nil => exact .refl _
  | cons e rest ih =>
    obtain ⟨u, ids⟩ := e
    have htu : t ≠ u := fun h => ht (by simp [h])
    rw [addLeaving, if_neg htu]
    split
    · exact (List.perm_append_singleton _ _).symm
    · exact (ih fun h => ht (List.mem_cons_of_mem _ h)).cons _

theorem addLeaving_groups {done : List (Nat × Int)} (h : GroupsOf done acc)
    (hs : (acc.map (·.1)).Pairwise (· < ·)) :
    GroupsOf (done ++ [(i, t)]) (addLeaving t i acc) := by
  by_cases ht : t ∈ acc.map (·.1)
  · rw [addLeaving_of_mem hs ht]
    exact h.join ht
  · exact (h.add ht).perm (addLeaving_perm_of_not_mem ht).symm

end Inventory

end ClusterScheduler
