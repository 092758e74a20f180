import ClusterScheduler.Proofs.IdSetCount
import ClusterScheduler.Proofs.InventoryTally

/-!
# The two numberings of resources

An `IdMap` numbers external resource ids by their position in a list. Numbering is refused when
an id repeats, and the refusal names the first id met a second time. Otherwise the two directions
invert each other as far as they can. An internal id and its external id are each other's image.
An id set converted to external ids and back keeps exactly its ids below the number of
resources, with no warning. External ids converted to an id set and back give the known ones,
each once, in internal order.
-/

namespace ClusterScheduler

open IdSet

namespace Logged

theorem ok_bind {α β : Type} (n : Array Notice) (a : α) (k : α → Logged β) :
    ((⟨n, .ok a⟩ : Logged α) >>= k) = ⟨n ++ (k a).notices, (k a).result⟩ := rfl

theorem filterMapM_loop_eq {α β : Type} {f : α → Logged (Option β)} {g : α → Option β}
    {w : α → List Notice} (hf : ∀ a, f a = ⟨(w a).toArray, .ok (g a)⟩) :
    ∀ (l : List α) (acc : List β), List.filterMapM.loop f l acc =
      ⟨(l.flatMap w).toArray, .ok (acc.reverse ++ l.filterMap g)⟩
  | [], acc => by simp [List.filterMapM.loop]; rfl
  | a :: l, acc => by
    rw [List.filterMapM.loop, hf a, ok_bind]
    cases hg : g a with
    | none =>
      simp only [filterMapM_loop_eq hf l acc, List.flatMap_cons, List.filterMap_cons_none hg,
        List.append_toArray]
    | some b =>
      simp only [filterMapM_loop_eq hf l (b :: acc), List.flatMap_cons,
        List.filterMap_cons_some hg, List.append_toArray, List.reverse_cons, List.append_assoc,
        List.singleton_append]

end Logged

namespace IdSet

theorem mem_idsBelow {s : IdSet} {n x : Nat} : x ∈ s.idsBelow n ↔ x ∈ s ∧ x < n := by
  unfold idsBelow
  split
  · rename_i hn
    subst hn
    simp
  · rw [mem_toList, mem_inter, mem_range]
    exact and_congr_right fun _ => by omega

theorem idsBelow_sorted (s : IdSet) (n : Nat) : (s.idsBelow n).Pairwise (· < ·) := by
  unfold idsBelow
  split
  · exact List.Pairwise.nil
  · exact toList_sorted _

end IdSet

namespace IdMap

/-! ## The first repeated id -/

theorem firstRepeat_eq_some_iff {x : Int} :
    ∀ {seen ids : List Int}, firstRepeat seen ids = some x ↔
      ∃ pre post, ids = pre ++ x :: post ∧ pre.Nodup ∧ (∀ y ∈ pre, y ∉ seen) ∧ (x ∈ pre ∨ x ∈ seen)
  | seen, [] => by simp [firstRepeat]
  | seen, y :: rest => by
    rw [firstRepeat]
    split
    · -- `y` was seen: it is the repeat, after an empty stretch
      rename_i hy
      have hy : y ∈ seen := by simpa using hy
      constructor
      · rintro ⟨⟩
        exact ⟨[], rest, rfl, List.nodup_nil, by simp, .inr hy⟩
      · rintro ⟨pre, post, hsplit, -, hnew, -⟩
        cases pre with
        | nil =>
          cases hsplit
          rfl
        | cons _ pre =>
          cases hsplit
          exact absurd hy (hnew _ List.mem_cons_self)
    · -- `y` is new: the repeat lies in the rest, with `y` seen
      rename_i hy
      have hy : y ∉ seen := by simpa using hy
      rw [firstRepeat_eq_some_iff]
      constructor
      · rintro ⟨pre, post, rfl, hnd, hnew, hx⟩
        refine ⟨y :: pre, post, rfl, List.nodup_cons.2 ⟨fun h => hnew y h List.mem_cons_self, hnd⟩,
          ?_, ?_⟩
        · intro z hz
          rcases List.mem_cons.1 hz with rfl | hz
          · exact hy
          · exact fun hs => hnew z hz (List.mem_cons_of_mem _ hs)
        · rcases hx with hx | hx
          · exact .inl (List.mem_cons_of_mem _ hx)
          · rcases List.mem_cons.1 hx with rfl | hx
            · exact .inl List.mem_cons_self
            · exact .inr hx
      · rintro ⟨pre, post, hsplit, hnd, hnew, hx⟩
        cases pre with
        | nil =>
          cases hsplit
          simp only [List.not_mem_nil, false_or] at hx
          exact absurd hx hy
        | cons z pre =>
          cases hsplit
          obtain ⟨hz, hnd⟩ := List.nodup_cons.1 hnd
          refine ⟨pre, post, rfl, hnd, ?_, ?_⟩
          · intro w hw hs
            rcases List.mem_cons.1 hs with rfl | hs
            · exact hz hw
            · exact hnew w (List.mem_cons_of_mem _ hw) hs
          · rcases hx with hx | hx
            · rcases List.mem_cons.1 hx with rfl | hx
              · exact .inr List.mem_cons_self
              · exact .inl hx
            · exact .inr (List.mem_cons_of_mem _ hx)

theorem firstRepeat_nil_eq_none_iff {ids : List Int} : firstRepeat [] ids = none ↔ ids.Nodup := by
  constructor
  · exact fun h => (firstRepeat_eq_none [] ids h).1
  · intro hnd
    cases h : firstRepeat [] ids with
    | none => rfl
    | some x =>
      obtain ⟨pre, post, rfl, -, -, hx⟩ := firstRepeat_eq_some_iff.1 h
      simp only [List.not_mem_nil, or_false] at hx
      exact absurd hx (List.disjoint_of_nodup_append hnd · List.mem_cons_self)

theorem ofList_eq_error_iff {ids : List Int} {e : ConfigError} :
    ofList ids = .error e ↔
      ∃ x pre post, e = .duplicateResource x ∧ ids = pre ++ x :: post ∧ pre.Nodup ∧ x ∈ pre := by
  unfold ofList
  split
  · rename_i x hx
    obtain ⟨pre, post, hsplit, hnd, -, hmem⟩ := firstRepeat_eq_some_iff.1 hx
    simp only [List.not_mem_nil, or_false] at hmem
    constructor
    · rintro ⟨⟩
      exact ⟨x, pre, post, rfl, hsplit, hnd, hmem⟩
    · rintro ⟨y, pre', post', rfl, hsplit', hnd', hmem'⟩
      have hy : firstRepeat [] ids = some y :=
        firstRepeat_eq_some_iff.2 ⟨pre', post', hsplit', hnd', by simp, .inl hmem'⟩
      rw [hx] at hy
      cases hy
      rfl
  · rename_i hnone
    constructor
    · rintro ⟨⟩
    · rintro ⟨x, pre, post, -, rfl, -, hmem⟩
      have hnd := firstRepeat_nil_eq_none_iff.1 hnone
      exact absurd hmem (List.disjoint_of_nodup_append hnd · List.mem_cons_self)

theorem ofList_eq_ok_iff {ids : List Int} {m : IdMap} : ofList ids = .ok m ↔ ids.Nodup ∧ m = ⟨ids⟩ := by
  unfold ofList
  split
  · rename_i x hx
    constructor
    · rintro ⟨⟩
    · rintro ⟨hnd, -⟩
      rw [firstRepeat_nil_eq_none_iff.2 hnd] at hx
      cases hx
  · rename_i hnone
    constructor
    · rintro ⟨⟩
      exact ⟨firstRepeat_nil_eq_none_iff.1 hnone, rfl⟩
    · rintro ⟨-, rfl⟩
      rfl

/-! ## Lookups both ways -/

variable {m : IdMap}

theorem internalId?_getElem (hnd : m.ids.Nodup) {i : Nat} (hi : i < m.ids.length) :
    m.internalId? m.ids[i] = some i := by
  rw [internalId?, List.idxOf?_eq_some_iff]
  exact ⟨hi, rfl, fun j hj heq => absurd ((hnd.getElem_inj_iff).1 heq) (by omega)⟩

theorem internalId?_eq_none {x : Int} : m.internalId? x = none ↔ x ∉ m.ids :=
  List.idxOf?_eq_none_iff

theorem externalId?_of_lt {i : Nat} (hi : i < m.ids.length) : m.externalId? i = some m.ids[i] :=
  List.getElem?_eq_getElem hi

theorem externalId?_of_le {i : Nat} (hi : m.ids.length ≤ i) : m.externalId? i = none :=
  List.getElem?_eq_none hi

theorem internalId?_eq_some_iff (hnd : m.ids.Nodup) {x : Int} {i : Nat} :
    m.internalId? x = some i ↔ m.externalId? i = some x := by
  constructor
  · intro h
    obtain ⟨hi, rfl, -⟩ := List.idxOf?_eq_some_iff.1 h
    exact externalId?_of_lt hi
  · intro h
    obtain ⟨hi, rfl⟩ := List.getElem?_eq_some_iff.1 h
    exact internalId?_getElem hnd hi

/-! ## Converting sets of ids -/

theorem toInternal_eq (exts : List Int) :
    m.toInternal exts =
      ⟨(exts.flatMap fun e => if e ∈ m.ids then [] else [.unknownResource e]).toArray,
        .ok (IdSet.ofIds (exts.filterMap m.internalId?))⟩ := by
  unfold toInternal List.filterMapM
  rw [Logged.filterMapM_loop_eq (fun e => ?_), Logged.ok_bind]
  · simp only [List.reverse_nil, List.nil_append]
    rfl
  · cases h : m.internalId? e with
    | none =>
      simp only [if_neg (internalId?_eq_none.1 h)]
      rfl
    | some i =>
      have hmem : e ∈ m.ids := by
        rw [← List.isSome_idxOf?]
        exact Option.isSome_iff_exists.2 ⟨i, h⟩
      simp only [if_pos hmem]
      rfl

theorem mem_toExternal {s : IdSet} {x : Int} :
    x ∈ m.toExternal s ↔ ∃ i ∈ s, m.externalId? i = some x := by
  simp only [toExternal, List.mem_filterMap, mem_idsBelow]
  constructor
  · rintro ⟨i, ⟨hi, -⟩, hx⟩
    exact ⟨i, hi, hx⟩
  · rintro ⟨i, hi, hx⟩
    exact ⟨i, ⟨hi, (List.getElem?_eq_some_iff.1 hx).1⟩, hx⟩

theorem toInternal_toExternal (hnd : m.ids.Nodup) (s : IdSet) :
    m.toInternal (m.toExternal s) = pure (s ∩ IdSet.ofIds (List.range m.ids.length)) := by
  rw [toInternal_eq]
  have hknown : (m.toExternal s).flatMap
      (fun e => if e ∈ m.ids then [] else [Notice.unknownResource e]) = [] := by
    rw [List.flatMap_eq_nil_iff]
    intro e he
    obtain ⟨i, -, hi⟩ := mem_toExternal.1 he
    rw [if_pos (List.mem_of_getElem? hi)]
  rw [hknown]
  have hset : IdSet.ofIds ((m.toExternal s).filterMap m.internalId?) =
      s ∩ IdSet.ofIds (List.range m.ids.length) := by
    apply IdSet.ext
    intro x
    rw [mem_ofIds, List.mem_filterMap, mem_inter, mem_ofIds, List.mem_range]
    constructor
    · rintro ⟨e, he, hx⟩
      obtain ⟨i, hi, hie⟩ := mem_toExternal.1 he
      have hix : m.internalId? e = some i := (internalId?_eq_some_iff hnd).2 hie
      rw [hx, Option.some.injEq] at hix
      subst hix
      exact ⟨hi, (List.getElem?_eq_some_iff.1 hie).1⟩
    · rintro ⟨hxs, hx⟩
      exact ⟨m.ids[x], mem_toExternal.2 ⟨x, hxs, externalId?_of_lt hx⟩, internalId?_getElem hnd hx⟩
  rw [hset]
  rfl

theorem toExternal_toInternal (hnd : m.ids.Nodup) (exts : List Int) :
    (m.toInternal exts).result.map m.toExternal = .ok (m.ids.filter (· ∈ exts)) := by
  rw [toInternal_eq]
  show Except.ok (m.toExternal _) = _
  congr 1
  -- both lists run through the known ids of `exts` by increasing internal id
  let rank : Int → Nat := fun x => (m.internalId? x).getD 0
  have hrank : ∀ (i : Nat) (hi : i < m.ids.length), rank m.ids[i] = i := by
    intro i hi
    simp only [rank, internalId?_getElem hnd hi, Option.getD_some]
  have hsorted : (m.toExternal (IdSet.ofIds (exts.filterMap m.internalId?))).Pairwise
      (fun x y => rank x < rank y) := by
    apply List.pairwise_filterMap.2
    refine (idsBelow_sorted _ _).imp fun {i j} hij => ?_
    intro x hx y hy
    obtain ⟨hi, rfl⟩ := List.getElem?_eq_some_iff.1 hx
    obtain ⟨hj, rfl⟩ := List.getElem?_eq_some_iff.1 hy
    rw [hrank i hi, hrank j hj]
    exact hij
  have hsorted' : (m.ids.filter (· ∈ exts)).Pairwise (fun x y => rank x < rank y) := by
    refine List.Pairwise.sublist List.filter_sublist (List.pairwise_iff_getElem.2 ?_)
    intro i j hi hj hij
    rw [hrank i hi, hrank j hj]
    exact hij
  have hmem : ∀ x, x ∈ m.toExternal (IdSet.ofIds (exts.filterMap m.internalId?)) ↔
      x ∈ m.ids.filter (· ∈ exts) := by
    intro x
    rw [mem_toExternal, List.mem_filter, decide_eq_true_iff]
    constructor
    · rintro ⟨i, hi, hx⟩
      obtain ⟨e, he, hei⟩ := List.mem_filterMap.1 (mem_ofIds.1 hi)
      have hex := (internalId?_eq_some_iff hnd).1 hei
      rw [hx, Option.some.injEq] at hex
      subst hex
      exact ⟨List.mem_of_getElem? hx, he⟩
    · rintro ⟨hx, he⟩
      obtain ⟨i, hi, rfl⟩ := List.getElem_of_mem hx
      exact ⟨i, mem_ofIds.2 (List.mem_filterMap.2 ⟨_, he, internalId?_getElem hnd hi⟩),
        externalId?_of_lt hi⟩
  have hnodup : ∀ {l : List Int}, l.Pairwise (fun x y => rank x < rank y) → l.Nodup :=
    fun h => h.imp fun hxy heq => by subst heq; exact Nat.lt_irrefl _ hxy
  exact List.Perm.eq_of_pairwise (fun x y _ _ hxy hyx => absurd (Nat.lt_trans hxy hyx) (Nat.lt_irrefl _))
    hsorted hsorted' ((List.perm_ext_iff_of_nodup (hnodup hsorted) (hnodup hsorted')).2 hmem)

/-! ## Round trips -/

/-- The two numberings of resources round-trip. Numbering a list of external ids fails exactly
when an id repeats, naming the first id met again. Otherwise internal id `i` and the `i`-th
external id look each other up and no other id finds anything; an id set converted to external
ids and back keeps its ids below the number of resources, with no warning; and external ids
converted to an id set and back are the known ones, each once, in internal order. -/
theorem resource_numbering_round_trip (ids : List Int) :
    (∀ x, ofList ids = .error (.duplicateResource x) ↔
      ∃ pre post, ids = pre ++ x :: post ∧ pre.Nodup ∧ x ∈ pre) ∧
    ((∃ e, ofList ids = .error e) ↔ ¬ids.Nodup) ∧
    ∀ m, ofList ids = .ok m →
      (∀ (i : Nat) (hi : i < ids.length),
        m.internalId? ids[i] = some i ∧ m.externalId? i = some ids[i]) ∧
      (∀ x, x ∉ ids → m.internalId? x = none) ∧
      (∀ i, ids.length ≤ i → m.externalId? i = none) ∧
      (∀ s : IdSet, m.toInternal (m.toExternal s) = pure (s ∩ IdSet.ofIds (List.range ids.length))) ∧
      ∀ exts : List Int, (m.toInternal exts).result.map m.toExternal = .ok (ids.filter (· ∈ exts)) := by
  refine ⟨fun x => ?_, ?_, fun m hm => ?_⟩
  · rw [ofList_eq_error_iff]
    constructor
    · rintro ⟨y, pre, post, hy, hsplit, hnd, hmem⟩
      cases hy
      exact ⟨pre, post, hsplit, hnd, hmem⟩
    · rintro ⟨pre, post, hsplit, hnd, hmem⟩
      exact ⟨x, pre, post, rfl, hsplit, hnd, hmem⟩
  · constructor
    · rintro ⟨e, he⟩ hnd
      obtain ⟨x, pre, post, -, rfl, -, hmem⟩ := ofList_eq_error_iff.1 he
      exact absurd hmem (List.disjoint_of_nodup_append hnd · List.mem_cons_self)
    · intro hnd
      cases h : ofList ids with
      | error e => exact ⟨e, rfl⟩
      | ok m => exact absurd (ofList_eq_ok_iff.1 h).1 hnd
  · obtain ⟨hnd, rfl⟩ := ofList_eq_ok_iff.1 hm
    refine ⟨fun i hi => ⟨internalId?_getElem hnd hi, externalId?_of_lt hi⟩,
      fun x hx => internalId?_eq_none.2 hx, fun i hi => externalId?_of_le hi,
      toInternal_toExternal hnd, toExternal_toInternal hnd⟩

/-- `[1, 2, 1]` is refused for its id 1, and the numbering of `[10, 4, 7]` brings `[7, 10, 99]`
back as `[10, 7]`. -/
theorem resource_numbering_round_trip_three_ids :
    ofList [1, 2, 1] = .error (.duplicateResource 1) ∧
      ((⟨[10, 4, 7]⟩ : IdMap).toInternal [7, 10, 99]).result.map (⟨[10, 4, 7]⟩ : IdMap).toExternal =
        .ok [10, 7] :=
  ⟨((resource_numbering_round_trip [1, 2, 1]).1 1).2 ⟨[1, 2], [], rfl, by decide, by decide⟩,
    ((resource_numbering_round_trip [10, 4, 7]).2.2 _ rfl).2.2.2.2 [7, 10, 99]⟩

end IdMap

end ClusterScheduler
