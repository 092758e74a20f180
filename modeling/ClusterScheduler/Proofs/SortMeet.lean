import ClusterScheduler.Proofs.SortOrder

/-!
# The merge from both ends meets in the middle

`mergeBoth` merges two sorted halves by writing `n/2` elements from the front and `n/2` from the
back, with the middle element of an odd sequence in between, and checks that the two ends took each
half whole. For a strict weak order the check passes and the result is the merge from the front;
the sorts of short sequences built on it then sort.

The front steps write a prefix of the merge, and the back steps a suffix, since merging from the
back writes the same sequence; between them lies at most one element. Whether the two ends took
each half whole is a count of the elements from each half, which elements equal under the order do
not tell apart. So the elements are tagged with their half, and an order that puts the left half
first among equals refines the comparison: the merges of the tagged halves make exactly the choices
of the merges of the halves, and on tagged elements the counts can be read off.

Main statement: `mergeBoth_eq`, and `smallSort_sorted`.
-/

namespace ClusterScheduler

namespace Sorting

open scoped List

variable {α : Type}

/-! ## Steps from the ends -/

section Steps

variable (lt : α → α → Bool)

theorem frontSteps_append (k : Nat) (xs ys : List α) (hx : k ≤ xs.length) (hy : k ≤ ys.length) :
    (frontSteps lt k xs ys).2.1 + (frontSteps lt k xs ys).2.2 = k ∧
      (frontSteps lt k xs ys).1 ++
          mergeFront lt (xs.drop (frontSteps lt k xs ys).2.1) (ys.drop (frontSteps lt k xs ys).2.2) =
        mergeFront lt xs ys := by
  fun_induction frontSteps lt k xs ys with
  | case1 k x xs y ys hyx rest ih =>
    dsimp only [rest]
    simp only [List.length_cons] at hx hy
    obtain ⟨hcount, heq⟩ := ih (by simp only [List.length_cons]; omega) (by omega)
    refine ⟨by omega, ?_⟩
    rw [mergeFront_cons_cons, if_pos hyx, List.cons_append, List.drop_succ_cons, heq]
  | case2 k x xs y ys hyx rest ih =>
    dsimp only [rest]
    simp only [List.length_cons] at hx hy
    obtain ⟨hcount, heq⟩ := ih (by omega) (by simp only [List.length_cons]; omega)
    refine ⟨by omega, ?_⟩
    rw [mergeFront_cons_cons, if_neg hyx, List.cons_append, List.drop_succ_cons, heq]
  | case3 k xs ys hne =>
    cases k with
    | zero => simp
    | succ k =>
      obtain ⟨x, xs', rfl⟩ := List.exists_cons_of_length_pos (by omega : 0 < xs.length)
      obtain ⟨y, ys', rfl⟩ := List.exists_cons_of_length_pos (by omega : 0 < ys.length)
      exact (hne k x xs' y ys' rfl rfl rfl).elim

theorem backSteps_append (k : Nat) (xs ys : List α) (hx : k ≤ xs.length) (hy : k ≤ ys.length) :
    (backSteps lt k xs ys).2.1 + (backSteps lt k xs ys).2.2 = k ∧
      (backSteps lt k xs ys).1 ++
          mergeBackRev lt (xs.drop (backSteps lt k xs ys).2.1) (ys.drop (backSteps lt k xs ys).2.2) =
        mergeBackRev lt xs ys := by
  fun_induction backSteps lt k xs ys with
  | case1 k x xs y ys hyx rest ih =>
    dsimp only [rest]
    simp only [List.length_cons] at hx hy
    obtain ⟨hcount, heq⟩ := ih (by omega) (by simp only [List.length_cons]; omega)
    refine ⟨by omega, ?_⟩
    rw [mergeBackRev, if_pos hyx, List.cons_append, List.drop_succ_cons, heq]
  | case2 k x xs y ys hyx rest ih =>
    dsimp only [rest]
    simp only [List.length_cons] at hx hy
    obtain ⟨hcount, heq⟩ := ih (by simp only [List.length_cons]; omega) (by omega)
    refine ⟨by omega, ?_⟩
    rw [mergeBackRev, if_neg hyx, List.cons_append, List.drop_succ_cons, heq]
  | case3 k xs ys hne =>
    cases k with
    | zero => simp
    | succ k =>
      obtain ⟨x, xs', rfl⟩ := List.exists_cons_of_length_pos (by omega : 0 < xs.length)
      obtain ⟨y, ys', rfl⟩ := List.exists_cons_of_length_pos (by omega : 0 < ys.length)
      exact (hne k x xs' y ys' rfl rfl rfl).elim

theorem frontSteps_length (k : Nat) (xs ys : List α) :
    (frontSteps lt k xs ys).1.length = (frontSteps lt k xs ys).2.1 + (frontSteps lt k xs ys).2.2 := by
  fun_induction frontSteps lt k xs ys with
  | case1 k x xs y ys hyx rest ih =>
    dsimp only [rest] at ih ⊢
    rw [List.length_cons, ih]
    omega
  | case2 k x xs y ys hyx rest ih =>
    dsimp only [rest] at ih ⊢
    rw [List.length_cons, ih]
    omega
  | case3 => rfl

theorem backSteps_length (k : Nat) (xs ys : List α) :
    (backSteps lt k xs ys).1.length = (backSteps lt k xs ys).2.1 + (backSteps lt k xs ys).2.2 := by
  fun_induction backSteps lt k xs ys with
  | case1 k x xs y ys hyx rest ih =>
    dsimp only [rest] at ih ⊢
    rw [List.length_cons, ih]
    omega
  | case2 k x xs y ys hyx rest ih =>
    dsimp only [rest] at ih ⊢
    rw [List.length_cons, ih]
    omega
  | case3 => rfl

theorem sortFour_length (v0 v1 v2 v3 : α) : (sortFour lt v0 v1 v2 v3).length = 4 := rfl

theorem mergeFront_head? (xs ys : List α) :
    (mergeFront lt xs ys).head? = xs.head? ∨ (mergeFront lt xs ys).head? = ys.head? := by
  cases xs with
  | nil => exact .inr (by rw [mergeFront_nil_left])
  | cons x xs =>
    cases ys with
    | nil => exact .inl (by rw [mergeFront_nil_right])
    | cons y ys =>
      rw [mergeFront_cons_cons]
      split
      · exact .inr rfl
      · exact .inl rfl

end Steps

/-! ## Runs tagged with their side -/

/-- The comparison `lt` refined by a side: of two elements that `lt` does not tell apart, the one
tagged `false` comes first. -/
def sideLt (lt : α → α → Bool) (p q : α × Bool) : Bool := lt p.1 q.1 || (!lt q.1 p.1 && !p.2 && q.2)

section Tagged

variable {lt : α → α → Bool}

theorem sideLt_right_left (lt : α → α → Bool) (x y : α) : sideLt lt (y, true) (x, false) = lt y x := by
  simp [sideLt]

theorem sorted_tag {l : List α} (hl : Sorted lt l) (b : Bool) :
    Sorted (sideLt lt) (l.map fun x => (x, b)) := by
  refine List.pairwise_map.2 (hl.imp fun {x y} hxy => ?_)
  simp [sideLt, hxy]

theorem frontSteps_tag (k : Nat) (xs ys : List α) :
    frontSteps lt k xs ys =
      ((frontSteps (sideLt lt) k (xs.map fun x => (x, false)) (ys.map fun y => (y, true))).1.map
          Prod.fst,
        (frontSteps (sideLt lt) k (xs.map fun x => (x, false)) (ys.map fun y => (y, true))).2) := by
  fun_induction frontSteps lt k xs ys with
  | case1 k x xs y ys hyx rest ih =>
    simp only [List.map_cons] at ih ⊢
    rw [frontSteps, sideLt_right_left, if_pos hyx]
    dsimp only [rest]
    rw [ih]
    rfl
  | case2 k x xs y ys hyx rest ih =>
    simp only [List.map_cons] at ih ⊢
    rw [frontSteps, sideLt_right_left, if_neg hyx]
    dsimp only [rest]
    rw [ih]
    rfl
  | case3 k xs ys hne =>
    cases k with
    | zero => simp [frontSteps]
    | succ k =>
      cases xs with
      | nil => simp [frontSteps]
      | cons x xs =>
        cases ys with
        | nil => simp [frontSteps]
        | cons y ys => exact (hne k x xs y ys rfl rfl rfl).elim

theorem backSteps_tag (k : Nat) (xs ys : List α) :
    backSteps lt k xs ys =
      ((backSteps (sideLt lt) k (xs.map fun x => (x, false)) (ys.map fun y => (y, true))).1.map
          Prod.fst,
        (backSteps (sideLt lt) k (xs.map fun x => (x, false)) (ys.map fun y => (y, true))).2) := by
  fun_induction backSteps lt k xs ys with
  | case1 k x xs y ys hyx rest ih =>
    simp only [List.map_cons] at ih ⊢
    rw [backSteps, sideLt_right_left, if_pos hyx]
    dsimp only [rest]
    rw [ih]
    rfl
  | case2 k x xs y ys hyx rest ih =>
    simp only [List.map_cons] at ih ⊢
    rw [backSteps, sideLt_right_left, if_neg hyx]
    dsimp only [rest]
    rw [ih]
    rfl
  | case3 k xs ys hne =>
    cases k with
    | zero => simp [backSteps]
    | succ k =>
      cases xs with
      | nil => simp [backSteps]
      | cons x xs =>
        cases ys with
        | nil => simp [backSteps]
        | cons y ys => exact (hne k x xs y ys rfl rfl rfl).elim

theorem mergeFront_tag (xs ys : List α) :
    mergeFront lt xs ys =
      (mergeFront (sideLt lt) (xs.map fun x => (x, false)) (ys.map fun y => (y, true))).map
        Prod.fst := by
  fun_induction mergeFront lt xs ys with
  | case1 ys => simp [Function.comp_def]
  | case2 xs h => simp [Function.comp_def]
  | case3 x xs y ys hyx ih =>
    simp only [List.map_cons] at ih ⊢
    rw [mergeFront_cons_cons, sideLt_right_left, if_pos hyx, ih]
    rfl
  | case4 x xs y ys hyx ih =>
    simp only [List.map_cons] at ih ⊢
    rw [mergeFront_cons_cons, sideLt_right_left, if_neg hyx, ih]
    rfl

theorem countP_side {out xs ys : List (α × Bool)} {a b : Nat} (hperm : out ~ xs.take a ++ ys.take b)
    (hxs : ∀ p ∈ xs, p.2 = false) (hys : ∀ p ∈ ys, p.2 = true) (ha : a ≤ xs.length)
    (hb : b ≤ ys.length) : out.countP (fun p => !p.2) = a ∧ out.countP (fun p => p.2) = b := by
  rw [hperm.countP_eq, hperm.countP_eq, List.countP_append, List.countP_append]
  have hx1 : (xs.take a).countP (fun p => !p.2) = a := by
    rw [List.countP_eq_length.2 fun p hp => by simp [hxs p (List.mem_of_mem_take hp)],
      List.length_take]
    omega
  have hx2 : (xs.take a).countP (fun p => p.2) = 0 :=
    List.countP_eq_zero.2 fun p hp => by simp [hxs p (List.mem_of_mem_take hp)]
  have hy1 : (ys.take b).countP (fun p => !p.2) = 0 :=
    List.countP_eq_zero.2 fun p hp => by simp [hys p (List.mem_of_mem_take hp)]
  have hy2 : (ys.take b).countP (fun p => p.2) = b := by
    rw [List.countP_eq_length.2 fun p hp => by simp [hys p (List.mem_of_mem_take hp)],
      List.length_take]
    omega
  omega

theorem getElem?_of_head {L R : List α} {i j : Nat} {m : α × Bool}
    (h : some m = L[i]?.map (fun x => (x, false)) ∨ some m = R[j]?.map (fun y => (y, true))) :
    (m.2 = false → L[i]? = some m.1) ∧ (m.2 = true → R[j]? = some m.1) := by
  rcases h with h | h
  · cases hi : L[i]? with
    | none => simp [hi] at h
    | some x =>
      simp only [hi, Option.map_some, Option.some.injEq] at h
      subst h
      exact ⟨fun _ => rfl, fun h => (by simp at h)⟩
  · cases hj : R[j]? with
    | none => simp [hj] at h
    | some y =>
      simp only [hj, Option.map_some, Option.some.injEq] at h
      subst h
      exact ⟨fun h => (by simp at h), fun _ => rfl⟩

theorem sideLt_eq_true {lt : α → α → Bool} {p q : α × Bool} :
    sideLt lt p q = true ↔ lt p.1 q.1 = true ∨ (lt q.1 p.1 = false ∧ p.2 = false ∧ q.2 = true) := by
  simp [sideLt, and_assoc]

theorem sideLt_strictWeakOn {lt : α → α → Bool} {S : α → Prop} (hlt : StrictWeakOn lt S) :
    StrictWeakOn (sideLt lt) fun p => S p.1 where
  irrefl {p} hp := by simp [sideLt, hlt.irrefl hp]
  trans {p q r} hp hq hr hpq hqr := by
    rw [sideLt_eq_true] at hpq hqr ⊢
    rcases hpq with hpq | ⟨hqp, -, hq2⟩ <;> rcases hqr with hqr | ⟨hrq, hq2', hr2⟩
    · exact .inl (hlt.trans hp hq hr hpq hqr)
    · exact .inl (hlt.lt_of_lt_of_not_lt hp hq hr hpq hrq)
    · exact .inl (hlt.lt_of_not_lt_of_lt hp hq hr hqp hqr)
    · rw [hq2] at hq2'
      cases hq2'
  not_lt_trans {p q r} hp hq hr hqp hrq := by
    obtain ⟨x, a⟩ := p
    obtain ⟨y, b⟩ := q
    obtain ⟨z, c⟩ := r
    simp only [sideLt, Bool.or_eq_false_iff] at hqp hrq ⊢
    refine ⟨hlt.not_lt_trans hp hq hr hqp.1 hrq.1, ?_⟩
    -- the sides put `z` below `x` only when `z` is on the left and `x` on the right; then `y`,
    -- on either side, is put by `lt` below `z` or above `x`
    cases a <;> cases c <;> simp only [Bool.not_false, Bool.not_true, Bool.and_false,
      Bool.and_true]
    cases b
    · have hxy : lt x y = true := by simpa using hqp.2
      simp [hlt.lt_of_lt_of_not_lt hp hq hr hxy hrq.1]
    · have hyz : lt y z = true := by simpa using hrq.2
      simp [hlt.lt_of_not_lt_of_lt hp hq hr hqp.1 hyz]

end Tagged

/-! ## Where the two ends meet -/

section Meet

variable {lt : α → α → Bool} {S : α → Prop} (hlt : StrictWeakOn lt S)

include hlt

theorem mergeFront_front_back {xs ys : List α} (hxs : Sorted lt xs) (hys : Sorted lt ys)
    (hSx : ∀ z ∈ xs, S z) (hSy : ∀ z ∈ ys, S z) (hlen : xs.length ≤ ys.length) :
    mergeFront lt xs ys =
      (frontSteps lt xs.length xs ys).1 ++
        (mergeFront lt (xs.drop (frontSteps lt xs.length xs ys).2.1)
          (ys.drop (frontSteps lt xs.length xs ys).2.2)).take (ys.length - xs.length) ++
        (backSteps lt xs.length xs.reverse ys.reverse).1.reverse := by
  obtain ⟨hfc, hf⟩ := frontSteps_append lt xs.length xs ys (Nat.le_refl _) hlen
  obtain ⟨hbc, hb⟩ := backSteps_append lt xs.length xs.reverse ys.reverse (by simp)
    (by simp only [List.length_reverse]; exact hlen)
  have hfl := frontSteps_length lt xs.length xs ys
  have hbl := backSteps_length lt xs.length xs.reverse ys.reverse
  have hback : mergeBackRev lt xs.reverse ys.reverse = (mergeFront lt xs ys).reverse := by
    rw [← mergeBackRev_reverse_reverse hlt hxs hys hSx hSy, List.reverse_reverse]
  have hMlen := (mergeFront_perm lt xs ys).length_eq
  rw [hback] at hb
  rw [List.length_append] at hMlen
  generalize frontSteps lt xs.length xs ys = F at *
  generalize backSteps lt xs.length xs.reverse ys.reverse = B at *
  generalize mergeFront lt xs ys = M at *
  obtain ⟨fo, fa, fb⟩ := F
  obtain ⟨bo, ba, bb⟩ := B
  dsimp only at *
  -- the back steps wrote the end of the merge, last element first
  have hM : M = (mergeBackRev lt (xs.reverse.drop ba) (ys.reverse.drop bb)).reverse ++ bo.reverse := by
    rw [← List.reverse_append, hb, List.reverse_reverse]
  have htail : (M.drop xs.length).drop (ys.length - xs.length) = bo.reverse := by
    have hlenM := congrArg List.length hM
    simp only [List.length_append, List.length_reverse] at hlenM
    rw [List.drop_drop, hM]
    exact List.drop_left' (by simp only [List.length_reverse]; omega)
  have hhead : M.take xs.length = fo := by
    rw [← hf]
    exact List.take_left' (by omega)
  have hmid : M.drop xs.length = mergeFront lt (xs.drop fa) (ys.drop fb) := by
    rw [← hf]
    exact List.drop_left' (by omega)
  calc M = M.take xs.length ++ (M.drop xs.length).take (ys.length - xs.length) ++
        (M.drop xs.length).drop (ys.length - xs.length) := by
        rw [List.append_assoc, List.take_append_drop, List.take_append_drop]
    _ = _ := by rw [htail, hhead, hmid]

/-- Two sorted halves merged from both ends: the ends meet, the check passes, and the result is
the merge from the front. -/
theorem mergeBoth_eq [Inhabited α] {v : List α} (hl : Sorted lt (v.take (v.length / 2)))
    (hr : Sorted lt (v.drop (v.length / 2))) (hS : ∀ x ∈ v, S x) :
    mergeBoth lt v = .ok (mergeFront lt (v.take (v.length / 2)) (v.drop (v.length / 2))) := by
  have hLlen : (v.take (v.length / 2)).length = v.length / 2 := by
    simp only [List.length_take]
    omega
  have hRlen : (v.drop (v.length / 2)).length = v.length - v.length / 2 := List.length_drop
  have hSL : ∀ x ∈ v.take (v.length / 2), S x := fun x hx => hS x (List.mem_of_mem_take hx)
  have hSR : ∀ x ∈ v.drop (v.length / 2), S x := fun x hx => hS x (List.mem_of_mem_drop hx)
  simp only [mergeBoth]
  generalize v.take (v.length / 2) = L at *
  generalize v.drop (v.length / 2) = R at *
  generalize v.length = n at *
  rw [frontSteps_tag, backSteps_tag, mergeFront_tag, List.map_reverse, List.map_reverse]
  have hX : ∀ p ∈ L.map fun x => (x, false), p.2 = false := by simp
  have hY : ∀ p ∈ R.map fun y => (y, true), p.2 = true := by simp
  have hmeet := mergeFront_front_back (sideLt_strictWeakOn hlt) (sorted_tag hl false)
    (sorted_tag hr true) (by simpa using hSL) (by simpa using hSR) (by simp only [List.length_map]; omega)
  obtain ⟨hfc, -⟩ := frontSteps_append (sideLt lt) (n / 2) (L.map fun x => (x, false))
    (R.map fun y => (y, true)) (by simp only [List.length_map]; omega) (by simp only [List.length_map]; omega)
  obtain ⟨hbc, -⟩ := backSteps_append (sideLt lt) (n / 2) (L.map fun x => (x, false)).reverse
    (R.map fun y => (y, true)).reverse (by simp only [List.length_reverse, List.length_map]; omega)
    (by simp only [List.length_reverse, List.length_map]; omega)
  have hfp := frontSteps_perm (sideLt lt) (n / 2) (L.map fun x => (x, false)) (R.map fun y => (y, true))
  have hbp := backSteps_perm (sideLt lt) (n / 2) (L.map fun x => (x, false)).reverse
    (R.map fun y => (y, true)).reverse
  have hMp := mergeFront_perm (sideLt lt) (L.map fun x => (x, false)) (R.map fun y => (y, true))
  simp only [List.length_map, hLlen, hRlen] at hmeet
  generalize frontSteps (sideLt lt) (n / 2) (L.map fun x => (x, false)) (R.map fun y => (y, true)) = F
    at *
  generalize backSteps (sideLt lt) (n / 2) (L.map fun x => (x, false)).reverse
    (R.map fun y => (y, true)).reverse = B at *
  generalize mergeFront (sideLt lt) (L.map fun x => (x, false)) (R.map fun y => (y, true)) = M at *
  obtain ⟨fo, fa, fb⟩ := F
  obtain ⟨bo, ba, bb⟩ := B
  dsimp only at *
  -- count the elements of each side at the front, in the middle and at the back
  obtain ⟨hfl, hfr⟩ := countP_side hfp hX hY (by simp only [List.length_map]; omega)
    (by simp only [List.length_map]; omega)
  obtain ⟨hbl, hbr⟩ := countP_side hbp (fun p hp => hX p (List.mem_reverse.1 hp))
    (fun p hp => hY p (List.mem_reverse.1 hp)) (by simp only [List.length_reverse, List.length_map]; omega)
    (by simp only [List.length_reverse, List.length_map]; omega)
  have hMl := hMp.countP_eq fun p => !p.2
  have hMr := hMp.countP_eq fun p => p.2
  simp only [List.countP_append, List.countP_map, Function.comp_def, Bool.not_false, Bool.not_true,
    List.countP_true, List.countP_false, Function.const_apply, hLlen, hRlen] at hMl hMr
  rw [hmeet] at hMl hMr
  simp only [List.countP_append, List.countP_reverse, hfl, hfr, hbl, hbr] at hMl hMr
  generalize hT : mergeFront (sideLt lt) (List.drop fa (L.map fun x => (x, false)))
    (List.drop fb (R.map fun y => (y, true))) = T at hmeet hMl hMr
  by_cases heven : n % 2 = 0
  · -- the ends meet exactly
    rw [show n - n / 2 - n / 2 = 0 by omega, List.take_zero] at hmeet hMl hMr
    simp only [List.countP_nil] at hMl hMr
    simp only [heven, if_true]
    rw [if_pos ⟨by omega, by omega⟩, hmeet]
    simp [List.map_reverse]
  · -- one element lies between the ends: the first one the front steps left
    rw [show n - n / 2 - n / 2 = 1 by omega] at hmeet hMl hMr
    cases T with
    | nil =>
      simp only [List.take_nil, List.countP_nil] at hMl hMr
      omega
    | cons m T =>
      simp only [List.take_succ_cons, List.take_zero] at hmeet hMl hMr
      have hhead := mergeFront_head? (sideLt lt) (List.drop fa (L.map fun x => (x, false)))
        (List.drop fb (R.map fun y => (y, true)))
      rw [hT, List.head?_cons, List.head?_drop, List.head?_drop, List.getElem?_map,
        List.getElem?_map] at hhead
      simp only [heven, if_false]
      have hside := getElem?_of_head hhead
      cases hm : m.2
      · -- from the left half
        simp only [List.countP_cons, List.countP_nil, hm, Bool.not_false, if_true] at hMl hMr
        simp only [Bool.false_eq_true, if_false] at hMr
        rw [if_pos (show fa < n / 2 - ba by omega)]
        dsimp only
        rw [if_pos ⟨by omega, by omega⟩, hmeet]
        simp [List.getD_eq_getElem?_getD, hside.1 hm, List.map_reverse]
      · -- from the right half
        simp only [List.countP_cons, List.countP_nil, hm, Bool.not_true, if_true] at hMl hMr
        simp only [Bool.false_eq_true, if_false] at hMl
        rw [if_neg (show ¬fa < n / 2 - ba by omega)]
        dsimp only
        rw [if_pos ⟨by omega, by omega⟩, hmeet]
        simp [List.getD_eq_getElem?_getD, hside.2 hm, List.map_reverse]

/-! ## Short sequences -/

theorem sortEight_sorted [Inhabited α] {v : List α} (hlen : v.length = 8) (hS : ∀ x ∈ v, S x) :
    ∃ w, sortEight lt v = .ok w ∧ Sorted lt w := by
  obtain ⟨a, b, c, d, e, f, g, h, rfl⟩ : ∃ a b c d e f g h, v = [a, b, c, d, e, f, g, h] := by
    rcases v with _ | ⟨a, _ | ⟨b, _ | ⟨c, _ | ⟨d, _ | ⟨e, _ | ⟨f, _ | ⟨g, _ | ⟨h, _ | ⟨i, t⟩⟩⟩⟩⟩⟩⟩⟩⟩ <;>
      simp at hlen
    exact ⟨a, b, c, d, e, f, g, h, rfl⟩
  -- the two sorted fours are the halves the merge from both ends takes
  have hS4 : ∀ {p q r s : α}, S p → S q → S r → S s → ∀ x ∈ sortFour lt p q r s, S x := by
    intro p q r s hp hq hr hs x hx
    rcases List.mem_cons.1 ((sortFour_perm lt p q r s).mem_iff.1 hx) with rfl | hx
    · exact hp
    · simp only [List.mem_cons, List.not_mem_nil, or_false] at hx
      rcases hx with rfl | rfl | rfl <;> assumption
  simp only [List.mem_cons, List.not_mem_nil, or_false, forall_eq_or_imp, forall_eq] at hS
  obtain ⟨ha, hb, hc, hd, he, hf, hg, hh⟩ := hS
  have hsa := sortFour_sorted hlt ha hb hc hd
  have hse := sortFour_sorted hlt he hf hg hh
  have hhalf : (sortFour lt a b c d ++ sortFour lt e f g h).length / 2 = 4 := by
    rw [List.length_append, sortFour_length, sortFour_length]
  have hL : (sortFour lt a b c d ++ sortFour lt e f g h).take 4 = sortFour lt a b c d :=
    List.take_left' (sortFour_length lt a b c d)
  have hR : (sortFour lt a b c d ++ sortFour lt e f g h).drop 4 = sortFour lt e f g h :=
    List.drop_left' (sortFour_length lt a b c d)
  have heq := mergeBoth_eq hlt (v := sortFour lt a b c d ++ sortFour lt e f g h)
    (by rw [hhalf, hL]; exact hsa) (by rw [hhalf, hR]; exact hse) fun x hx => by
      rcases List.mem_append.1 hx with hx | hx
      · exact hS4 ha hb hc hd x hx
      · exact hS4 he hf hg hh x hx
  rw [hhalf, hL, hR] at heq
  exact ⟨_, heq, mergeFront_sorted hlt hsa hse (hS4 ha hb hc hd) (hS4 he hf hg hh)⟩

theorem presortHalf_sorted [Inhabited α] {n : Nat} {half : List α} (hS : ∀ x ∈ half, S x)
    (h16 : 16 ≤ n → 8 ≤ half.length) (h8 : 8 ≤ n → 4 ≤ half.length) :
    ∃ r, presortHalf lt n half = .ok r ∧ Sorted lt r.2 := by
  unfold presortHalf
  split
  · rename_i hn
    obtain ⟨w, hw, hsorted⟩ := sortEight_sorted hlt (v := half.take 8)
      (by simp only [List.length_take]; have := h16 hn; omega)
      fun x hx => hS x (List.mem_of_mem_take hx)
    rw [hw]
    exact ⟨(8, w), rfl, hsorted⟩
  · split
    · rename_i hn16 hn
      have hlen : (half.take 4).length = 4 := by
        simp only [List.length_take]
        have := h8 hn
        omega
      obtain ⟨a, b, c, d, h4⟩ : ∃ a b c d, half.take 4 = [a, b, c, d] := by
        generalize half.take 4 = l at hlen
        rcases l with _ | ⟨a, _ | ⟨b, _ | ⟨c, _ | ⟨d, _ | ⟨e, t⟩⟩⟩⟩⟩ <;> simp at hlen
        exact ⟨a, b, c, d, rfl⟩
      have hmem : ∀ x ∈ [a, b, c, d], S x := fun x hx =>
        hS x (List.mem_of_mem_take (by rw [h4]; exact hx))
      simp only [List.mem_cons, List.not_mem_nil, or_false, forall_eq_or_imp, forall_eq] at hmem
      simp only [h4]
      exact ⟨_, rfl, sortFour_sorted hlt hmem.1 hmem.2.1 hmem.2.2.1 hmem.2.2.2⟩
    · exact ⟨_, rfl, sorted_of_length_le_one (by simp only [List.length_take]; omega)⟩

theorem smallSort_sorted [Inhabited α] {v : List α} (hS : ∀ x ∈ v, S x) :
    ∃ w, smallSort lt v = .ok w ∧ Sorted lt w := by
  unfold smallSort
  split
  · exact ⟨v, rfl, sorted_of_length_le_one (by omega)⟩
  · rename_i hlen
    have hSL : ∀ x ∈ v.take (v.length / 2), S x := fun x hx => hS x (List.mem_of_mem_take hx)
    have hSR : ∀ x ∈ v.drop (v.length / 2), S x := fun x hx => hS x (List.mem_of_mem_drop hx)
    obtain ⟨l0, hl0, hl0s⟩ := presortHalf_sorted hlt (n := v.length) hSL
      (fun h => by simp only [List.length_take]; omega) (fun h => by simp only [List.length_take]; omega)
    obtain ⟨r0, hr0, hr0s⟩ := presortHalf_sorted hlt (n := v.length) hSR
      (fun h => by simp only [List.length_drop]; omega) (fun h => by simp only [List.length_drop]; omega)
    dsimp only
    rw [hl0, except_ok_bind, hr0, except_ok_bind]
    -- each half is its presorted prefix extended by insertion
    have hpl := extendRun_take_perm lt (presortHalf_perm hl0)
    have hpr := extendRun_take_perm lt (presortHalf_perm hr0)
    have hsl := extendRun_sorted hlt hl0s fun x hx => hSL x
      ((((presortHalf_perm hl0).append_right _).trans (.of_eq (List.take_append_drop _ _))).subset hx)
    have hsr := extendRun_sorted hlt hr0s fun x hx => hSR x
      ((((presortHalf_perm hr0).append_right _).trans (.of_eq (List.take_append_drop _ _))).subset hx)
    have hlenl := hpl.length_eq
    have hlenr := hpr.length_eq
    simp only [List.length_take, List.length_drop] at hlenl hlenr
    generalize extendRun lt l0.2 ((v.take (v.length / 2)).drop l0.1) = el at *
    generalize extendRun lt r0.2 ((v.drop (v.length / 2)).drop r0.1) = er at *
    have hhalf : (el ++ er).length / 2 = el.length := by
      rw [List.length_append]
      omega
    have heq := mergeBoth_eq hlt (v := el ++ er) (by rw [hhalf, List.take_left' rfl]; exact hsl)
      (by rw [hhalf, List.drop_left' rfl]; exact hsr) fun x hx => by
        rcases List.mem_append.1 hx with hx | hx
        · exact hSL x (hpl.subset hx)
        · exact hSR x (hpr.subset hx)
    rw [hhalf, List.take_left' rfl, List.drop_left' rfl] at heq
    exact ⟨_, heq, mergeFront_sorted hlt hsl hsr (fun x hx => hSL x (hpl.subset hx))
      (fun x hx => hSR x (hpr.subset hx))⟩

end Meet

end Sorting

end ClusterScheduler
