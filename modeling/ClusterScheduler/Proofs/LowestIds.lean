import ClusterScheduler.Proofs.MatchGrowth

/-!
# The lowest ids of a set

`firstN` takes the `n` lowest ids of a set by walking its runs from the bottom and measuring each
run it reaches as a 32-bit count. Measuring overflows only on a run of `2^32` ids; among 32-bit
ids that is the run `0..=4294967295`, which is then the whole set, and it is reached as soon as one
id is wanted. Every other walk succeeds, and the ids it takes are the first ones of the set in
increasing order: `n` ids of the set, each below every id of the set left out.
-/

namespace ClusterScheduler

namespace IdSet

theorem span_eq_full {sp : Span} (hhi : sp.hi ≤ Word.u32.hi.toNat)
    (hsize : Word.u32.hi.toNat < sp.size) : sp = ⟨0, Word.u32.hi.toNat⟩ := by
  obtain ⟨lo, hi⟩ := sp
  simp only [Span.size] at hsize hhi
  obtain rfl : lo = 0 := by omega
  obtain rfl : hi = Word.u32.hi.toNat := by omega
  rfl

theorem eq_full_of_long_span {s : IdSet} {sp : Span} (hs : ∀ x ∈ s, x ≤ Word.u32.hi.toNat)
    (hsp : sp ∈ s.spans) (hsize : Word.u32.hi.toNat < sp.size) : s = range 0 Word.u32.hi.toNat := by
  have hfull := span_eq_full (hs sp.hi ⟨sp, hsp, lo_le_of_mem_spans hsp, Nat.le_refl _⟩) hsize
  refine ext fun x => ?_
  rw [mem_range]
  constructor
  · exact fun hx => ⟨Nat.zero_le x, hs x hx⟩
  · rintro ⟨-, hx⟩
    exact ⟨sp, hsp, by rw [hfull]; exact ⟨Nat.zero_le x, hx⟩⟩

theorem takeLow_error : ∀ (spans : List Span) (n : Nat) {e : Fault}, takeLow spans n = .error e →
    0 < n ∧ e = .addOverflow ∧ ∃ sp ∈ spans, Word.u32.hi.toNat < sp.size
  | [], _, _, h => by cases h
  | sp :: rest, n, e, h => by
    simp only [takeLow] at h
    split at h
    · cases h
    · rename_i hn
      simp only [Span.size32] at h
      split at h
      · rename_i hfit
        rw [except_ok_bind] at h
        split at h
        · cases ht : takeLow rest (n - sp.size) with
          | error e' =>
            rw [ht] at h
            cases h
            obtain ⟨-, rfl, q, hq, hqsize⟩ := takeLow_error rest (n - sp.size) ht
            exact ⟨by omega, rfl, q, List.mem_cons_of_mem _ hq, hqsize⟩
          | ok tail => rw [ht] at h; cases h
        · cases h
      · rename_i hbig
        cases h
        exact ⟨by omega, rfl, sp, List.mem_cons_self, by omega⟩

theorem mem_firstN {s r : IdSet} {n : Nat} (h : s.firstN n = .ok (some r)) {x : Nat} :
    x ∈ r ↔ x ∈ s.toList.take n := by
  simp only [firstN] at h
  split at h
  · cases h
  · obtain ⟨out, hout, h⟩ := except_bind_eq_ok h
    simp only [pure, Except.pure, Except.ok.injEq, Option.some.injEq] at h
    subst h
    rw [mem_ofSpans, toList_eq, ← takeLow_ids s.spans n hout, List.mem_flatMap]
    simp only [Span.mem_ids]

theorem lt_of_mem_firstN {s r : IdSet} {n : Nat} (h : s.firstN n = .ok (some r)) {x y : Nat}
    (hx : x ∈ r) (hy : y ∈ s) (hyr : y ∉ r) : x < y := by
  have hsorted := toList_sorted s
  rw [← List.take_append_drop n s.toList, List.pairwise_append] at hsorted
  have hy' : y ∈ s.toList.drop n := by
    have hys := mem_toList.2 hy
    rw [← List.take_append_drop n s.toList, List.mem_append] at hys
    exact hys.resolve_left fun hyt => hyr ((mem_firstN h).2 hyt)
  exact hsorted.2.2 x ((mem_firstN h).1 hx) y hy'

theorem eq_full_of_firstN_error {s : IdSet} {n : Nat} {e : Fault}
    (hs : ∀ x ∈ s, x ≤ Word.u32.hi.toNat) (h : s.firstN n = .error e) :
    s = range 0 Word.u32.hi.toNat ∧ 0 < n ∧ e = .addOverflow := by
  simp only [firstN] at h
  split at h
  · cases h
  · cases ht : takeLow s.spans n with
    | ok out => rw [ht] at h; cases h
    | error e' =>
      rw [ht] at h
      cases h
      obtain ⟨hn, rfl, sp, hsp, hsize⟩ := takeLow_error s.spans n ht
      exact ⟨eq_full_of_long_span hs hsp hsize, hn, rfl⟩

theorem firstN_full_error {n : Nat} (hn : 0 < n) (hmax : n ≤ Word.u32.hi.toNat) :
    (range 0 Word.u32.hi.toNat).firstN n = .error .addOverflow := by
  have hspans : (range 0 Word.u32.hi.toNat).spans = [⟨0, Word.u32.hi.toNat⟩] := rfl
  have hcard := card_range 0 Word.u32.hi.toNat
  have hsize : (⟨0, Word.u32.hi.toNat⟩ : Span).size32 = .error .addOverflow := by
    simp only [Span.size32]
    split
    · rename_i hfit
      simp only [Span.size] at hfit
      omega
    · rfl
  simp only [firstN]
  rw [if_neg (by omega), hspans]
  simp only [takeLow, Nat.pos_iff_ne_zero.1 hn, if_false, hsize]
  rfl

theorem firstN_some {s : IdSet} {n : Nat} (hs : ∀ x ∈ s, x ≤ Word.u32.hi.toNat)
    (hcard : n ≤ s.card) (hnot : ¬(s = range 0 Word.u32.hi.toNat ∧ 0 < n)) :
    ∃ r, s.firstN n = .ok (some r) := by
  cases hv : s.firstN n with
  | error e => exact absurd ⟨(eq_full_of_firstN_error hs hv).1, (eq_full_of_firstN_error hs hv).2.1⟩ hnot
  | ok v =>
    cases v with
    | some r => exact ⟨r, rfl⟩
    | none =>
      simp only [firstN] at hv
      split at hv
      · omega
      · obtain ⟨out, -, hv⟩ := except_bind_eq_ok hv
        cases hv

/-- The `n` lowest ids of a set of 32-bit ids, for a 32-bit count `n`: there are none when the
set has fewer ids; the walk overflows exactly when the set is the whole range `0..=4294967295`
and an id is wanted; otherwise it gives `n` ids of the set, each below every id left out. -/
theorem firstN_takes_lowest (s : IdSet) (n : Nat) (hs : ∀ x ∈ s, x ≤ Word.u32.hi.toNat)
    (hn : n ≤ Word.u32.hi.toNat) :
    (s.firstN n = .ok none ↔ s.card < n) ∧
    (s.firstN n = .error .addOverflow ↔ s = range 0 Word.u32.hi.toNat ∧ 0 < n) ∧
    (n ≤ s.card → ¬(s = range 0 Word.u32.hi.toNat ∧ 0 < n) →
      ∃ r, s.firstN n = .ok (some r) ∧ r ⊆ s ∧ r.card = n ∧
        ∀ x ∈ r, ∀ y ∈ s, y ∉ r → x < y) := by
  refine ⟨⟨fun h => ?_, fun h => by simp [firstN, h]⟩, ⟨fun h => ?_, ?_⟩, ?_⟩
  · simp only [firstN] at h
    split at h
    · assumption
    · obtain ⟨out, -, h⟩ := except_bind_eq_ok h
      cases h
  · obtain ⟨hfull, hpos, -⟩ := eq_full_of_firstN_error hs h
    exact ⟨hfull, hpos⟩
  · rintro ⟨rfl, hpos⟩
    exact firstN_full_error hpos hn
  · intro hcard hnot
    obtain ⟨r, hr⟩ := firstN_some hs hcard hnot
    exact ⟨r, hr, firstN_subset hr, card_firstN hr, fun x hx y hy hyr => lt_of_mem_firstN hr hx hy hyr⟩

/-- The runs `1..=3`, `7..=10` and `20`: five ids are the first three runs' first five. -/
theorem firstN_takes_lowest_of_three_runs :
    let s := ofSpans [⟨1, 3⟩, ⟨7, 10⟩, ⟨20, 20⟩]
    (∀ x ∈ s, x ≤ Word.u32.hi.toNat) ∧ 5 ≤ Word.u32.hi.toNat ∧
      (s.firstN 5 = .ok none ↔ s.card < 5) ∧
      (s.firstN 5 = .error .addOverflow ↔ s = range 0 Word.u32.hi.toNat ∧ 0 < 5) ∧
      (5 ≤ s.card → ¬(s = range 0 Word.u32.hi.toNat ∧ 0 < 5) →
        ∃ r, s.firstN 5 = .ok (some r) ∧ r ⊆ s ∧ r.card = 5 ∧
          ∀ x ∈ r, ∀ y ∈ s, y ∉ r → x < y) := by
  intro s
  have hs : ∀ x ∈ s, x ≤ Word.u32.hi.toNat := by
    intro x hx
    obtain ⟨sp, hsp, -, hx⟩ := mem_ofSpans.1 hx
    have : sp.hi ≤ 20 := by
      simp only [List.mem_cons, List.not_mem_nil, or_false] at hsp
      rcases hsp with rfl | rfl | rfl <;> decide
    have : (20 : Nat) ≤ Word.u32.hi.toNat := by decide
    omega
  exact ⟨hs, by decide, firstN_takes_lowest s 5 hs (by decide)⟩

end IdSet

end ClusterScheduler
