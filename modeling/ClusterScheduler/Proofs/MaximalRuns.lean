import ClusterScheduler.Proofs.LowestIds

/-!
# Contiguous matching on maximal runs

The maximal runs of a set of ids are its stretches of consecutive ids that no id of the set
extends on either side. They are exactly the spans of the set's canonical form, so contiguous
matching, which walks the spans, chooses among maximal runs: the first-fit matcher takes the
lowest run holding the count asked, the best-fit one the shortest such run, the lowest of equally
short ones, and neither finds anything when no run is long enough.

From the run chosen the matcher takes the lowest ids. It computes the last one as
`lo + count - 1` in 32-bit arithmetic, and the sum `lo + count` leaves the word exactly when the
ids taken end at `4294967295`, the largest id: there the matcher stops on an overflow instead of
answering.
-/

namespace ClusterScheduler

theorem Canonical.gap_below {l : List Span} (hc : Canonical l) {sp : Span} (hsp : sp ∈ l)
    {p : Nat} (hp : p + 1 = sp.lo) : ¬∃ q ∈ l, q.Covers p := by
  rintro ⟨q, hq, hlo, hhi⟩
  obtain ⟨pre, post, hsplit⟩ := List.append_of_mem hsp
  have hpw := hc.pairwise
  rw [hsplit, List.pairwise_append] at hpw
  rw [hsplit] at hq
  rcases List.mem_append.1 hq with hq | hq
  · have := hpw.2.2 q hq sp List.mem_cons_self
    omega
  · rcases List.mem_cons.1 hq with rfl | hq
    · omega
    · have := List.rel_of_pairwise_cons hpw.2.1 hq
      have := hc.lo_le sp hsp
      omega

namespace Span

def FitsBefore (a b : Span) : Prop := a.size < b.size ∨ (a.size = b.size ∧ a.lo ≤ b.lo)

theorem FitsBefore.refl (a : Span) : a.FitsBefore a := .inr ⟨rfl, Nat.le_refl _⟩

theorem FitsBefore.trans {a b c : Span} (hab : a.FitsBefore b) (hbc : b.FitsBefore c) :
    a.FitsBefore c := by
  unfold FitsBefore at *
  omega

end Span

namespace IdSet

/-- `sp` is a maximal run of `s`: a non-empty span of ids of `s` that no id of `s` extends on
either side. -/
structure MaximalRun (s : IdSet) (sp : Span) : Prop where
  nonempty : sp.lo ≤ sp.hi
  within : ∀ x, sp.Covers x → x ∈ s
  below : ∀ p, p + 1 = sp.lo → p ∉ s
  above : sp.hi + 1 ∉ s

/-- The lowest maximal run of `s` holding `count` ids. -/
structure FirstFit (s : IdSet) (count : Nat) (sp : Span) : Prop where
  run : s.MaximalRun sp
  fits : count ≤ sp.size
  lowest : ∀ q, s.MaximalRun q → count ≤ q.size → sp.lo ≤ q.lo

/-- The shortest maximal run of `s` holding `count` ids, the lowest of equally short ones. -/
structure BestFit (s : IdSet) (count : Nat) (sp : Span) : Prop where
  run : s.MaximalRun sp
  fits : count ≤ sp.size
  first : ∀ q, s.MaximalRun q → count ≤ q.size → sp.FitsBefore q

theorem MaximalRun.eq_of_lo_eq {s : IdSet} {a b : Span} (ha : s.MaximalRun a)
    (hb : s.MaximalRun b) (hlo : a.lo = b.lo) : a = b := by
  have hhi : a.hi = b.hi := by
    have := ha.nonempty
    have := hb.nonempty
    rcases Nat.lt_trichotomy a.hi b.hi with hlt | heq | hgt
    · exact absurd (hb.within (a.hi + 1) ⟨by omega, by omega⟩) ha.above
    · exact heq
    · exact absurd (ha.within (b.hi + 1) ⟨by omega, by omega⟩) hb.above
  cases a
  cases b
  simp only at hlo hhi
  rw [hlo, hhi]

theorem MaximalRun.of_mem_spans {s : IdSet} {sp : Span} (hsp : sp ∈ s.spans) :
    s.MaximalRun sp where
  nonempty := lo_le_of_mem_spans hsp
  within _ hx := ⟨sp, hsp, hx⟩
  below _ hp hmem := s.canonical.gap_below hsp hp hmem
  above := hi_succ_not_mem hsp

theorem MaximalRun.mem_spans {s : IdSet} {sp : Span} (hr : s.MaximalRun sp) : sp ∈ s.spans := by
  obtain ⟨q, hq, hqlo, hqhi⟩ := hr.within sp.lo ⟨Nat.le_refl _, hr.nonempty⟩
  -- the span covering the run's first id starts there too, the id before being absent
  have hlo : q.lo = sp.lo := by
    refine Nat.le_antisymm hqlo (Nat.le_of_not_lt fun hlt => ?_)
    exact hr.below (sp.lo - 1) (by omega) ⟨q, hq, by omega, by omega⟩
  rwa [← (MaximalRun.of_mem_spans hq).eq_of_lo_eq hr hlo]

theorem mem_spans_iff {s : IdSet} {sp : Span} : sp ∈ s.spans ↔ s.MaximalRun sp :=
  ⟨MaximalRun.of_mem_spans, MaximalRun.mem_spans⟩

theorem size_le_of_ne_full {s : IdSet} (hs : ∀ x ∈ s, x ≤ Word.u32.hi.toNat)
    (hne : s ≠ range 0 Word.u32.hi.toNat) : ∀ sp ∈ s.spans, sp.size ≤ Word.u32.hi.toNat :=
  fun _ hsp => Nat.le_of_not_lt fun hsize => hne (eq_full_of_long_span hs hsp hsize)

theorem spans_lo_lt (s : IdSet) : s.spans.Pairwise fun a b => a.lo < b.lo :=
  s.canonical.pairwise.imp_of_mem fun ha _ hab => by
    have := lo_le_of_mem_spans ha
    omega

end IdSet

namespace Hierarchy

open IdSet

/-- The answer of contiguous matching from a run: its `count` lowest ids, or an overflow when the
sum `lo + count`, from which the last id is computed, is past the largest 32-bit id. -/
def lowestOfRun (sp : Span) (count : Nat) : Except Fault (Option IdSet) :=
  if sp.lo + count ≤ Word.u32.hi.toNat then .ok (some (IdSet.range sp.lo (sp.lo + count - 1)))
  else .error .addOverflow

theorem runPrefix_of_pos {start count : Nat} (hc : 0 < count) :
    runPrefix start count = if start + count ≤ Word.u32.hi.toNat
      then .ok (IdSet.range start (start + count - 1)) else .error .addOverflow := by
  by_cases hroom : start + count ≤ Word.u32.hi.toNat
  · have hadd : Word.u32.add start count = .ok (start + count) :=
      Word.add_ok ⟨by simp only [Word.u32]; omega, by simp only [Word.u32] at hroom ⊢; omega⟩
    have hsub : Word.u32.sub ((start : Int) + count) 1 = .ok (start + count - 1) :=
      Word.sub_ok ⟨by simp only [Word.u32]; omega, by simp only [Word.u32] at hroom ⊢; omega⟩
    have hend : ((start : Int) + count - 1).toNat = start + count - 1 := by omega
    simp only [runPrefix, hadd, except_ok_bind, hsub, hend, if_pos hroom]
    rw [if_neg (by omega)]
    rfl
  · have hadd : Word.u32.add start count = .error .addOverflow := by
      unfold Word.add
      rw [if_neg]
      rw [Word.holds, decide_eq_true_iff]
      simp only [Word.u32] at hroom ⊢
      omega
    simp only [runPrefix, hadd, except_error_bind, if_neg hroom]

theorem contiguous_of_search {h : Hierarchy} {S : IdSet} {l : LevelCount} {bestFit : Bool}
    {sp : Span} (hunit : h.isUnit l.level = true) (hc : 0 < l.count)
    (hrun : runSearch bestFit l.count S.spans = .ok (some sp)) :
    h.contiguous S [l] bestFit = lowestOfRun sp l.count := by
  rw [contiguous_unit hunit, hrun, except_ok_bind, Option.elim, runPrefix_of_pos hc, lowestOfRun]
  split <;> rfl

theorem contiguous_of_short {h : Hierarchy} {S : IdSet} {l : LevelCount} (bestFit : Bool)
    (hunit : h.isUnit l.level = true) (hfit : ∀ sp ∈ S.spans, sp.size ≤ Word.u32.hi.toNat)
    (hshort : ∀ sp ∈ S.spans, sp.size < l.count) : h.contiguous S [l] bestFit = .ok none := by
  obtain ⟨v, hv⟩ := runSearch_ok bestFit l.count hfit
  rw [contiguous_unit hunit, hv, except_ok_bind]
  cases v with
  | none => rfl
  | some sp =>
    obtain ⟨hsp, hle⟩ := runSearch_some hv
    exact absurd hle (Nat.not_le.2 (hshort sp hsp))

theorem firstRun_of_firstFit {S : IdSet} {count : Nat} {sp : Span}
    (hfit : ∀ q ∈ S.spans, q.size ≤ Word.u32.hi.toNat) (hf : S.FirstFit count sp) :
    firstRun count S.spans = .ok (some sp) := by
  obtain ⟨v, hv⟩ := @firstRun_ok count S.spans hfit
  cases v with
  | none => exact absurd hf.fits (Nat.not_le.2 (firstRun_none S.spans hv sp hf.run.mem_spans))
  | some r =>
    obtain ⟨hr, hrfit⟩ := firstRun_spec S.spans hv
    have hle := firstRun_first S.canonical hv sp hf.run.mem_spans hf.fits
    have hge := hf.lowest r (.of_mem_spans hr) hrfit
    rw [hv, (MaximalRun.of_mem_spans hr).eq_of_lo_eq hf.run (Nat.le_antisymm hle hge)]

theorem shortestRun_first {count : Nat} : ∀ (spans : List Span) (best : Option Span) {r : Span},
    (∀ sp ∈ spans, sp.lo ≤ sp.hi) → spans.Pairwise (fun a b => a.lo < b.lo) →
    (∀ b ∈ best, b.lo ≤ b.hi ∧ ∀ q ∈ spans, b.lo < q.lo) →
    shortestRun count spans best = .ok (some r) →
    (∀ b ∈ best, r.FitsBefore b) ∧ ∀ q ∈ spans, count ≤ q.size → r.FitsBefore q
  | [], best, r, _, _, _, h => by
    simp only [shortestRun, Except.ok.injEq] at h
    subst h
    exact ⟨fun b hb => Option.mem_some_iff.1 hb ▸ Span.FitsBefore.refl b, fun q hq => by cases hq⟩
  | sp :: rest, best, r, hne, hsorted, hbest, h => by
    have hsp := hne sp List.mem_cons_self
    have hrest : ∀ q ∈ rest, q.lo ≤ q.hi := fun q hq => hne q (List.mem_cons_of_mem _ hq)
    obtain ⟨hhead, htail⟩ := List.pairwise_cons.1 hsorted
    simp only [shortestRun] at h
    obtain ⟨n, hn, h⟩ := except_bind_eq_ok h
    obtain rfl := size32_eq hn
    split at h
    · -- the search goes on with a best run `c` coming first among the run and the best before it
      have hnext : ∃ c, shortestRun count rest (some c) = .ok (some r) ∧ c.lo ≤ c.hi ∧
          (∀ q ∈ rest, c.lo < q.lo) ∧ c.FitsBefore sp ∧ ∀ b ∈ best, c.FitsBefore b := by
        cases best with
        | none => exact ⟨sp, h, hsp, hhead, .refl sp, fun b hb => absurd hb (Option.not_mem_none b)⟩
        | some b =>
          obtain ⟨hb, hblo⟩ := hbest b rfl
          dsimp only at h
          split at h
          · -- a strictly shorter run replaces the best one
            rename_i hshorter
            simp only [decide_eq_true_eq] at hshorter
            refine ⟨sp, h, hsp, hhead, .refl sp, fun b' hb' => ?_⟩
            obtain rfl := Option.mem_some_iff.1 hb'
            left
            simp only [Span.size]
            omega
          · -- otherwise the best run stays, and it starts before this one
            rename_i hlonger
            simp only [decide_eq_true_eq] at hlonger
            have := hblo sp List.mem_cons_self
            refine ⟨b, h, hb, fun q hq => hblo q (List.mem_cons_of_mem _ hq), ?_, fun b' hb' => ?_⟩
            · unfold Span.FitsBefore Span.size
              omega
            · obtain rfl := Option.mem_some_iff.1 hb'
              exact .refl b
      obtain ⟨c, hc, hclo, hcrest, hcsp, hcbest⟩ := hnext
      obtain ⟨hr, hrq⟩ := shortestRun_first rest (some c) hrest htail
        (fun c' hc' => Option.mem_some_iff.1 hc' ▸ ⟨hclo, hcrest⟩) hc
      have hrc := hr c rfl
      exact ⟨fun b hb => hrc.trans (hcbest b hb),
        List.forall_mem_cons.2 ⟨fun _ => hrc.trans hcsp, hrq⟩⟩
    · -- a run too short leaves the best one as it is
      rename_i hshort
      obtain ⟨hr, hrq⟩ := shortestRun_first rest best hrest htail
        (fun b hb => ⟨(hbest b hb).1, fun q hq => (hbest b hb).2 q (List.mem_cons_of_mem _ hq)⟩) h
      exact ⟨hr, List.forall_mem_cons.2 ⟨fun hfit => absurd hfit hshort, hrq⟩⟩

theorem shortestRun_of_bestFit {S : IdSet} {count : Nat} {sp : Span}
    (hfit : ∀ q ∈ S.spans, q.size ≤ Word.u32.hi.toNat) (hb : S.BestFit count sp) :
    shortestRun count S.spans none = .ok (some sp) := by
  obtain ⟨v, hv⟩ := @shortestRun_ok count S.spans none hfit
  cases v with
  | none =>
    exact absurd hb.fits (Nat.not_le.2 (shortestRun_none S.spans none hv sp hb.run.mem_spans))
  | some r =>
    rcases shortestRun_spec S.spans none hv with ⟨hr, hrfit⟩ | hnone
    · have hrsp := (shortestRun_first S.spans none (fun _ hq => lo_le_of_mem_spans hq)
        (spans_lo_lt S) (fun b hb => absurd hb (Option.not_mem_none b)) hv).2 sp
        hb.run.mem_spans hb.fits
      have hspr := hb.first r (.of_mem_spans hr) hrfit
      have hlo : r.lo = sp.lo := by
        unfold Span.FitsBefore at hrsp hspr
        omega
      rw [hv, (MaximalRun.of_mem_spans hr).eq_of_lo_eq hb.run hlo]
    · cases hnone

/-- Contiguous matching of one unit level among a set of 32-bit ids other than the whole range,
for a positive count: the first-fit matcher answers from the lowest maximal run holding the count,
the best-fit one from the shortest such run, the lowest of equally short ones, and both find
nothing when no maximal run holds the count. The answer from a run is its `count` lowest ids, or
an overflow when they end at the largest id. -/
theorem contiguous_takes_maximal_run (h : Hierarchy) (S : IdSet) (l : LevelCount)
    (hS : ∀ x ∈ S, x ≤ Word.u32.hi.toNat) (hfull : S ≠ IdSet.range 0 Word.u32.hi.toNat)
    (hunit : h.isUnit l.level = true) (hc : 0 < l.count) :
    (∀ sp, S.FirstFit l.count sp → h.contiguous S [l] false = lowestOfRun sp l.count) ∧
    (∀ sp, S.BestFit l.count sp → h.contiguous S [l] true = lowestOfRun sp l.count) ∧
    ((∀ sp, S.MaximalRun sp → sp.size < l.count) →
      ∀ bestFit, h.contiguous S [l] bestFit = .ok none) := by
  have hfit := size_le_of_ne_full hS hfull
  refine ⟨fun sp hf => contiguous_of_search hunit hc (firstRun_of_firstFit hfit hf),
    fun sp hb => contiguous_of_search hunit hc (shortestRun_of_bestFit hfit hb),
    fun hshort bestFit => contiguous_of_short bestFit hunit hfit fun sp hsp => ?_⟩
  exact hshort sp (.of_mem_spans hsp)

/-- The free runs `0..=1`, `3..=6` and `9..=11` and three ids of a unit level: first fit takes
`3..=5`, from the lowest run long enough, and best fit all of `9..=11`, the shortest one. -/
theorem contiguous_takes_maximal_run_three_runs :
    let h : Hierarchy := ⟨[("core", ⟨none, true⟩)]⟩
    let S := IdSet.range 0 1 ∪ IdSet.range 3 6 ∪ IdSet.range 9 11
    let l : LevelCount := ⟨"core", 3⟩
    ((∀ x ∈ S, x ≤ Word.u32.hi.toNat) ∧ S ≠ IdSet.range 0 Word.u32.hi.toNat ∧
      h.isUnit l.level = true ∧ 0 < l.count) ∧
    S.FirstFit l.count ⟨3, 6⟩ ∧ h.contiguous S [l] false = .ok (some (IdSet.range 3 5)) ∧
    S.BestFit l.count ⟨9, 11⟩ ∧ h.contiguous S [l] true = .ok (some (IdSet.range 9 11)) := by
  intro h S l
  have hspans : S.spans = [⟨0, 1⟩, ⟨3, 6⟩, ⟨9, 11⟩] := rfl
  have hruns : ∀ q, S.MaximalRun q → q = ⟨0, 1⟩ ∨ q = ⟨3, 6⟩ ∨ q = ⟨9, 11⟩ := by
    intro q hq
    simpa only [hspans, List.mem_cons, List.not_mem_nil, or_false] using hq.mem_spans
  have hS : ∀ x ∈ S, x ≤ Word.u32.hi.toNat := by
    intro x hx
    obtain ⟨sp, hsp, -, hxhi⟩ := hx
    rcases hruns sp (.of_mem_spans hsp) with rfl | rfl | rfl <;>
      simp only [Word.u32] at hxhi ⊢ <;> omega
  have hne : S ≠ IdSet.range 0 Word.u32.hi.toNat := by decide
  have hfirst : S.FirstFit l.count ⟨3, 6⟩ := by
    refine ⟨.of_mem_spans (by rw [hspans]; simp), by decide, fun q hq hfit => ?_⟩
    rcases hruns q hq with rfl | rfl | rfl
    · exact absurd hfit (by decide)
    · decide
    · decide
  have hbest : S.BestFit l.count ⟨9, 11⟩ := by
    refine ⟨.of_mem_spans (by rw [hspans]; simp), by decide, fun q hq hfit => ?_⟩
    rcases hruns q hq with rfl | rfl | rfl
    · exact absurd hfit (by decide)
    · exact .inl (by decide)
    · exact Span.FitsBefore.refl _
  obtain ⟨hfirstFit, hbestFit, -⟩ := contiguous_takes_maximal_run h S l hS hne rfl (by decide)
  exact ⟨⟨hS, hne, rfl, by decide⟩, hfirst, (hfirstFit _ hfirst).trans rfl, hbest,
    (hbestFit _ hbest).trans rfl⟩

/-- Runs whose lowest ids end at the largest id: first fit on the single id `4294967295` and
best fit on `4294967294..=4294967295`, shorter than `0..=9`, overflow on `lo + count` instead of
answering with the run. -/
theorem contiguous_top_run_overflows :
    let h : Hierarchy := ⟨[("core", ⟨none, true⟩)]⟩
    let top := IdSet.ofIds [4294967295]
    let pair := IdSet.range 0 9 ∪ IdSet.range 4294967294 4294967295
    top.FirstFit 1 ⟨4294967295, 4294967295⟩ ∧
      h.contiguous top [⟨"core", 1⟩] false = .error .addOverflow ∧
    pair.BestFit 2 ⟨4294967294, 4294967295⟩ ∧
      h.contiguous pair [⟨"core", 2⟩] true = .error .addOverflow := by
  intro h top pair
  have htop : top.spans = [⟨4294967295, 4294967295⟩] := rfl
  have hpair : pair.spans = [⟨0, 9⟩, ⟨4294967294, 4294967295⟩] := rfl
  refine ⟨⟨.of_mem_spans (by rw [htop]; simp), by decide, fun q hq _ => ?_⟩, by decide +kernel,
    ⟨.of_mem_spans (by rw [hpair]; simp), by decide, fun q hq _ => ?_⟩, by decide +kernel⟩
  · obtain rfl : q = ⟨4294967295, 4294967295⟩ := by
      simpa only [htop, List.mem_cons, List.not_mem_nil, or_false] using hq.mem_spans
    exact Nat.le_refl _
  · -- the run `0..=9` is longer, so the two top ids come first in best-fit order
    rcases (by simpa only [hpair, List.mem_cons, List.not_mem_nil, or_false] using hq.mem_spans :
      q = ⟨0, 9⟩ ∨ q = ⟨4294967294, 4294967295⟩) with rfl | rfl
    · exact .inl (by decide)
    · exact Span.FitsBefore.refl _

end Hierarchy

end ClusterScheduler
