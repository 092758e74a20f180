import Mathlib.Data.List.Perm.Subperm
import Mathlib.Data.List.Pairwise
import Mathlib.Data.List.Nodup
import ClusterScheduler.Proofs.IdSetLaws

/-!
# Counting the ids of a set

The spans of an id set come in increasing order with an absent id between neighbours. Listing
the ids of each span in turn therefore lists every id of the set once, in increasing order, and
`card`, the sum of the spans' sizes, is the number of members: it grows with the set, adds up
over disjoint sets, and is exactly the count asked when the lowest ids are taken.

The gaps also make the spans of a set its maximal runs of consecutive ids. A set is written in
one way only, so two sets with the same members are equal, and a run of a smaller set lies
inside a run of a larger one.
-/

namespace ClusterScheduler

namespace Span

def ids (s : Span) : List Nat := List.range' s.lo s.size

theorem mem_ids {s : Span} {x : Nat} : x ∈ s.ids ↔ s.Covers x := by
  rw [ids, List.mem_range'_1, size, Covers]
  omega

end Span

theorem Canonical.lo_le : ∀ {l : List Span}, Canonical l → ∀ sp ∈ l, sp.lo ≤ sp.hi
  | [], _, _, h => by cases h
  | _ :: _, ⟨hs, _, hrest⟩, sp, h => by
    rcases List.mem_cons.1 h with rfl | h
    · exact hs
    · exact hrest.lo_le sp h

theorem Canonical.pairwise : ∀ {l : List Span}, Canonical l →
    l.Pairwise fun a b => a.hi + 1 < b.lo
  | [], _ => .nil
  | s :: rest, ⟨_, hnext, hrest⟩ => by
    refine List.pairwise_cons.2 ⟨?_, hrest.pairwise⟩
    cases rest with
    | nil => intro t ht; cases ht
    | cons r more =>
      have hsr : s.hi + 1 < r.lo := hnext r rfl
      have hr : r.lo ≤ r.hi := hrest.1
      intro t ht
      rcases List.mem_cons.1 ht with rfl | ht
      · exact hsr
      · have := List.rel_of_pairwise_cons hrest.pairwise ht
        omega

theorem Canonical.gap {l : List Span} (hc : Canonical l) {sp : Span} (hsp : sp ∈ l) :
    ¬∃ q ∈ l, q.Covers (sp.hi + 1) := by
  rintro ⟨q, hq, hlo, hhi⟩
  obtain ⟨pre, post, hsplit⟩ := List.append_of_mem hsp
  have hpw := hc.pairwise
  rw [hsplit, List.pairwise_append] at hpw
  rw [hsplit] at hq
  rcases List.mem_append.1 hq with hq | hq
  · have := hpw.2.2 q hq sp List.mem_cons_self
    have := hc.lo_le sp hsp
    omega
  · rcases List.mem_cons.1 hq with rfl | hq
    · omega
    · have := List.rel_of_pairwise_cons hpw.2.1 hq
      omega

theorem Canonical.covers_tail {sp : Span} {rest : List Span} (hc : Canonical (sp :: rest))
    {x : Nat} : (∃ q ∈ rest, q.Covers x) ↔ (∃ q ∈ sp :: rest, q.Covers x) ∧ sp.hi < x := by
  constructor
  · rintro ⟨q, hq, hqx⟩
    have := List.rel_of_pairwise_cons hc.pairwise hq
    exact ⟨⟨q, List.mem_cons_of_mem _ hq, hqx⟩, by have := hqx.1; omega⟩
  · rintro ⟨⟨q, hq, hqx⟩, hx⟩
    rcases List.mem_cons.1 hq with rfl | hq
    · exact absurd hqx.2 (by omega)
    · exact ⟨q, hq, hqx⟩

theorem Canonical.lo_le_of_covers {sp : Span} {rest : List Span} (hc : Canonical (sp :: rest))
    {x : Nat} (hx : ∃ q ∈ sp :: rest, q.Covers x) : sp.lo ≤ x := by
  obtain ⟨q, hq, hqx⟩ := hx
  rcases List.mem_cons.1 hq with rfl | hq
  · exact hqx.1
  · have := List.rel_of_pairwise_cons hc.pairwise hq
    have := hqx.1
    have := hc.1
    omega

/-- Canonical spans are determined by the ids they cover: the first span starts at the lowest
id and stops right before the first absent one, and the others cover what lies above it. -/
theorem canonical_unique : ∀ {l l' : List Span}, Canonical l → Canonical l' →
    (∀ x, (∃ q ∈ l, q.Covers x) ↔ ∃ q ∈ l', q.Covers x) → l = l'
  | [], [], _, _, _ => rfl
  | [], sp :: _, _, hc', h => by
    obtain ⟨q, hq, -⟩ := (h sp.lo).2 ⟨sp, List.mem_cons_self, Nat.le_refl _, hc'.1⟩
    cases hq
  | sp :: _, [], hc, _, h => by
    obtain ⟨q, hq, -⟩ := (h sp.lo).1 ⟨sp, List.mem_cons_self, Nat.le_refl _, hc.1⟩
    cases hq
  | sp :: rest, sp' :: rest', hc, hc', h => by
    have hlo : sp.lo = sp'.lo := by
      have h₁ := hc'.lo_le_of_covers ((h sp.lo).1 ⟨sp, List.mem_cons_self, Nat.le_refl _, hc.1⟩)
      have h₂ := hc.lo_le_of_covers ((h sp'.lo).2 ⟨sp', List.mem_cons_self, Nat.le_refl _, hc'.1⟩)
      omega
    have hhi : sp.hi = sp'.hi := by
      have := hc.1
      have := hc'.1
      rcases Nat.lt_trichotomy sp.hi sp'.hi with hlt | heq | hgt
      · exact absurd ((h (sp.hi + 1)).2 ⟨sp', List.mem_cons_self, by omega, by omega⟩)
          (hc.gap List.mem_cons_self)
      · exact heq
      · exact absurd ((h (sp'.hi + 1)).1 ⟨sp, List.mem_cons_self, by omega, by omega⟩)
          (hc'.gap List.mem_cons_self)
    have hrest : rest = rest' := by
      refine canonical_unique hc.2.2 hc'.2.2 fun x => ?_
      rw [hc.covers_tail, hc'.covers_tail, h x, hhi]
    have hsp : sp = sp' := by
      cases sp
      cases sp'
      simp only at hlo hhi
      rw [hlo, hhi]
    rw [hsp, hrest]

namespace IdSet

theorem ext {a b : IdSet} (h : ∀ x, x ∈ a ↔ x ∈ b) : a = b := by
  obtain ⟨l, hl⟩ := a
  obtain ⟨l', hl'⟩ := b
  obtain rfl := canonical_unique hl hl' h
  rfl

theorem lo_le_of_mem_spans {s : IdSet} {sp : Span} (hsp : sp ∈ s.spans) : sp.lo ≤ sp.hi :=
  s.canonical.lo_le sp hsp

theorem hi_succ_not_mem {s : IdSet} {sp : Span} (hsp : sp ∈ s.spans) : sp.hi + 1 ∉ s :=
  s.canonical.gap hsp

theorem exists_span_within {a b : IdSet} (hsub : a ⊆ b) {sp : Span} (hsp : sp ∈ a.spans) :
    ∃ q ∈ b.spans, q.lo ≤ sp.lo ∧ sp.hi ≤ q.hi := by
  have hlohi := lo_le_of_mem_spans hsp
  obtain ⟨q, hq, hqlo, hqhi⟩ := hsub ⟨sp, hsp, Nat.le_refl _, hlohi⟩
  refine ⟨q, hq, hqlo, ?_⟩
  apply Nat.le_of_not_lt
  intro hlt
  exact hi_succ_not_mem hq (hsub ⟨sp, hsp, by omega, by omega⟩)

/-! ## The ids in increasing order -/

theorem toList_eq (s : IdSet) : s.toList = s.spans.flatMap Span.ids := rfl

theorem mem_toList {s : IdSet} {x : Nat} : x ∈ s.toList ↔ x ∈ s := by
  rw [toList_eq, List.mem_flatMap]
  simp only [Span.mem_ids]
  rfl

theorem toList_sorted (s : IdSet) : s.toList.Pairwise (· < ·) := by
  rw [toList_eq, List.pairwise_flatMap]
  refine ⟨fun sp _ => List.pairwise_lt_range', ?_⟩
  refine s.canonical.pairwise.imp fun {a b} hab x hx y hy => ?_
  rw [Span.mem_ids] at hx hy
  have := hx.2
  have := hy.1
  omega

theorem nodup_toList (s : IdSet) : s.toList.Nodup := (toList_sorted s).nodup

theorem foldr_size_eq_length : ∀ l : List Span,
    l.foldr (fun sp n => sp.size + n) 0 = (l.flatMap Span.ids).length
  | [] => rfl
  | sp :: rest => by
    rw [List.foldr_cons, List.flatMap_cons, List.length_append, foldr_size_eq_length rest,
      Span.ids, List.length_range']

theorem card_eq_length (s : IdSet) : s.card = s.toList.length := foldr_size_eq_length s.spans

theorem size_le_foldr : ∀ {l : List Span} {sp : Span}, sp ∈ l →
    sp.size ≤ l.foldr (fun sp n => sp.size + n) 0
  | _ :: _, _, h => by
    rcases List.mem_cons.1 h with rfl | h
    · rw [List.foldr_cons]
      omega
    · rw [List.foldr_cons]
      have := size_le_foldr h
      omega

theorem size_le_card {s : IdSet} {sp : Span} (h : sp ∈ s.spans) : sp.size ≤ s.card :=
  size_le_foldr h

theorem card_eq_of_mem_iff {s : IdSet} {l : List Nat} (hl : l.Nodup) (h : ∀ x, x ∈ s ↔ x ∈ l) :
    s.card = l.length := by
  have hperm : s.toList.Perm l :=
    (List.perm_ext_iff_of_nodup (nodup_toList s) hl).2 fun x => by rw [mem_toList, h]
  rw [card_eq_length, hperm.length_eq]

/-! ## Counting -/

theorem card_le_card {a b : IdSet} (h : a ⊆ b) : a.card ≤ b.card := by
  rw [card_eq_length, card_eq_length]
  apply List.Subperm.length_le
  exact List.subperm_of_subset (nodup_toList a) fun x hx => mem_toList.2 (h (mem_toList.1 hx))

theorem countP_toList_le {a b : IdSet} (h : a ⊆ b) (p : Nat → Bool) :
    a.toList.countP p ≤ b.toList.countP p :=
  (List.subperm_of_subset (nodup_toList a) fun _ hx => mem_toList.2 (h (mem_toList.1 hx))).countP_le p

theorem isEmpty_eq_false_of_subset {a b : IdSet} (h : a ⊆ b) (ha : a.isEmpty = false) :
    b.isEmpty = false := by
  rw [Bool.eq_false_iff] at ha ⊢
  intro hb
  apply ha
  rw [isEmpty_iff] at hb ⊢
  exact fun x hx => hb x (h hx)

def Disjoint (a b : IdSet) : Prop := ∀ ⦃x⦄, x ∈ a → x ∉ b

theorem Disjoint.symm {a b : IdSet} (h : a.Disjoint b) : b.Disjoint a := fun _ hb ha => h ha hb

theorem Disjoint.mono {a b a' b' : IdSet} (h : a.Disjoint b) (ha : a' ⊆ a) (hb : b' ⊆ b) :
    a'.Disjoint b' := fun _ hx hy => h (ha hx) (hb hy)

theorem card_union {a b : IdSet} (h : a.Disjoint b) : (a ∪ b).card = a.card + b.card := by
  have hnodup : (a.toList ++ b.toList).Nodup := by
    refine List.nodup_append.2 ⟨nodup_toList a, nodup_toList b, ?_⟩
    intro x hx y hy hxy
    subst hxy
    exact h (mem_toList.1 hx) (mem_toList.1 hy)
  rw [card_eq_of_mem_iff hnodup, List.length_append, ← card_eq_length, ← card_eq_length]
  intro x
  rw [mem_union, List.mem_append, mem_toList, mem_toList]

theorem card_range (lo hi : Nat) : (range lo hi).card = hi + 1 - lo := by
  have hmem : ∀ x, x ∈ range lo hi ↔ x ∈ List.range' lo (hi + 1 - lo) := by
    intro x
    rw [mem_range, List.mem_range'_1]
    omega
  rw [card_eq_of_mem_iff List.nodup_range' hmem, List.length_range']

theorem card_single (x : Nat) : (ofIds [x]).card = 1 := by
  have hmem : ∀ y, y ∈ ofIds [x] ↔ y ∈ [x] := fun y => mem_ofIds
  rw [card_eq_of_mem_iff (List.nodup_singleton x) hmem]
  rfl

theorem takeLow_ids : ∀ (spans : List Span) (n : Nat) {out : List Span}, takeLow spans n = .ok out →
    out.flatMap Span.ids = (spans.flatMap Span.ids).take n
  | [], _, out, h => by
    simp only [takeLow, Except.ok.injEq] at h
    subst h
    simp
  | sp :: rest, n, out, h => by
    simp only [takeLow] at h
    split at h
    · rename_i hn
      simp only [Except.ok.injEq] at h
      subst h hn
      simp
    · rename_i hn
      obtain ⟨size, hsize, h⟩ := except_bind_eq_ok h
      have hsize' : size = sp.size := by
        simp only [Span.size32] at hsize
        split at hsize
        · cases hsize; rfl
        · cases hsize
      subst hsize'
      rw [List.flatMap_cons, List.take_append]
      split at h
      · rename_i hle
        obtain ⟨tail, htail, h⟩ := except_bind_eq_ok h
        simp only [pure, Except.pure, Except.ok.injEq] at h
        subst h
        have hlen : sp.ids.length = sp.size := List.length_range'
        have htake : sp.ids.take n = sp.ids := List.take_of_length_le (by omega)
        rw [List.flatMap_cons, takeLow_ids rest (n - sp.size) htail, hlen, htake]
      · rename_i hgt
        simp only [pure, Except.pure, Except.ok.injEq] at h
        subst h
        have hlen : sp.ids.length = sp.size := List.length_range'
        have hpart : Span.ids ⟨sp.lo, sp.lo + n - 1⟩ = sp.ids.take n := by
          have hsize : Span.size ⟨sp.lo, sp.lo + n - 1⟩ = n := by
            simp only [Span.size]
            omega
          rw [Span.ids, hsize, Span.ids, List.take_range'_of_length_ge (by omega)]
        rw [show n - sp.ids.length = 0 by omega, List.take_zero, List.append_nil,
          List.flatMap_cons, List.flatMap_nil, List.append_nil, hpart]

theorem card_firstN {s r : IdSet} {n : Nat} (h : s.firstN n = .ok (some r)) : r.card = n := by
  simp only [firstN] at h
  split at h
  · cases h
  · rename_i hn
    obtain ⟨out, hout, h⟩ := except_bind_eq_ok h
    simp only [pure, Except.pure, Except.ok.injEq, Option.some.injEq] at h
    subst h
    have hids := takeLow_ids s.spans n hout
    have hnodup : (s.toList.take n).Nodup := (nodup_toList s).sublist (List.take_sublist n _)
    rw [card_eq_of_mem_iff hnodup, List.length_take, ← card_eq_length]
    · omega
    · intro x
      rw [mem_ofSpans, toList_eq, ← hids, List.mem_flatMap]
      simp only [Span.mem_ids]

end IdSet

end ClusterScheduler
