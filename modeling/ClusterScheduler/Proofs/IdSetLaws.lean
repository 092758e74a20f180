import ClusterScheduler.IdSet.Basic

/-!
# Membership laws of id sets

An id set is its canonical list of spans, and an id belongs to it when a span covers it. Every
operation builds its result through `normalize`, so the one fact to prove about the
representation is that normalizing keeps the covered ids; union, intersection and difference
then mean what they say, id by id. Taking the lowest ids of a set takes ids of the set.
-/

namespace ClusterScheduler

/-! ## Computations that may fail -/

@[simp] theorem except_ok_bind {ε α β : Type} (a : α) (f : α → Except ε β) :
    (Except.ok a >>= f) = f a := rfl

@[simp] theorem except_error_bind {ε α β : Type} (e : ε) (f : α → Except ε β) :
    (Except.error e >>= f) = Except.error e := rfl

@[simp] theorem except_throw_bind {ε α β : Type} (e : ε) (f : α → Except ε β) :
    ((throw e : Except ε α) >>= f) = Except.error e := rfl

theorem except_bind_eq_ok {ε α β : Type} {x : Except ε α} {f : α → Except ε β} {b : β}
    (h : (x >>= f) = .ok b) : ∃ a, x = .ok a ∧ f a = .ok b := by
  cases x with
  | ok a => exact ⟨a, rfl, h⟩
  | error e => cases h

theorem except_ite_bind {ε α β : Type} (c : Prop) [Decidable c] (x y : Except ε α)
    (f : α → Except ε β) : (if c then x >>= f else y >>= f) = (if c then x else y) >>= f := by
  split <;> rfl

theorem except_map_eq_ok {ε α β : Type} {x : Except ε α} {f : α → β} {b : β}
    (h : x.map f = .ok b) : ∃ a, x = .ok a ∧ f a = b := by
  cases x with
  | ok a => exact ⟨a, rfl, Except.ok.inj h⟩
  | error e => cases h

namespace Span

theorem covers_meet {s t : Span} {x : Nat} : (s.meet t).Covers x ↔ s.Covers x ∧ t.Covers x := by
  simp only [meet, Covers]
  omega

theorem covers_cut {s t : Span} {x : Nat} :
    (∃ p ∈ s.cut t, p.Covers x) ↔ s.Covers x ∧ ¬t.Covers x := by
  simp only [cut, Covers]
  constructor
  · rintro ⟨p, hp, hx⟩
    simp only [List.mem_append] at hp
    rcases hp with hp | hp
    · split at hp
      · simp only [List.mem_singleton] at hp; subst hp; dsimp only at hx; omega
      · cases hp
    · split at hp
      · simp only [List.mem_singleton] at hp; subst hp; dsimp only at hx; omega
      · cases hp
  · rintro ⟨hs, ht⟩
    -- the id lies below `t` or above it, and the matching part of `s` is kept
    by_cases hlo : x < t.lo
    · exact ⟨⟨s.lo, min s.hi (t.lo - 1)⟩, by simp [show s.lo < t.lo by omega], by dsimp only; omega⟩
    · exact ⟨⟨max s.lo (t.hi + 1), s.hi⟩, by simp [show t.hi < s.hi by omega], by dsimp only; omega⟩

theorem covers_cutAll {s : Span} {ts : List Span} {x : Nat} :
    (∃ p ∈ s.cutAll ts, p.Covers x) ↔ s.Covers x ∧ ∀ t ∈ ts, ¬t.Covers x := by
  induction ts generalizing s with
  | nil => simp [cutAll]
  | cons t ts ih =>
    simp only [cutAll, List.mem_flatMap, List.mem_cons, forall_eq_or_imp]
    constructor
    · rintro ⟨p, ⟨q, hq, hp⟩, hx⟩
      obtain ⟨hqx, hts⟩ := ih.1 ⟨p, hp, hx⟩
      obtain ⟨hsx, htx⟩ := covers_cut.1 ⟨q, hq, hqx⟩
      exact ⟨hsx, htx, hts⟩
    · rintro ⟨hsx, htx, hts⟩
      obtain ⟨q, hq, hqx⟩ := covers_cut.2 ⟨hsx, htx⟩
      obtain ⟨p, hp, hx⟩ := ih.2 ⟨hqx, hts⟩
      exact ⟨p, ⟨q, hq, hp⟩, hx⟩

end Span

/-! ## Normalizing keeps the covered ids -/

theorem covers_absorb {x : Nat} (cur : Span) (rest : List Span)
    (hsorted : rest.Pairwise fun a b => a.lo ≤ b.lo) (hfirst : ∀ t ∈ rest, cur.lo ≤ t.lo) :
    (∃ p ∈ absorb cur rest, p.Covers x) ↔ cur.Covers x ∨ ∃ p ∈ rest, p.Covers x := by
  induction rest generalizing cur with
  | nil => simp [absorb]
  | cons s rest ih =>
    obtain ⟨hs, hrest⟩ := List.pairwise_cons.1 hsorted
    have hcs := hfirst s (by simp)
    unfold absorb
    split
    · -- `s` touches `cur`: the two merge into one span
      rename_i htouch
      have hmerge : (⟨cur.lo, max cur.hi s.hi⟩ : Span).Covers x ↔ cur.Covers x ∨ s.Covers x := by
        simp only [Span.Covers]
        omega
      rw [ih ⟨cur.lo, max cur.hi s.hi⟩ hrest (fun t ht => Nat.le_trans hcs (hs t ht)), hmerge]
      simp only [List.mem_cons, exists_eq_or_imp, or_assoc]
    · simp only [List.mem_cons, exists_eq_or_imp]
      rw [ih s hrest hs]

theorem covers_sorted {x : Nat} (l : List Span) :
    (∃ p ∈ sortSpans (l.filter fun s => decide (s.lo ≤ s.hi)), p.Covers x) ↔
      ∃ p ∈ l, p.Covers x := by
  simp only [mem_sortSpans, List.mem_filter, decide_eq_true_eq]
  constructor
  · rintro ⟨p, ⟨hp, -⟩, hx⟩
    exact ⟨p, hp, hx⟩
  · rintro ⟨p, hp, hx⟩
    exact ⟨p, ⟨hp, Nat.le_trans hx.1 hx.2⟩, hx⟩

theorem covers_normalize {x : Nat} (l : List Span) :
    (∃ p ∈ normalize l, p.Covers x) ↔ ∃ p ∈ l, p.Covers x := by
  rw [← covers_sorted l]
  unfold normalize
  split
  · rename_i hsort
    rw [hsort]
  · rename_i s rest hsort
    have hpw := pairwise_sortSpans (l.filter fun s => decide (s.lo ≤ s.hi))
    rw [hsort] at hpw
    obtain ⟨hhead, htail⟩ := List.pairwise_cons.1 hpw
    rw [hsort, covers_absorb s rest htail hhead]
    simp

namespace IdSet

/-! ## Membership -/

theorem mem_iff {s : IdSet} {x : Nat} : x ∈ s ↔ ∃ sp ∈ s.spans, sp.Covers x := Iff.rfl

@[simp] theorem mem_ofSpans {l : List Span} {x : Nat} : x ∈ ofSpans l ↔ ∃ sp ∈ l, sp.Covers x :=
  covers_normalize l

@[simp] theorem not_mem_empty {x : Nat} : x ∉ (∅ : IdSet) := by
  rintro ⟨sp, hsp, -⟩
  cases hsp

@[simp] theorem mem_union {a b : IdSet} {x : Nat} : x ∈ a ∪ b ↔ x ∈ a ∨ x ∈ b := by
  rw [show a ∪ b = ofSpans (a.spans ++ b.spans) from rfl, mem_ofSpans]
  simp only [List.mem_append, mem_iff]
  constructor
  · rintro ⟨sp, hsp | hsp, hx⟩
    · exact .inl ⟨sp, hsp, hx⟩
    · exact .inr ⟨sp, hsp, hx⟩
  · rintro (⟨sp, hsp, hx⟩ | ⟨sp, hsp, hx⟩)
    · exact ⟨sp, .inl hsp, hx⟩
    · exact ⟨sp, .inr hsp, hx⟩

@[simp] theorem mem_inter {a b : IdSet} {x : Nat} : x ∈ a ∩ b ↔ x ∈ a ∧ x ∈ b := by
  rw [show a ∩ b = ofSpans (a.spans.flatMap fun s => b.spans.map s.meet) from rfl, mem_ofSpans]
  simp only [List.mem_flatMap, List.mem_map, mem_iff]
  constructor
  · rintro ⟨_, ⟨s, hs, t, ht, rfl⟩, hx⟩
    obtain ⟨hsx, htx⟩ := Span.covers_meet.1 hx
    exact ⟨⟨s, hs, hsx⟩, ⟨t, ht, htx⟩⟩
  · rintro ⟨⟨s, hs, hsx⟩, ⟨t, ht, htx⟩⟩
    exact ⟨s.meet t, ⟨s, hs, t, ht, rfl⟩, Span.covers_meet.2 ⟨hsx, htx⟩⟩

@[simp] theorem mem_diff {a b : IdSet} {x : Nat} : x ∈ a \ b ↔ x ∈ a ∧ x ∉ b := by
  rw [show a \ b = ofSpans (a.spans.flatMap (·.cutAll b.spans)) from rfl, mem_ofSpans]
  simp only [List.mem_flatMap, mem_iff]
  constructor
  · rintro ⟨p, ⟨s, hs, hp⟩, hx⟩
    obtain ⟨hsx, hb⟩ := Span.covers_cutAll.1 ⟨p, hp, hx⟩
    refine ⟨⟨s, hs, hsx⟩, ?_⟩
    rintro ⟨t, ht, htx⟩
    exact hb t ht htx
  · rintro ⟨⟨s, hs, hsx⟩, hb⟩
    obtain ⟨p, hp, hx⟩ := Span.covers_cutAll.2 ⟨hsx, fun t ht htx => hb ⟨t, ht, htx⟩⟩
    exact ⟨p, ⟨s, hs, hp⟩, hx⟩

@[simp] theorem mem_range {lo hi x : Nat} : x ∈ range lo hi ↔ lo ≤ x ∧ x ≤ hi := by
  simp [range, Span.Covers]

@[simp] theorem mem_ofIds {ids : List Nat} {x : Nat} : x ∈ ofIds ids ↔ x ∈ ids := by
  simp only [ofIds, mem_ofSpans, List.mem_map, Span.Covers]
  constructor
  · rintro ⟨_, ⟨i, hi, rfl⟩, h₁, h₂⟩
    obtain rfl : i = x := Nat.le_antisymm h₁ h₂
    exact hi
  · intro hx
    exact ⟨⟨x, x⟩, ⟨x, hx, rfl⟩, Nat.le_refl _, Nat.le_refl _⟩

/-- An empty set has no id, and a set with an id is not empty: the first span of a canonical
list covers its low end. -/
theorem isEmpty_iff {s : IdSet} : s.isEmpty = true ↔ ∀ x, x ∉ s := by
  obtain ⟨spans, hc⟩ := s
  cases spans with
  | nil => simp [isEmpty, mem_iff]
  | cons sp rest =>
    constructor
    · intro h
      simp [isEmpty] at h
    · intro h
      exact absurd ⟨sp, List.mem_cons_self, Nat.le_refl _, hc.1⟩ (h sp.lo)

/-! ## Inclusion -/

instance : HasSubset IdSet := ⟨fun a b => ∀ ⦃x⦄, x ∈ a → x ∈ b⟩

theorem subset_iff {a b : IdSet} : a ⊆ b ↔ ∀ ⦃x⦄, x ∈ a → x ∈ b := Iff.rfl

theorem Subset.refl (a : IdSet) : a ⊆ a := fun _ h => h

theorem Subset.trans {a b c : IdSet} (h₁ : a ⊆ b) (h₂ : b ⊆ c) : a ⊆ c := fun _ h => h₂ (h₁ h)

theorem empty_subset (a : IdSet) : ∅ ⊆ a := fun _ h => absurd h not_mem_empty

theorem union_subset {a b c : IdSet} (ha : a ⊆ c) (hb : b ⊆ c) : a ∪ b ⊆ c := by
  intro x hx
  rcases mem_union.1 hx with h | h
  · exact ha h
  · exact hb h

theorem inter_subset_left (a b : IdSet) : a ∩ b ⊆ a := fun _ h => (mem_inter.1 h).1

theorem inter_subset_right (a b : IdSet) : a ∩ b ⊆ b := fun _ h => (mem_inter.1 h).2

theorem diff_subset (a b : IdSet) : a \ b ⊆ a := fun _ h => (mem_diff.1 h).1

theorem subset_union_left (a b : IdSet) : a ⊆ a ∪ b := fun _ h => mem_union.2 (.inl h)

theorem subset_union_right (a b : IdSet) : b ⊆ a ∪ b := fun _ h => mem_union.2 (.inr h)

/-! ## Taking the lowest ids -/

theorem takeLow_covers {x : Nat} :
    ∀ (spans : List Span) (n : Nat) {out : List Span}, takeLow spans n = .ok out →
      (∃ p ∈ out, p.Covers x) → ∃ q ∈ spans, q.Covers x
  | [], _, out, h, hx => by
    simp only [takeLow, Except.ok.injEq] at h
    subst h
    simp at hx
  | sp :: rest, n, out, h, hx => by
    simp only [takeLow] at h
    split at h
    · simp only [Except.ok.injEq] at h; subst h; simp at hx
    · rename_i hn
      cases h32 : sp.size32 with
      | error e => rw [h32] at h; cases h
      | ok size =>
        have hsize : size = sp.size := by
          simp only [Span.size32] at h32; split at h32 <;> simp_all
        rw [h32] at h
        simp only [except_ok_bind] at h
        split at h
        · cases ht : takeLow rest (n - size) with
          | error e => rw [ht] at h; cases h
          | ok tail =>
            rw [ht] at h
            simp only [except_ok_bind, pure, Except.pure, Except.ok.injEq] at h
            subst h
            obtain ⟨p, hp, hpx⟩ := hx
            rcases List.mem_cons.1 hp with rfl | hp
            · exact ⟨p, by simp, hpx⟩
            · obtain ⟨q, hq, hqx⟩ := takeLow_covers rest (n - size) ht ⟨p, hp, hpx⟩
              exact ⟨q, List.mem_cons_of_mem _ hq, hqx⟩
        · rename_i hgt
          simp only [pure, Except.pure, Except.ok.injEq] at h
          subst h
          obtain ⟨p, hp, hpx⟩ := hx
          simp only [List.mem_singleton] at hp
          subst hp
          refine ⟨sp, by simp, ?_⟩
          simp only [Span.Covers, Span.size] at hpx hsize ⊢
          omega

theorem firstN_subset {s r : IdSet} {n : Nat} (h : s.firstN n = .ok (some r)) : r ⊆ s := by
  intro x hx
  simp only [firstN] at h
  split at h
  · cases h
  · cases ht : takeLow s.spans n with
    | error e => rw [ht] at h; cases h
    | ok spans =>
      rw [ht] at h
      simp only [except_ok_bind, pure, Except.pure, Except.ok.injEq, Option.some.injEq] at h
      subst h
      exact takeLow_covers s.spans n ht (mem_ofSpans.1 hx)

end IdSet

end ClusterScheduler
