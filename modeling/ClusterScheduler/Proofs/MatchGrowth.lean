import ClusterScheduler.Proofs.MatchWithin
import ClusterScheduler.Proofs.IdSetCount

/-!
# Matching among more free resources

A matcher that finds the resources of a request group among some free ids does not refuse the
group among more free ids. The scattered matcher's walk meets at least as many groups able to
hold the nested request, since a wholly free group stays wholly free and ids that hold the
nested request go on holding it; the local matcher has at least as many candidate outer groups;
the contiguous matchers find a run at least as long. What the matcher may do on the larger set
instead is stop on an overflow of its 32-bit id arithmetic. That cannot happen when no run of
the larger set holds `2^32` ids, the contiguous matchers are asked positive counts, and the
best-fit one meets no id `4294967295`, the largest 32-bit one.

A request of one group therefore grows with the available set. With two groups it need not:
among more resources the first group may take those the second needed.
-/

namespace ClusterScheduler

namespace Logged

def finds (x : Logged (Option IdSet)) : Bool := x.result.toOption.join.isSome

theorem finds_of_ok {x : Logged (Option IdSet)} {r : IdSet} (h : x.result = .ok (some r)) :
    x.finds = true := by
  rw [finds, h]
  rfl

theorem not_finds_of_none {x : Logged (Option IdSet)} (h : x.result = .ok none) :
    x.finds = false := by
  rw [finds, h]
  rfl

theorem bind_ok {α β : Type} {x : Logged α} {f : α → Logged β} (hx : ∃ a, x.result = .ok a)
    (hf : ∀ a, ∃ b, (f a).result = .ok b) : ∃ b, (x >>= f).result = .ok b := by
  obtain ⟨a, ha⟩ := hx
  rw [result_bind_of_ok ha]
  exact hf a

theorem foldlM_rel {γ β β' : Type} (f : β → γ → Logged β) (f' : β' → γ → Logged β')
    (R : β → β' → Prop)
    (hstep : ∀ x b b' c c', R b b' → (f b x).result = .ok c → (f' b' x).result = .ok c' → R c c') :
    ∀ (l : List γ) (b : β) (b' : β') {out : β} {out' : β'}, R b b' →
      (l.foldlM f b).result = .ok out → (l.foldlM f' b').result = .ok out' → R out out'
  | [], b, b', out, out', hR, h, h' => by
    simp only [List.foldlM_nil, result_pure, Except.ok.injEq] at h h'
    subst h h'
    exact hR
  | x :: xs, b, b', out, out', hR, h, h' => by
    rw [List.foldlM_cons] at h h'
    obtain ⟨c, hc, h⟩ := result_bind_ok h
    obtain ⟨c', hc', h'⟩ := result_bind_ok h'
    exact foldlM_rel f f' R hstep xs c c' (hstep x b b' c c' hR hc hc') h h'

theorem foldlM_ok {γ β : Type} (f : β → γ → Logged β) (hstep : ∀ b x, ∃ c, (f b x).result = .ok c) :
    ∀ (l : List γ) (b : β), ∃ out, (l.foldlM f b).result = .ok out
  | [], b => ⟨b, rfl⟩
  | x :: xs, b => by
    obtain ⟨c, hc⟩ := hstep b x
    rw [List.foldlM_cons, result_bind_of_ok hc]
    exact foldlM_ok f hstep xs c

end Logged

namespace Hierarchy

open IdSet

/-! ## Collecting over ids -/

section Collect

variable {f : Nat → Logged (Option IdSet)} {need : Nat}

theorem collectSpan_length : ∀ (left start : Nat) (found : List IdSet) {out : List IdSet},
    found.length ≤ need → (collectSpan f need found start left).result = .ok out →
    out.length = min need (found.length + (List.range' start left).countP fun i => (f i).finds)
  | 0, _, found, out, hle, h => by
    simp only [collectSpan, Logged.result_pure, Except.ok.injEq] at h
    subst h
    simp only [List.range'_zero, List.countP_nil]
    omega
  | left + 1, start, found, out, hle, h => by
    simp only [collectSpan] at h
    split at h
    · simp only [Logged.result_pure, Except.ok.injEq] at h
      subst h
      omega
    · obtain ⟨r, hr, h⟩ := Logged.result_bind_ok h
      rw [List.range'_succ, List.countP_cons]
      cases r with
      | none =>
        rw [collectSpan_length left (start + 1) found hle h, Logged.not_finds_of_none hr]
        simp
      | some s =>
        have hlen : (found ++ [s]).length ≤ need := by
          rw [List.length_append, List.length_singleton]
          omega
        rw [collectSpan_length left (start + 1) (found ++ [s]) hlen h, Logged.finds_of_ok hr,
          List.length_append, List.length_singleton, if_pos rfl]
        omega

theorem collectIds_length : ∀ (spans : List Span) (found : List IdSet) {out : List IdSet},
    found.length ≤ need → (collectIds f need spans found).result = .ok out →
    out.length = min need (found.length + (spans.flatMap Span.ids).countP fun i => (f i).finds)
  | [], found, out, hle, h => by
    simp only [collectIds, Logged.result_pure, Except.ok.injEq] at h
    subst h
    simp only [List.flatMap_nil, List.countP_nil]
    omega
  | sp :: rest, found, out, hle, h => by
    simp only [collectIds] at h
    obtain ⟨found', hfound', h⟩ := Logged.result_bind_ok h
    have h₁ := collectSpan_length sp.size sp.lo found hle hfound'
    have h₂ := collectIds_length rest found' (by omega) h
    rw [List.flatMap_cons, List.countP_append, Span.ids]
    omega

theorem collectSpan_ok (hf : ∀ i, ∃ v, (f i).result = .ok v) :
    ∀ (left start : Nat) (found : List IdSet), ∃ out,
      (collectSpan f need found start left).result = .ok out
  | 0, _, found => ⟨found, rfl⟩
  | left + 1, start, found => by
    simp only [collectSpan]
    split
    · exact ⟨found, rfl⟩
    · obtain ⟨v, hv⟩ := hf start
      rw [Logged.result_bind_of_ok hv]
      cases v with
      | none => exact collectSpan_ok hf left (start + 1) found
      | some s => exact collectSpan_ok hf left (start + 1) (found ++ [s])

theorem collectIds_ok (hf : ∀ i, ∃ v, (f i).result = .ok v) :
    ∀ (spans : List Span) (found : List IdSet), ∃ out,
      (collectIds f need spans found).result = .ok out
  | [], found => ⟨found, rfl⟩
  | sp :: rest, found => by
    simp only [collectIds]
    obtain ⟨found', hfound'⟩ := collectSpan_ok hf sp.size sp.lo found
    rw [Logged.result_bind_of_ok hfound']
    exact collectIds_ok hf rest found'

end Collect

/-! ## Lowest ids -/

theorem firstN_grows {S S' R : IdSet} {n : Nat} (hsub : S ⊆ S') (h : S.firstN n = .ok (some R)) :
    S'.firstN n ≠ .ok none := by
  have hn : n ≤ S.card := by
    simp only [firstN] at h
    split at h
    · cases h
    · omega
  have hcard := card_le_card hsub
  unfold firstN
  rw [if_neg (by omega)]
  intro h'
  obtain ⟨spans, -, h'⟩ := except_bind_eq_ok h'
  cases h'

theorem takeLow_ok : ∀ (spans : List Span) (n : Nat),
    (∀ sp ∈ spans, sp.size ≤ Word.u32.hi.toNat) → ∃ out, takeLow spans n = .ok out
  | [], _, _ => ⟨[], rfl⟩
  | sp :: rest, n, hfit => by
    simp only [takeLow]
    split
    · exact ⟨[], rfl⟩
    · have hsize : sp.size32 = .ok sp.size := by
        simp [Span.size32, hfit sp List.mem_cons_self]
      rw [hsize, except_ok_bind]
      split
      · obtain ⟨tail, htail⟩ := takeLow_ok rest (n - sp.size)
          fun q hq => hfit q (List.mem_cons_of_mem _ hq)
        rw [htail]
        exact ⟨_, rfl⟩
      · exact ⟨_, rfl⟩

theorem firstN_ok {S : IdSet} (n : Nat) (hfit : ∀ sp ∈ S.spans, sp.size ≤ Word.u32.hi.toNat) :
    ∃ v, S.firstN n = .ok v := by
  unfold firstN
  split
  · exact ⟨none, rfl⟩
  · obtain ⟨out, hout⟩ := takeLow_ok S.spans n hfit
    rw [hout]
    exact ⟨_, rfl⟩

theorem fits_of_subset {a b : IdSet} (hsub : a ⊆ b) (hfit : ∀ sp ∈ b.spans, sp.size ≤ Word.u32.hi.toNat) :
    ∀ sp ∈ a.spans, sp.size ≤ Word.u32.hi.toNat := by
  intro sp hsp
  obtain ⟨q, hq, hlo, hhi⟩ := exists_span_within hsub hsp
  have := hfit q hq
  simp only [Span.size] at this ⊢
  omega

/-! ## Scattered matching -/

theorem groupFinds_grows {innermost : Bool} {sub : IdSet → Logged (Option IdSet)}
    (hsub : ∀ {a a' r : IdSet}, a ⊆ a' → (sub a).result = .ok (some r) → (sub a').result ≠ .ok none)
    {avail avail' s : IdSet} {g : Group} (hmore : avail ⊆ avail') (hg : avail' ⊆ g.resources)
    (h : (groupFinds innermost sub avail g).result = .ok (some s)) :
    (groupFinds innermost sub avail' g).result ≠ .ok none := by
  cases innermost with
  | true =>
    -- a wholly free group stays wholly free
    obtain ⟨-, hwhole⟩ := groupFinds_whole h
    have heq : avail' = g.resources :=
      IdSet.ext fun x => ⟨fun hx => hg hx, fun hx => hmore (hwhole ▸ hx)⟩
    simp [groupFinds, heq]
  | false => exact hsub hmore h

theorem scattered_grows (h : Hierarchy) : ∀ (levels : List LevelCount) {S S' R : IdSet},
    S ⊆ S' → (h.scattered S levels).result = .ok (some R) →
      (h.scattered S' levels).result ≠ .ok none
  | [], _, _, _, _, hR => by simp [scattered] at hR
  | l :: inner, S, S', R, hsub, hR => by
    unfold scattered at hR ⊢
    split at hR
    · rename_i hunit
      rw [if_pos hunit]
      split at hR
      · exact firstN_grows hsub hR
      · -- every id is a group of its own: a larger set has as many ids holding the nested request
        obtain ⟨found, hfound, hR⟩ := Logged.result_bind_ok hR
        simp only [Logged.result_pure, Except.ok.injEq] at hR
        have hlen : found.length = l.count := by
          split at hR
          · assumption
          · cases hR
        have hS := collectIds_length S.spans [] (Nat.zero_le _) hfound
        have hcount := countP_toList_le hsub fun i => (h.scattered (IdSet.ofIds [i]) inner).finds
        rw [toList_eq, toList_eq] at hcount
        intro hnone
        obtain ⟨found', hfound', hnone⟩ := Logged.result_bind_ok hnone
        have hS' := collectIds_length S'.spans [] (Nat.zero_le _) hfound'
        simp only [List.length_nil, Nat.zero_add] at hS hS'
        have hlen' : found'.length = l.count := by omega
        simp [hlen'] at hnone
    · rename_i hunit
      rw [if_neg hunit]
      split at hR
      · obtain ⟨_, -, hR⟩ := Logged.result_bind_ok hR
        cases hR
      · rename_i gs _
        obtain ⟨taken, htaken, hR⟩ := Logged.result_bind_ok hR
        simp only [Logged.result_pure, Except.ok.injEq] at hR
        have hdone : taken.groups = l.count := by
          split at hR
          · assumption
          · cases hR
        intro hnone
        obtain ⟨taken', htaken', hnone⟩ := Logged.result_bind_ok hnone
        -- the walk over the larger set has taken at least as many groups, and never more than
        -- asked
        have hrel := Logged.foldlM_rel _ _
          (fun (t t' : Taken) => t.groups ≤ t'.groups ∧ t'.groups ≤ l.count) ?_ gs _ _
          ⟨Nat.le_refl 0, Nat.zero_le _⟩ htaken htaken'
        · have hdone' : taken'.groups = l.count := by omega
          simp [hdone'] at hnone
        · intro g t t' c c' hR hc hc'
          rcases takeGroup_ok hc with ⟨rfl, -⟩ | ⟨s, hne, hfree, hs, rfl⟩
          · rcases takeGroup_ok hc' with ⟨rfl, -⟩ | ⟨s', hne', -, -, rfl⟩
            · exact hR
            · exact ⟨by dsimp only; omega, by dsimp only; omega⟩
          · rcases takeGroup_ok hc' with ⟨rfl, hkeep⟩ | ⟨s', hne', -, -, rfl⟩
            · -- the larger walk kept its state: it had taken enough already
              have hfree' := isEmpty_eq_false_of_subset
                (fun x hx => mem_inter.2 ⟨(mem_inter.1 hx).1, hsub (mem_inter.1 hx).2⟩) hfree
              have hgrow := groupFinds_grows (scattered_grows h inner)
                (fun x hx => mem_inter.2 ⟨(mem_inter.1 hx).1, hsub (mem_inter.1 hx).2⟩)
                (inter_subset_left g.resources S') hs
              rcases hkeep with hfull | hempty | hnone
              · exact ⟨by dsimp only; omega, hR.2⟩
              · rw [hfree'] at hempty
                cases hempty
              · exact absurd hnone hgrow
            · exact ⟨by dsimp only; omega, by dsimp only; omega⟩

theorem single_fits (i : Nat) : ∀ sp ∈ (IdSet.ofIds [i]).spans, sp.size ≤ Word.u32.hi.toNat := by
  intro sp hsp
  have hsize := size_le_card hsp
  rw [card_single] at hsize
  have : (1 : Nat) ≤ Word.u32.hi.toNat := by decide
  omega

theorem takeGroup_ok_of {need : Nat} {innermost : Bool} {sub : IdSet → Logged (Option IdSet)}
    {free : IdSet} (t : Taken) (g : Group)
    (hg : ∃ v, (groupFinds innermost sub (g.resources ∩ free) g).result = .ok v) :
    ∃ c, (takeGroup need innermost sub free t g).result = .ok c := by
  unfold takeGroup
  split
  · exact ⟨t, rfl⟩
  · dsimp only
    split
    · exact ⟨t, rfl⟩
    · obtain ⟨v, hv⟩ := hg
      rw [Logged.result_bind_of_ok hv]
      cases v with
      | none => exact ⟨t, rfl⟩
      | some s => exact ⟨_, rfl⟩

theorem scattered_ok (h : Hierarchy) : ∀ (levels : List LevelCount) {free : IdSet},
    (∀ sp ∈ free.spans, sp.size ≤ Word.u32.hi.toNat) → ∃ v, (h.scattered free levels).result = .ok v
  | [], _, _ => ⟨none, rfl⟩
  | l :: inner, free, hfit => by
    unfold scattered
    split
    · split
      · obtain ⟨v, hv⟩ := firstN_ok l.count hfit
        exact ⟨v, by rw [Logged.result_lift, hv]⟩
      · -- each id is matched alone against the inner levels
        apply Logged.bind_ok (collectIds_ok (fun i => scattered_ok h inner (single_fits i)) _ _)
        intro found
        exact ⟨_, rfl⟩
    · split
      · exact ⟨none, rfl⟩
      · rename_i gs _
        -- every group's free part has runs that fit, and so the nested request does not overflow
        have hstep : ∀ (t : Taken) (g : Group), ∃ c, (takeGroup l.count inner.isEmpty
            (fun avail => h.scattered avail inner) free t g).result = .ok c := by
          intro t g
          apply takeGroup_ok_of t g
          cases inner.isEmpty with
          | true => exact ⟨_, rfl⟩
          | false => exact scattered_ok h inner (fits_of_subset (inter_subset_right _ _) hfit)
        apply Logged.bind_ok (Logged.foldlM_ok _ hstep gs ⟨∅, 0⟩)
        intro taken
        exact ⟨_, rfl⟩

/-! ## Local matching -/

theorem candidates_length_le (gs : List Group) (n : Nat) {S S' : IdSet} (hsub : S ⊆ S') :
    ((gs.map (·.resources ∩ S)).filter (n ≤ ·.card)).length ≤
      ((gs.map (·.resources ∩ S')).filter (n ≤ ·.card)).length := by
  rw [← List.countP_eq_length_filter, ← List.countP_eq_length_filter, List.countP_map,
    List.countP_map]
  apply List.countP_mono_left
  intro g _ hg
  simp only [Function.comp_apply, decide_eq_true_eq] at hg ⊢
  exact Nat.le_trans hg (card_le_card fun x hx =>
    mem_inter.2 ⟨(mem_inter.1 hx).1, hsub (mem_inter.1 hx).2⟩)

theorem firstN_isSome {s : IdSet} {n : Nat} {p : Option IdSet} (hn : n ≤ s.card)
    (h : s.firstN n = .ok p) : p.isSome := by
  unfold firstN at h
  rw [if_neg (by omega)] at h
  obtain ⟨spans, -, h⟩ := except_bind_eq_ok h
  cases h
  rfl

theorem mapM_firstN_isSome {n : Nat} : ∀ (cs : List IdSet) {parts : List (Option IdSet)},
    (∀ c ∈ cs, n ≤ c.card) → cs.mapM (fun s => s.firstN n) = .ok parts → ∀ p ∈ parts, p.isSome
  | [], parts, _, h => by
    simp only [List.mapM_nil, pure, Except.pure, Except.ok.injEq] at h
    subst h
    intro p hp
    cases hp
  | c :: rest, parts, hcs, h => by
    rw [List.mapM_cons] at h
    obtain ⟨p, hp, h⟩ := except_bind_eq_ok h
    obtain ⟨ps, hps, h⟩ := except_bind_eq_ok h
    simp only [pure, Except.pure, Except.ok.injEq] at h
    subst h
    intro q hq
    rcases List.mem_cons.1 hq with rfl | hq
    · exact firstN_isSome (hcs c List.mem_cons_self) hp
    · exact mapM_firstN_isSome rest (fun c' hc' => hcs c' (List.mem_cons_of_mem _ hc')) hps q hq

theorem foldlM_union_isSome : ∀ (parts : List (Option IdSet)) (acc : IdSet),
    (∀ p ∈ parts, p.isSome) →
      (parts.foldlM (fun (acc : IdSet) (p : Option IdSet) => p.map (· ∪ acc)) acc).isSome
  | [], _, _ => rfl
  | p :: rest, acc, hp => by
    rw [List.foldlM_cons]
    obtain ⟨q, rfl⟩ := Option.isSome_iff_exists.1 (hp p List.mem_cons_self)
    exact foldlM_union_isSome rest (q ∪ acc) fun p' hp' => hp p' (List.mem_cons_of_mem _ hp')

theorem packed_grows (h : Hierarchy) (levels : List LevelCount) {S S' R : IdSet} (hsub : S ⊆ S')
    (hR : (h.packed S levels).result = .ok (some R)) : (h.packed S' levels).result ≠ .ok none := by
  unfold packed at hR ⊢
  split at hR
  · exact scattered_grows h _ hsub hR
  · rename_i outer inner
    split at hR
    · cases hR
    · rename_i hinner
      rw [if_neg hinner]
      split at hR
      · exact scattered_grows h _ hsub hR
      · rename_i gs _
        dsimp only at hR ⊢
        split at hR
        · cases hR
        · rename_i henough
          have hmore := candidates_length_le gs inner.count hsub
          rw [if_neg (by omega)]
          intro hnone
          obtain ⟨parts, hparts, hnone⟩ := Logged.result_bind_ok hnone
          simp only [Logged.result_lift] at hparts
          simp only [Logged.result_pure, Except.ok.injEq] at hnone
          -- every chosen candidate holds the inner count, so every part is found
          have hall := mapM_firstN_isSome _ (fun c hc => by
            have hc' := List.mem_mergeSort.1 (List.mem_of_mem_take hc)
            exact of_decide_eq_true (List.mem_filter.1 hc').2) hparts
          have := foldlM_union_isSome parts ∅ hall
          rw [hnone] at this
          cases this
  · cases hR

theorem mapM_firstN_ok {n : Nat} : ∀ (cs : List IdSet),
    (∀ c ∈ cs, ∀ sp ∈ c.spans, sp.size ≤ Word.u32.hi.toNat) →
      ∃ parts, cs.mapM (fun s => s.firstN n) = .ok parts
  | [], _ => ⟨[], rfl⟩
  | c :: rest, hfit => by
    obtain ⟨p, hp⟩ := firstN_ok n (hfit c List.mem_cons_self)
    obtain ⟨ps, hps⟩ := mapM_firstN_ok rest fun c' hc' => hfit c' (List.mem_cons_of_mem _ hc')
    rw [List.mapM_cons, hp, except_ok_bind, hps, except_ok_bind]
    exact ⟨_, rfl⟩

theorem packed_ok (h : Hierarchy) (levels : List LevelCount) {free : IdSet}
    (hfit : ∀ sp ∈ free.spans, sp.size ≤ Word.u32.hi.toNat) :
    ∃ v, (h.packed free levels).result = .ok v := by
  unfold packed
  split
  · exact scattered_ok h _ hfit
  · split
    · exact ⟨none, rfl⟩
    · split
      · exact scattered_ok h _ hfit
      · dsimp only
        split
        · exact ⟨none, rfl⟩
        · apply Logged.bind_ok
          · -- the chosen candidates are parts of the free set, whose runs fit
            simp only [Logged.result_lift]
            apply mapM_firstN_ok
            intro c hc
            have hc' := List.mem_mergeSort.1 (List.mem_of_mem_take hc)
            obtain ⟨hc'', -⟩ := List.mem_filter.1 hc'
            obtain ⟨g, -, rfl⟩ := List.mem_map.1 hc''
            exact fits_of_subset (inter_subset_right _ _) hfit
          · intro parts
            exact ⟨_, rfl⟩
  · exact ⟨none, rfl⟩

/-! ## Contiguous matching -/

/-- The run a contiguous matcher takes its ids from: the shortest long enough one with best fit,
the first one otherwise. -/
def runSearch (bestFit : Bool) (count : Nat) (spans : List Span) : Except Fault (Option Span) :=
  if bestFit then shortestRun count spans none else firstRun count spans

theorem contiguous_unit {h : Hierarchy} {free : IdSet} {l : LevelCount} {bestFit : Bool}
    (hunit : h.isUnit l.level = true) :
    h.contiguous free [l] bestFit = runSearch bestFit l.count free.spans >>= fun run =>
      run.elim (pure none) fun sp => runPrefix sp.lo l.count >>= fun r => pure (some r) := by
  -- the join point of the definition's `do` block is the case split of `Option.elim`
  cases bestFit <;> simp only [contiguous, runSearch, hunit, Bool.not_true, Bool.false_eq_true,
    if_false, if_true] <;> congr 1 <;> funext run <;> cases run <;> rfl

theorem contiguous_levels {h : Hierarchy} {free r : IdSet} {levels : List LevelCount}
    {bestFit : Bool} (hr : h.contiguous free levels bestFit = .ok (some r)) :
    ∃ l, levels = [l] ∧ h.isUnit l.level = true := by
  unfold contiguous at hr
  split at hr
  · rename_i l
    split at hr
    · cases hr
    · rename_i hunit
      exact ⟨l, rfl, by simpa using hunit⟩
  · cases hr

theorem contiguous_run {h : Hierarchy} {free r : IdSet} {l : LevelCount} {bestFit : Bool}
    (hunit : h.isUnit l.level = true) (hr : h.contiguous free [l] bestFit = .ok (some r)) :
    ∃ sp, runSearch bestFit l.count free.spans = .ok (some sp) ∧
      runPrefix sp.lo l.count = .ok r := by
  rw [contiguous_unit hunit] at hr
  obtain ⟨run, hrun, hr⟩ := except_bind_eq_ok hr
  cases run with
  | none => cases hr
  | some sp =>
    obtain ⟨p, hp, hr⟩ := except_bind_eq_ok hr
    cases hr
    exact ⟨sp, hrun, hp⟩

theorem firstRun_none {count : Nat} :
    ∀ (spans : List Span), firstRun count spans = .ok none → ∀ q ∈ spans, q.size < count
  | [], _, q, hq => by cases hq
  | sp :: rest, h, q, hq => by
    simp only [firstRun] at h
    obtain ⟨n, hn, h⟩ := except_bind_eq_ok h
    have hsize := size32_eq hn
    split at h
    · cases h
    · rcases List.mem_cons.1 hq with rfl | hq
      · omega
      · exact firstRun_none rest h q hq

theorem shortestRun_isSome {count : Nat} : ∀ (spans : List Span) {best v : Option Span},
    best.isSome → shortestRun count spans best = .ok v → v.isSome
  | [], best, v, hb, h => by
    simp only [shortestRun, Except.ok.injEq] at h
    rwa [← h]
  | sp :: rest, best, v, hb, h => by
    simp only [shortestRun] at h
    obtain ⟨n, -, h⟩ := except_bind_eq_ok h
    split at h
    · cases best with
      | none => cases hb
      | some b =>
        dsimp only at h
        split at h <;> exact shortestRun_isSome rest rfl h
    · exact shortestRun_isSome rest hb h

theorem shortestRun_none {count : Nat} : ∀ (spans : List Span) (best : Option Span),
    shortestRun count spans best = .ok none → ∀ q ∈ spans, q.size < count
  | [], _, _, q, hq => by cases hq
  | sp :: rest, best, h, q, hq => by
    simp only [shortestRun] at h
    obtain ⟨n, hn, h⟩ := except_bind_eq_ok h
    have hsize := size32_eq hn
    split at h
    · -- a long enough run becomes the best one so far
      cases best with
      | none => cases shortestRun_isSome rest rfl h
      | some b =>
        dsimp only at h
        split at h <;> cases shortestRun_isSome rest rfl h
    · rcases List.mem_cons.1 hq with rfl | hq
      · omega
      · exact shortestRun_none rest best h q hq

theorem runSearch_some {bestFit : Bool} {count : Nat} {spans : List Span} {sp : Span}
    (h : runSearch bestFit count spans = .ok (some sp)) : sp ∈ spans ∧ count ≤ sp.size := by
  cases bestFit with
  | true =>
    rcases shortestRun_spec spans none h with hsp | hnone
    · exact hsp
    · cases hnone
  | false => exact firstRun_spec spans h

theorem runSearch_none {bestFit : Bool} {count : Nat} {spans : List Span}
    (h : runSearch bestFit count spans = .ok none) : ∀ q ∈ spans, q.size < count := by
  cases bestFit with
  | true => exact shortestRun_none spans none h
  | false => exact firstRun_none spans h

theorem firstRun_ok {count : Nat} : ∀ (spans : List Span),
    (∀ sp ∈ spans, sp.size ≤ Word.u32.hi.toNat) → ∃ v, firstRun count spans = .ok v
  | [], _ => ⟨none, rfl⟩
  | sp :: rest, hfit => by
    have hsize : sp.size32 = .ok sp.size := by simp [Span.size32, hfit sp List.mem_cons_self]
    simp only [firstRun, hsize, except_ok_bind]
    split
    · exact ⟨_, rfl⟩
    · exact firstRun_ok rest fun q hq => hfit q (List.mem_cons_of_mem _ hq)

theorem shortestRun_ok {count : Nat} : ∀ (spans : List Span) (best : Option Span),
    (∀ sp ∈ spans, sp.size ≤ Word.u32.hi.toNat) → ∃ v, shortestRun count spans best = .ok v
  | [], best, _ => ⟨best, rfl⟩
  | sp :: rest, best, hfit => by
    have hsize : sp.size32 = .ok sp.size := by simp [Span.size32, hfit sp List.mem_cons_self]
    simp only [shortestRun, hsize, except_ok_bind]
    split
    · exact shortestRun_ok rest _ fun q hq => hfit q (List.mem_cons_of_mem _ hq)
    · exact shortestRun_ok rest _ fun q hq => hfit q (List.mem_cons_of_mem _ hq)

theorem runSearch_ok (bestFit : Bool) (count : Nat) {spans : List Span}
    (hfit : ∀ sp ∈ spans, sp.size ≤ Word.u32.hi.toNat) :
    ∃ v, runSearch bestFit count spans = .ok v := by
  cases bestFit with
  | true => exact shortestRun_ok spans none hfit
  | false => exact firstRun_ok spans hfit

theorem firstRun_first {count : Nat} : ∀ {spans : List Span} {sp : Span}, Canonical spans →
    firstRun count spans = .ok (some sp) → ∀ q ∈ spans, count ≤ q.size → sp.lo ≤ q.lo
  | [], _, _, h, _, hq, _ => by cases hq
  | r :: rest, sp, hc, h, q, hq, hqle => by
    simp only [firstRun] at h
    obtain ⟨n, hn, h⟩ := except_bind_eq_ok h
    have hsize := size32_eq hn
    split at h
    · simp only [pure, Except.pure, Except.ok.injEq, Option.some.injEq] at h
      subst h
      rcases List.mem_cons.1 hq with rfl | hq
      · exact Nat.le_refl _
      · have := List.rel_of_pairwise_cons hc.pairwise hq
        have := hc.1
        omega
    · rcases List.mem_cons.1 hq with rfl | hq
      · omega
      · exact firstRun_first hc.2.2 h q hq hqle

theorem runPrefix_ok {start count : Nat} (hpos : 0 < count)
    (hroom : start + count ≤ Word.u32.hi.toNat) : ∃ r, runPrefix start count = .ok r := by
  have hadd : Word.u32.add start count = .ok (start + count) :=
    Word.add_ok ⟨by simp only [Word.u32]; omega, by simp only [Word.u32] at hroom ⊢; omega⟩
  have hsub : Word.u32.sub ((start : Int) + count) 1 = .ok (start + count - 1) :=
    Word.sub_ok ⟨by simp only [Word.u32]; omega, by simp only [Word.u32] at hroom ⊢; omega⟩
  simp only [runPrefix, hadd, except_ok_bind, hsub]
  exact ⟨_, rfl⟩

theorem runPrefix_room {start count : Nat} {r : IdSet} (h : runPrefix start count = .ok r) :
    start + count ≤ Word.u32.hi.toNat := by
  simp only [runPrefix] at h
  obtain ⟨e, he, -⟩ := except_bind_eq_ok h
  obtain ⟨-, -, hle⟩ := Word.eq_of_add_ok he
  simp only [Word.u32] at hle ⊢
  omega

theorem exists_long_run {S S' : IdSet} {sp : Span} {count : Nat} (hsub : S ⊆ S')
    (hsp : sp ∈ S.spans) (hle : count ≤ sp.size) :
    ∃ q ∈ S'.spans, q.lo ≤ sp.lo ∧ count ≤ q.size := by
  obtain ⟨q, hq, hqlo, hqhi⟩ := exists_span_within hsub hsp
  refine ⟨q, hq, hqlo, ?_⟩
  simp only [Span.size] at hle ⊢
  omega

theorem contiguous_grows {h : Hierarchy} {S S' R : IdSet} {levels : List LevelCount}
    {bestFit : Bool} (hsub : S ⊆ S') (hR : h.contiguous S levels bestFit = .ok (some R)) :
    h.contiguous S' levels bestFit ≠ .ok none := by
  obtain ⟨l, rfl, hunit⟩ := contiguous_levels hR
  obtain ⟨sp, hsp, -⟩ := contiguous_run hunit hR
  obtain ⟨hmem, hle⟩ := runSearch_some hsp
  obtain ⟨q, hq, -, hqle⟩ := exists_long_run hsub hmem hle
  rw [contiguous_unit hunit]
  intro hnone
  obtain ⟨run, hrun, hnone⟩ := except_bind_eq_ok hnone
  cases run with
  | none => exact absurd hqle (Nat.not_le.2 (runSearch_none hrun q hq))
  | some sp' =>
    obtain ⟨p, -, hnone⟩ := except_bind_eq_ok hnone
    cases hnone

theorem contiguous_grows_ok {h : Hierarchy} {S S' R : IdSet} {levels : List LevelCount}
    {bestFit : Bool} (hsub : S ⊆ S') (hfit : ∀ sp ∈ S'.spans, sp.size ≤ Word.u32.hi.toNat)
    (hcount : ∀ l ∈ levels, 0 < l.count)
    (htop : bestFit = true → ∀ x ∈ S', x < Word.u32.hi.toNat)
    (hR : h.contiguous S levels bestFit = .ok (some R)) :
    ∃ R', h.contiguous S' levels bestFit = .ok (some R') := by
  obtain ⟨l, rfl, hunit⟩ := contiguous_levels hR
  obtain ⟨sp, hsp, hp⟩ := contiguous_run hunit hR
  obtain ⟨hmem, hle⟩ := runSearch_some hsp
  obtain ⟨q, hq, hqlo, hqle⟩ := exists_long_run hsub hmem hle
  obtain ⟨run, hrun⟩ := runSearch_ok bestFit l.count hfit
  rw [contiguous_unit hunit, hrun, except_ok_bind]
  cases run with
  | none => exact absurd hqle (Nat.not_le.2 (runSearch_none hrun q hq))
  | some sp' =>
    have hroom : sp'.lo + l.count ≤ Word.u32.hi.toNat := by
      cases bestFit with
      | true =>
        obtain ⟨hmem', hle'⟩ := runSearch_some hrun
        have hlohi := lo_le_of_mem_spans hmem'
        have hlt := htop rfl sp'.hi ⟨sp', hmem', lo_le_of_mem_spans hmem', Nat.le_refl _⟩
        simp only [Span.size] at hle'
        omega
      | false =>
        have := firstRun_first S'.canonical hrun q hq hqle
        have := runPrefix_room hp
        omega
    obtain ⟨r, hr⟩ := runPrefix_ok (hcount l List.mem_cons_self) hroom
    exact ⟨r, by simp only [Option.elim, hr, except_ok_bind]; rfl⟩

/-! ## Requests of one group -/

theorem matchWith_grows (h : Hierarchy) (policy : FindPolicy) (levels : List LevelCount)
    {S S' R : IdSet} (hsub : S ⊆ S') (hR : (h.matchWith policy S levels).result = .ok (some R)) :
    (h.matchWith policy S' levels).result ≠ .ok none := by
  cases policy with
  | scattered => exact scattered_grows h levels hsub hR
  | contiguous => exact contiguous_grows hsub hR
  | contiguousBestFit => exact contiguous_grows hsub hR
  | «local» => exact packed_grows h levels hsub hR

theorem found_of_ne_none {x : Logged (Option IdSet)} {v : Option IdSet} (hv : x.result = .ok v)
    (hne : x.result ≠ .ok none) : ∃ r, x.result = .ok (some r) := by
  cases v with
  | none => exact absurd hv hne
  | some r => exact ⟨r, hv⟩

theorem matchWith_grows_ok (h : Hierarchy) (policy : FindPolicy) (levels : List LevelCount)
    {S S' R : IdSet} (hsub : S ⊆ S') (hfit : ∀ sp ∈ S'.spans, sp.size ≤ Word.u32.hi.toNat)
    (hcount : policy = .contiguous ∨ policy = .contiguousBestFit → ∀ l ∈ levels, 0 < l.count)
    (htop : policy = .contiguousBestFit → ∀ x ∈ S', x < Word.u32.hi.toNat)
    (hR : (h.matchWith policy S levels).result = .ok (some R)) :
    ∃ R', (h.matchWith policy S' levels).result = .ok (some R') := by
  have hgrow := matchWith_grows h policy levels hsub hR
  cases policy with
  | scattered =>
    obtain ⟨v, hv⟩ := scattered_ok h levels hfit
    exact found_of_ne_none hv hgrow
  | «local» =>
    obtain ⟨v, hv⟩ := packed_ok h levels hfit
    exact found_of_ne_none hv hgrow
  | contiguous =>
    exact contiguous_grows_ok hsub hfit (hcount (.inl rfl)) (fun hb => by cases hb) hR
  | contiguousBestFit =>
    exact contiguous_grows_ok hsub hfit (hcount (.inr rfl)) (fun _ => htop rfl) hR

theorem requestWith_single (h : Hierarchy) (policy : FindPolicy) (available : IdSet)
    (g : RequestGroup) :
    (h.requestWith policy available [g]).result =
      if ((available ∩ g.filter) \ ∅).isEmpty then .ok none
      else (h.matchWith policy ((available ∩ g.filter) \ ∅) g.levels).result >>= fun found =>
        .ok (found.map (· ∪ ∅)) := by
  simp only [requestWith, requestStep, List.foldlM_cons, List.foldlM_nil]
  split
  · rfl
  · rw [Logged.result_bind, Logged.result_bind]
    cases (h.matchWith policy ((available ∩ g.filter) \ ∅) g.levels).result <;> rfl

theorem pool_subset {S S' : IdSet} (g : RequestGroup) (hsub : S ⊆ S') :
    (S ∩ g.filter) \ ∅ ⊆ (S' ∩ g.filter) \ ∅ := fun x hx => by
  simp only [mem_diff, mem_inter] at hx ⊢
  exact ⟨⟨hsub hx.1.1, hx.1.2⟩, hx.2⟩

theorem pool_subset_available (S : IdSet) (g : RequestGroup) : (S ∩ g.filter) \ ∅ ⊆ S :=
  Subset.trans (diff_subset _ _) (inter_subset_left S g.filter)

theorem requestWith_single_grows (h : Hierarchy) (policy : FindPolicy) (g : RequestGroup)
    {S S' R : IdSet} (hsub : S ⊆ S') (hR : (h.requestWith policy S [g]).result = .ok (some R)) :
    (h.requestWith policy S' [g]).result ≠ .ok none := by
  rw [requestWith_single] at hR ⊢
  split at hR
  · cases hR
  · rename_i hfree
    rw [if_neg (by
      rw [isEmpty_eq_false_of_subset (pool_subset g hsub) (Bool.eq_false_iff.2 hfree)]
      decide)]
    obtain ⟨found, hfound, hR⟩ := except_bind_eq_ok hR
    cases found with
    | none => cases hR
    | some s =>
      have hgrow := matchWith_grows h policy g.levels (pool_subset g hsub) hfound
      intro hnone
      obtain ⟨found', hfound', hnone⟩ := except_bind_eq_ok hnone
      cases found' with
      | none => exact hgrow hfound'
      | some _ => cases hnone

/-- A request of one group that finds resources in a set never refuses a larger one: it finds
resources there or stops on an overflow, whatever the policy and the counts. It does find
resources when the larger set has no run of `2^32` ids or more, the contiguous matchers are
asked positive counts, as `validate` requires, and the best-fit one meets no id `4294967295`,
from which the end of the run it takes cannot be computed. -/
theorem requestWith_single_upward_closed (h : Hierarchy) (policy : FindPolicy) (g : RequestGroup)
    {S S' R : IdSet} (hsub : S ⊆ S') (hR : (h.requestWith policy S [g]).result = .ok (some R)) :
    (h.requestWith policy S' [g]).result ≠ .ok none ∧
    ((∀ sp ∈ S'.spans, sp.size ≤ Word.u32.hi.toNat) →
      (policy = .contiguous ∨ policy = .contiguousBestFit → ∀ l ∈ g.levels, 0 < l.count) →
      (policy = .contiguousBestFit → ∀ x ∈ S', x < Word.u32.hi.toNat) →
      ∃ R', (h.requestWith policy S' [g]).result = .ok (some R')) := by
  refine ⟨requestWith_single_grows h policy g hsub hR, fun hfit hcount htop => ?_⟩
  rw [requestWith_single] at hR ⊢
  split at hR
  · cases hR
  · rename_i hfree
    rw [if_neg (by
      rw [isEmpty_eq_false_of_subset (pool_subset g hsub) (Bool.eq_false_iff.2 hfree)]
      decide)]
    obtain ⟨found, hfound, hR⟩ := except_bind_eq_ok hR
    cases found with
    | none => cases hR
    | some s =>
      -- the larger pool is part of the larger set, so its runs fit and its ids stay low
      have hpool := pool_subset_available S' g
      obtain ⟨r, hr⟩ := matchWith_grows_ok h policy g.levels (pool_subset g hsub)
        (fits_of_subset hpool hfit) hcount (fun hp x hx => htop hp x (hpool hx)) hfound
      rw [hr]
      exact ⟨r ∪ ∅, rfl⟩

/-- Two cores asked with best fit are found among cores 1 and 2, and so among cores 0 to 5. -/
theorem requestWith_single_upward_closed_cores :
    let h : Hierarchy := ⟨[("core", ⟨none, true⟩)]⟩
    let g : RequestGroup := ⟨IdSet.range 0 5, [⟨"core", 2⟩]⟩
    IdSet.range 1 2 ⊆ IdSet.range 0 5 ∧
      (h.requestWith .contiguousBestFit (IdSet.range 1 2) [g]).result =
        .ok (some (IdSet.range 1 2)) ∧
      (h.requestWith .contiguousBestFit (IdSet.range 0 5) [g]).result ≠ .ok none ∧
      ∃ R', (h.requestWith .contiguousBestFit (IdSet.range 0 5) [g]).result = .ok (some R') := by
  intro h g
  have hsub : IdSet.range 1 2 ⊆ IdSet.range 0 5 := fun x hx => by
    simp only [mem_range] at hx ⊢
    omega
  have hR : (h.requestWith .contiguousBestFit (IdSet.range 1 2) [g]).result =
      .ok (some (IdSet.range 1 2)) := by decide +kernel
  obtain ⟨hne, hfound⟩ := requestWith_single_upward_closed h .contiguousBestFit g hsub hR
  exact ⟨hsub, hR, hne, hfound (by decide +kernel) (fun _ => by decide +kernel)
    (fun _ x hx => by simp only [mem_range, Word.u32] at hx ⊢; omega)⟩

/-- Upward closure fails near the top of the id range and for a count of zero. Best fit of two
cores takes cores 1 and 2 among cores 1 and 2, but among cores 0 to 5 and 4294967294 to
4294967295 it picks the shorter last run, and the end of that run overflows. First fit of no core
takes nothing from core 5, but among cores 0 to 5 the end of its empty run lies below core 0. -/
theorem requestWith_single_growth_faults :
    let h : Hierarchy := ⟨[("core", ⟨none, true⟩)]⟩
    let top : IdSet := IdSet.range 0 5 ∪ IdSet.range 4294967294 4294967295
    let two : RequestGroup := ⟨top, [⟨"core", 2⟩]⟩
    let zero : RequestGroup := ⟨IdSet.range 0 5, [⟨"core", 0⟩]⟩
    IdSet.range 1 2 ⊆ top ∧
      (h.requestWith .contiguousBestFit (IdSet.range 1 2) [two]).result =
        .ok (some (IdSet.range 1 2)) ∧
      (h.requestWith .contiguousBestFit top [two]).result = .error .addOverflow ∧
      IdSet.range 5 5 ⊆ IdSet.range 0 5 ∧
      (h.requestWith .contiguous (IdSet.range 5 5) [zero]).result = .ok (some ∅) ∧
      (h.requestWith .contiguous (IdSet.range 0 5) [zero]).result = .error .subOverflow := by
  intro h top two zero
  refine ⟨fun x hx => ?_, by decide +kernel, by decide +kernel, fun x hx => ?_, by decide +kernel,
    by decide +kernel⟩
  · simp only [top, mem_union, mem_range] at hx ⊢
    omega
  · simp only [mem_range] at hx ⊢
    omega

end Hierarchy

end ClusterScheduler
