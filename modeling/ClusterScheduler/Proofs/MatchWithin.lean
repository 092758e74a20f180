import ClusterScheduler.Hierarchy.Match
import ClusterScheduler.Proofs.IdSetLaws

/-!
# Matchers choose among the free resources

A matcher is handed the resources free for a job and gives the resources of one request group,
or none. Whatever it gives lies within what it was handed: the scattered matcher takes wholly
free groups and lowest free ids, the contiguous one a prefix of a free run, the local one the
lowest free ids of chosen groups; a request takes each group from what its filter and the
earlier groups leave. The proofs read a `Logged` computation through its result only.
-/

namespace ClusterScheduler

namespace Logged

variable {α β : Type}

@[simp] theorem result_pure (a : α) : (pure a : Logged α).result = .ok a := rfl

@[simp] theorem result_lift (r : Except Fault α) : (liftM r : Logged α).result = r := rfl

@[simp] theorem result_note (n : Notice) : (note n).result = .ok () := rfl

theorem result_bind (x : Logged α) (f : α → Logged β) :
    (x >>= f).result = match x.result with
      | .ok a => (f a).result
      | .error e => .error e := by
  show (match x.result with
    | .ok a => let y := f a; (⟨x.notices ++ y.notices, y.result⟩ : Logged β)
    | .error e => ⟨x.notices, .error e⟩).result = _
  cases x.result <;> rfl

theorem result_bind_of_ok {x : Logged α} {f : α → Logged β} {a : α} (h : x.result = .ok a) :
    (x >>= f).result = (f a).result := by
  rw [result_bind, h]

theorem ite_bind {c : Prop} [Decidable c] (x y : Logged α) (f : α → Logged β) :
    (if c then x >>= f else y >>= f) = (if c then x else y) >>= f := by
  split <;> rfl

theorem result_bind_ok {x : Logged α} {f : α → Logged β} {b : β}
    (h : (x >>= f).result = .ok b) : ∃ a, x.result = .ok a ∧ (f a).result = .ok b := by
  rw [result_bind] at h
  cases hx : x.result with
  | ok a => rw [hx] at h; exact ⟨a, rfl, h⟩
  | error e => rw [hx] at h; cases h

theorem foldlM_invariant {γ : Type} (f : β → γ → Logged β) (I : List γ → β → Prop)
    (hstep : ∀ x xs b c, I (x :: xs) b → (f b x).result = .ok c → I xs c) :
    ∀ (l : List γ) (init : β) {out : β}, I l init → (l.foldlM f init).result = .ok out → I [] out
  | [], init, out, hI, h => by
    simp only [List.foldlM_nil, result_pure, Except.ok.injEq] at h
    exact h ▸ hI
  | x :: xs, init, out, hI, h => by
    rw [List.foldlM_cons] at h
    obtain ⟨c, hc, h⟩ := result_bind_ok h
    exact foldlM_invariant f I hstep xs c (hstep x xs init c hI hc) h

end Logged

namespace Word

theorem eq_of_add_ok {w : Word} {a b c : Int} (h : w.add a b = .ok c) :
    c = a + b ∧ w.lo ≤ a + b ∧ a + b ≤ w.hi := by
  unfold add at h
  by_cases hw : w.holds (a + b) = true
  · rw [if_pos hw] at h
    cases h
    exact ⟨rfl, by simpa [holds] using hw⟩
  · rw [if_neg hw] at h
    cases h

theorem eq_of_sub_ok {w : Word} {a b c : Int} (h : w.sub a b = .ok c) :
    c = a - b ∧ w.lo ≤ a - b ∧ a - b ≤ w.hi := by
  unfold sub at h
  by_cases hw : w.holds (a - b) = true
  · rw [if_pos hw] at h
    cases h
    exact ⟨rfl, by simpa [holds] using hw⟩
  · rw [if_neg hw] at h
    cases h

end Word

def Within (x : Logged (Option IdSet)) (pool : IdSet) : Prop :=
  ∀ r, x.result = .ok (some r) → r ⊆ pool

namespace IdSet

theorem foldl_union_subset {P : IdSet} :
    ∀ (sets : List IdSet) (acc : IdSet), acc ⊆ P → (∀ s ∈ sets, s ⊆ P) →
      sets.foldl (· ∪ ·) acc ⊆ P
  | [], _, hacc, _ => hacc
  | s :: rest, acc, hacc, hs =>
    foldl_union_subset rest (acc ∪ s) (union_subset hacc (hs s (by simp)))
      (fun t ht => hs t (by simp [ht]))

end IdSet

namespace Hierarchy

open IdSet

theorem unionAll_subset {P : IdSet} {sets : List IdSet} (h : ∀ s ∈ sets, s ⊆ P) :
    unionAll sets ⊆ P :=
  foldl_union_subset sets ∅ (empty_subset P) h

/-! ## Scattered matching -/

section Collect

variable {f : Nat → Logged (Option IdSet)} {P : IdSet} {need : Nat}

theorem collectSpan_within :
    ∀ (left start : Nat) (found : List IdSet) {out : List IdSet},
      (∀ i, start ≤ i → i < start + left → Within (f i) P) → (∀ s ∈ found, s ⊆ P) →
      (collectSpan f need found start left).result = .ok out → ∀ s ∈ out, s ⊆ P
  | 0, _, found, out, _, hfound, h => by
    simp only [collectSpan, Logged.result_pure, Except.ok.injEq] at h
    exact h ▸ hfound
  | left + 1, start, found, out, hf, hfound, h => by
    simp only [collectSpan] at h
    split at h
    · simp only [Logged.result_pure, Except.ok.injEq] at h
      exact h ▸ hfound
    · obtain ⟨r, hr, h⟩ := Logged.result_bind_ok h
      have hnext : ∀ i, start + 1 ≤ i → i < start + 1 + left → Within (f i) P :=
        fun i h₁ h₂ => hf i (by omega) (by omega)
      cases r with
      | none => exact collectSpan_within left (start + 1) found hnext hfound h
      | some s =>
        have hs : s ⊆ P := hf start (Nat.le_refl _) (by omega) s hr
        refine collectSpan_within left (start + 1) (found ++ [s]) hnext ?_ h
        intro t ht
        rcases List.mem_append.1 ht with ht | ht
        · exact hfound t ht
        · rw [List.mem_singleton.1 ht]; exact hs

theorem collectIds_within :
    ∀ (spans : List Span) (found : List IdSet) {out : List IdSet},
      (∀ i, (∃ sp ∈ spans, sp.Covers i) → Within (f i) P) → (∀ s ∈ found, s ⊆ P) →
      (collectIds f need spans found).result = .ok out → ∀ s ∈ out, s ⊆ P
  | [], found, out, _, hfound, h => by
    simp only [collectIds, Logged.result_pure, Except.ok.injEq] at h
    exact h ▸ hfound
  | sp :: rest, found, out, hf, hfound, h => by
    simp only [collectIds] at h
    obtain ⟨found', hfound', h⟩ := Logged.result_bind_ok h
    have hsp : ∀ i, sp.lo ≤ i → i < sp.lo + sp.size → Within (f i) P := by
      intro i h₁ h₂
      refine hf i ⟨sp, by simp, h₁, ?_⟩
      simp only [Span.size] at h₂
      omega
    exact collectIds_within rest found'
      (fun i hi => hf i (hi.imp fun _ hq => ⟨List.mem_cons_of_mem _ hq.1, hq.2⟩))
      (collectSpan_within sp.size sp.lo found hsp hfound hfound') h

end Collect

theorem takeGroup_ok {need : Nat} {innermost : Bool} {sub : IdSet → Logged (Option IdSet)}
    {free : IdSet} {t c : Taken} {g : Group}
    (h : (takeGroup need innermost sub free t g).result = .ok c) :
    (c = t ∧ (t.groups = need ∨ (g.resources ∩ free).isEmpty = true ∨
      (groupFinds innermost sub (g.resources ∩ free) g).result = .ok none)) ∨
    ∃ s, t.groups ≠ need ∧ (g.resources ∩ free).isEmpty = false ∧
      (groupFinds innermost sub (g.resources ∩ free) g).result = .ok (some s) ∧
      c = ⟨t.resources ∪ s, t.groups + 1⟩ := by
  unfold takeGroup at h
  split at h
  · rename_i hneed
    simp only [Logged.result_pure, Except.ok.injEq] at h
    exact .inl ⟨h.symm, .inl hneed⟩
  · rename_i hneed
    dsimp only at h
    split at h
    · rename_i hempty
      simp only [Logged.result_pure, Except.ok.injEq] at h
      exact .inl ⟨h.symm, .inr (.inl hempty)⟩
    · rename_i hempty
      obtain ⟨found, hfound, h⟩ := Logged.result_bind_ok h
      cases found with
      | none =>
        simp only [Logged.result_pure, Except.ok.injEq] at h
        exact .inl ⟨h.symm, .inr (.inr hfound)⟩
      | some s =>
        simp only [Logged.result_pure, Except.ok.injEq] at h
        exact .inr ⟨s, hneed, Bool.eq_false_iff.2 hempty, hfound, h.symm⟩

theorem groupFinds_whole {sub : IdSet → Logged (Option IdSet)} {avail s : IdSet} {g : Group}
    (h : (groupFinds true sub avail g).result = .ok (some s)) : s = avail ∧ avail = g.resources := by
  simp only [groupFinds, if_true, Logged.result_pure, Except.ok.injEq] at h
  split at h
  · rename_i heq
    cases h
    exact ⟨rfl, heq⟩
  · cases h

theorem groupFinds_within {innermost : Bool} {sub : IdSet → Logged (Option IdSet)}
    (hsub : ∀ a, Within (sub a) a) (avail : IdSet) (g : Group) :
    Within (groupFinds innermost sub avail g) avail := by
  intro s hs
  cases innermost with
  | true => exact (groupFinds_whole hs).1 ▸ Subset.refl _
  | false => exact hsub avail s hs

theorem scattered_within (h : Hierarchy) :
    ∀ (levels : List LevelCount) (free : IdSet), Within (h.scattered free levels) free
  | [], free => by
    intro r hr
    simp only [scattered, Logged.result_pure, Except.ok.injEq, reduceCtorEq] at hr
  | l :: inner, free => by
    intro r hr
    unfold scattered at hr
    split at hr
    · split at hr
      · exact firstN_subset hr
      · -- every resource is its own group, tried with the nested request alone
        obtain ⟨found, hfound, hr⟩ := Logged.result_bind_ok hr
        have hall : ∀ s ∈ found, s ⊆ free := by
          refine collectIds_within free.spans [] ?_ (by simp) hfound
          intro i hi s hs x hx
          have hxi := scattered_within h inner (IdSet.ofIds [i]) s hs hx
          simp only [mem_ofIds, List.mem_singleton] at hxi
          exact hxi ▸ hi
        simp only [Logged.result_pure, Except.ok.injEq] at hr
        split at hr
        · cases hr
          exact unionAll_subset hall
        · cases hr
    · split at hr
      · obtain ⟨_, -, hr⟩ := Logged.result_bind_ok hr
        cases hr
      · rename_i gs _
        obtain ⟨taken, htaken, hr⟩ := Logged.result_bind_ok hr
        have hinv := Logged.foldlM_invariant _ (fun _ (t : Taken) => t.resources ⊆ free) ?_ gs
          ⟨∅, 0⟩ (empty_subset free) htaken
        · simp only [Logged.result_pure, Except.ok.injEq] at hr
          split at hr
          · cases hr
            exact hinv
          · cases hr
        · intro g _ t c ht hc
          rcases takeGroup_ok hc with ⟨rfl, -⟩ | ⟨s, -, -, hs, rfl⟩
          · exact ht
          · -- the group gives its free part whole, or what the nested request finds in it
            have hs' := groupFinds_within (fun a => scattered_within h inner a) _ g s hs
            exact union_subset ht (Subset.trans hs' (inter_subset_right g.resources free))

/-! ## Contiguous matching -/

theorem size32_eq {sp : Span} {n : Nat} (h : sp.size32 = .ok n) : n = sp.size := by
  simp only [Span.size32] at h
  split at h
  · cases h; rfl
  · cases h

theorem firstRun_spec {count : Nat} :
    ∀ (spans : List Span) {sp : Span}, firstRun count spans = .ok (some sp) →
      sp ∈ spans ∧ count ≤ sp.size
  | [], sp, h => by cases h
  | q :: rest, sp, h => by
    simp only [firstRun] at h
    cases hq : q.size32 with
    | error e => rw [hq] at h; cases h
    | ok n =>
      rw [hq, except_ok_bind] at h
      split at h
      · rename_i hn
        cases h
        exact ⟨by simp, size32_eq hq ▸ hn⟩
      · obtain ⟨hmem, hle⟩ := firstRun_spec rest h
        exact ⟨List.mem_cons_of_mem _ hmem, hle⟩

theorem shortestRun_spec {count : Nat} :
    ∀ (spans : List Span) (best : Option Span) {sp : Span},
      shortestRun count spans best = .ok (some sp) →
        (sp ∈ spans ∧ count ≤ sp.size) ∨ best = some sp
  | [], best, sp, h => by
    simp only [shortestRun, Except.ok.injEq] at h
    exact .inr h
  | q :: rest, best, sp, h => by
    simp only [shortestRun] at h
    cases hq : q.size32 with
    | error e => rw [hq] at h; cases h
    | ok n =>
      rw [hq, except_ok_bind] at h
      split at h
      · rename_i hn
        rcases shortestRun_spec rest _ h with ⟨hmem, hle⟩ | hbest
        · exact .inl ⟨List.mem_cons_of_mem _ hmem, hle⟩
        · -- the best run so far is this one or the earlier best
          have hnew : q ∈ q :: rest ∧ count ≤ q.size := ⟨by simp, size32_eq hq ▸ hn⟩
          cases best with
          | none =>
            simp only [ite_true, Option.some.injEq] at hbest
            exact .inl (hbest ▸ hnew)
          | some b =>
            by_cases hlt : q.hi - q.lo < b.hi - b.lo
            · simp only [hlt, decide_true, ite_true, Option.some.injEq] at hbest
              exact .inl (hbest ▸ hnew)
            · simp only [hlt, decide_false, Bool.false_eq_true, ite_false] at hbest
              exact .inr hbest
      · rcases shortestRun_spec rest _ h with ⟨hmem, hle⟩ | hbest
        · exact .inl ⟨List.mem_cons_of_mem _ hmem, hle⟩
        · exact .inr hbest

theorem runPrefix_bounds {start count : Nat} {r : IdSet} (h : runPrefix start count = .ok r)
    {x : Nat} (hx : x ∈ r) : start ≤ x ∧ x < start + count := by
  simp only [runPrefix] at h
  cases hadd : Word.u32.add start count with
  | error e => rw [hadd] at h; cases h
  | ok e =>
    obtain ⟨rfl, -⟩ := Word.eq_of_add_ok hadd
    rw [hadd, except_ok_bind] at h
    cases hsub : Word.u32.sub (↑start + ↑count) 1 with
    | error e => rw [hsub] at h; cases h
    | ok e' =>
      obtain ⟨rfl, -⟩ := Word.eq_of_sub_ok hsub
      rw [hsub, except_ok_bind] at h
      simp only [pure, Except.pure, Except.ok.injEq] at h
      subst h
      split at hx
      · exact absurd hx not_mem_empty
      · rename_i hin
        simp only [mem_range] at hx
        omega

theorem runPrefix_subset {free : IdSet} {sp : Span} {count : Nat} {r : IdSet}
    (hmem : sp ∈ free.spans) (hle : count ≤ sp.size)
    (h : (do let p ← runPrefix sp.lo count; pure (some p) : Except Fault (Option IdSet)) =
      .ok (some r)) : r ⊆ free := by
  obtain ⟨p, hp, h⟩ := except_bind_eq_ok h
  cases h
  intro x hx
  have := runPrefix_bounds hp hx
  simp only [Span.size] at hle
  exact ⟨sp, hmem, by omega, by omega⟩

theorem contiguous_within {h : Hierarchy} {free : IdSet} {levels : List LevelCount}
    {bestFit : Bool} {r : IdSet} (hr : h.contiguous free levels bestFit = .ok (some r)) :
    r ⊆ free := by
  unfold contiguous at hr
  split at hr
  · rename_i l
    split at hr
    · cases hr
    · dsimp only at hr
      cases bestFit with
      | true =>
        simp only [ite_true] at hr
        obtain ⟨run, hrun, hr⟩ := except_bind_eq_ok hr
        cases run with
        | none => cases hr
        | some sp =>
          rcases shortestRun_spec free.spans none hrun with ⟨hmem, hle⟩ | hnone
          · exact runPrefix_subset hmem hle hr
          · cases hnone
      | false =>
        simp only [Bool.false_eq_true, ite_false] at hr
        obtain ⟨run, hrun, hr⟩ := except_bind_eq_ok hr
        cases run with
        | none => cases hr
        | some sp =>
          obtain ⟨hmem, hle⟩ := firstRun_spec free.spans hrun
          exact runPrefix_subset hmem hle hr
  · cases hr

/-! ## Local matching -/

theorem mapM_firstN_subset {n : Nat} :
    ∀ (cs : List IdSet) {parts : List (Option IdSet)}, cs.mapM (fun s => s.firstN n) = .ok parts →
      ∀ p ∈ parts, ∀ q, p = some q → ∃ c ∈ cs, q ⊆ c
  | [], parts, h => by
    simp only [List.mapM_nil, pure, Except.pure, Except.ok.injEq] at h
    subst h
    simp
  | c :: rest, parts, h => by
    rw [List.mapM_cons] at h
    cases hc : c.firstN n with
    | error e => rw [hc] at h; cases h
    | ok p =>
      rw [hc, except_ok_bind] at h
      cases hrest : rest.mapM (fun s => s.firstN n) with
      | error e => rw [hrest] at h; cases h
      | ok ps =>
        rw [hrest, except_ok_bind] at h
        simp only [pure, Except.pure, Except.ok.injEq] at h
        subst h
        intro p' hp' q hq
        rcases List.mem_cons.1 hp' with rfl | hp'
        · exact ⟨c, by simp, firstN_subset (hq ▸ hc)⟩
        · obtain ⟨c', hc', hsub⟩ := mapM_firstN_subset rest hrest p' hp' q hq
          exact ⟨c', List.mem_cons_of_mem _ hc', hsub⟩

theorem foldlM_union_subset {P : IdSet} :
    ∀ (parts : List (Option IdSet)) (acc : IdSet) {r : IdSet}, acc ⊆ P →
      (∀ p ∈ parts, ∀ q, p = some q → q ⊆ P) →
      parts.foldlM (fun acc p => p.map (· ∪ acc)) acc = some r → r ⊆ P
  | [], acc, r, hacc, _, h => by
    simp only [List.foldlM_nil, pure, Option.some.injEq] at h
    exact h ▸ hacc
  | p :: rest, acc, r, hacc, hp, h => by
    rw [List.foldlM_cons] at h
    cases p with
    | none => cases h
    | some q =>
      simp only [Option.map_some, Option.bind_eq_bind, Option.bind_some] at h
      exact foldlM_union_subset rest (q ∪ acc) (union_subset (hp _ (by simp) q rfl) hacc)
        (fun p' hp' => hp p' (by simp [hp'])) h

theorem packed_within (h : Hierarchy) (free : IdSet) (levels : List LevelCount) :
    Within (h.packed free levels) free := by
  intro r hr
  unfold packed at hr
  split at hr
  · exact scattered_within h _ free r hr
  · rename_i outer inner
    split at hr
    · cases hr
    · split at hr
      · exact scattered_within h _ free r hr
      · rename_i gs _
        dsimp only at hr
        split at hr
        · cases hr
        · obtain ⟨parts, hparts, hr⟩ := Logged.result_bind_ok hr
          simp only [Logged.result_lift] at hparts
          simp only [Logged.result_pure, Except.ok.injEq] at hr
          have hchosen : ∀ c ∈ ((gs.map (·.resources ∩ free)).filter (inner.count ≤ ·.card)).mergeSort
              (fun a b => decide (a.card ≤ b.card)) |>.take outer.count, c ⊆ free := by
            intro c hc
            have hc' := List.mem_mergeSort.1 (List.mem_of_mem_take hc)
            obtain ⟨hc'', -⟩ := List.mem_filter.1 hc'
            obtain ⟨g, -, rfl⟩ := List.mem_map.1 hc''
            exact inter_subset_right _ _
          refine foldlM_union_subset parts ∅ (empty_subset free) ?_ hr
          intro p hp q hq
          obtain ⟨c, hc, hsub⟩ := mapM_firstN_subset _ hparts p hp q hq
          exact Subset.trans hsub (hchosen c hc)
  · cases hr

/-! ## Requests -/

theorem matchWith_within (h : Hierarchy) (policy : FindPolicy) (free : IdSet)
    (levels : List LevelCount) : Within (h.matchWith policy free levels) free := by
  intro r hr
  cases policy with
  | scattered => exact scattered_within h levels free r hr
  | contiguous => exact contiguous_within hr
  | contiguousBestFit => exact contiguous_within hr
  | «local» => exact packed_within h free levels r hr

/-- A request takes each group among the available resources that its filter and the groups
before it leave, so all it takes is available. -/
theorem requestWith_within (h : Hierarchy) (policy : FindPolicy) (available : IdSet)
    (groups : List RequestGroup) : Within (h.requestWith policy available groups) available := by
  intro r hr
  refine Logged.foldlM_invariant _ (fun _ acc => ∀ t, acc = some t → t ⊆ available) ?_ groups
    (some ∅) (fun t ht => by cases ht; exact empty_subset _) hr r rfl
  intro g _ acc c hacc hc
  unfold requestStep at hc
  split at hc
  · simp only [Logged.result_pure, Except.ok.injEq] at hc
    subst hc
    intro t ht
    cases ht
  · rename_i taken
    dsimp only at hc
    split at hc
    · simp only [Logged.result_pure, Except.ok.injEq] at hc
      subst hc
      intro t ht
      cases ht
    · obtain ⟨found, hfound, hc⟩ := Logged.result_bind_ok hc
      simp only [Logged.result_pure, Except.ok.injEq] at hc
      subst hc
      intro t ht
      cases found with
      | none => cases ht
      | some s =>
        simp only [Option.map_some, Option.some.injEq] at ht
        subst ht
        have hs := matchWith_within h policy _ g.levels s hfound
        exact union_subset (Subset.trans hs (Subset.trans (diff_subset _ _)
          (inter_subset_left _ _))) (hacc taken rfl)

end Hierarchy

end ClusterScheduler
