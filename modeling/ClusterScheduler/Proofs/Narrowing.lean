import ClusterScheduler.Proofs.NoDoubleBooking

/-!
# Slot sets that only narrow

Taking resources out of a slot set, whether leaving resources or what scheduled jobs hold, only
narrows it: at every time its free resources shrink, and no free resource joins a time-sharing
entry or a reservation. `Narrows` says so of two sets over the same bounds.

Scheduled jobs are taken out one after the other, each search for slots starting at the first
slot of the job before. Taken by start time, the hint never lies past the slot of the next job's
beginning, so every job that meets the set is found and what it holds leaves the free resources
(`placeJobs_takes`).
-/

namespace ClusterScheduler

open IdSet SlotSet Placement

namespace SlotSet

/-! ## Contents that shrink -/

/-- The free resources of `c'` are free in `c`, and a free resource in an entry of `c'` is in an
entry of `c`. -/
def Shrinks (c c' : IdSet × SharedSets × NamedSets) : Prop :=
  ∀ x ∈ c'.1, x ∈ c.1 ∧ (Entries c' x → Entries c x)

theorem Shrinks.refl (c : IdSet × SharedSets × NamedSets) : Shrinks c c :=
  fun _ hx => ⟨hx, id⟩

theorem Shrinks.trans {c₁ c₂ c₃ : IdSet × SharedSets × NamedSets} (h₁ : Shrinks c₁ c₂)
    (h₂ : Shrinks c₂ c₃) : Shrinks c₁ c₃ := by
  intro x hx
  obtain ⟨hx₂, he₂⟩ := h₂ x hx
  obtain ⟨hx₁, he₁⟩ := h₁ x hx₂
  exact ⟨hx₁, he₁ ∘ he₂⟩

theorem shrinks_placement (j : Job) (r : IdSet) (c : IdSet × SharedSets × NamedSets) :
    Shrinks c (placement j r true c) := by
  intro x hx
  have hx' : x ∈ c.1 ∧ x ∉ r := by simpa [placement] using hx
  exact ⟨hx'.1, fun he => (entries_placement he).resolve_right hx'.2⟩

theorem shrinks_diff (r : IdSet) (c : IdSet × SharedSets × NamedSets) :
    Shrinks c (c.1 \ r, c.2) :=
  fun _ hx => ⟨(mem_diff.1 hx).1, id⟩

/-! ## Narrowing sets -/

def Apart (ss : SlotSet) : Prop := ∀ t c, ss.contentsAt t = some c → ∀ x ∈ c.1, ¬Entries c x

/-- `ss'` spans what `ss` spans, and at every time its contents shrink those of `ss`. -/
structure Narrows (ss ss' : SlotSet) : Prop where
  begin_eq : ss'.begin = ss.begin
  end_eq : ss'.end = ss.end
  shrinks : ∀ t c', ss'.contentsAt t = some c' → ∃ c, ss.contentsAt t = some c ∧ Shrinks c c'

theorem Narrows.refl (ss : SlotSet) : Narrows ss ss :=
  ⟨rfl, rfl, fun _ c h => ⟨c, h, Shrinks.refl c⟩⟩

theorem Narrows.trans {ss₁ ss₂ ss₃ : SlotSet} (h₁ : Narrows ss₁ ss₂) (h₂ : Narrows ss₂ ss₃) :
    Narrows ss₁ ss₃ := by
  refine ⟨h₂.begin_eq.trans h₁.begin_eq, h₂.end_eq.trans h₁.end_eq, fun t c₃ hc₃ => ?_⟩
  obtain ⟨c₂, hc₂, h₂₃⟩ := h₂.shrinks t c₃ hc₃
  obtain ⟨c₁, hc₁, h₁₂⟩ := h₁.shrinks t c₂ hc₂
  exact ⟨c₁, hc₁, h₁₂.trans h₂₃⟩

theorem Narrows.free {ss ss' : SlotSet} (h : Narrows ss ss') {t : Int} {c' : IdSet × SharedSets × NamedSets}
    (hc' : ss'.contentsAt t = some c') {x : Nat} (hx : x ∈ c'.1) :
    ∃ c, ss.contentsAt t = some c ∧ x ∈ c.1 := by
  obtain ⟨c, hc, hsh⟩ := h.shrinks t c' hc'
  exact ⟨c, hc, (hsh x hx).1⟩

theorem Narrows.apart {ss ss' : SlotSet} (h : Narrows ss ss') (ha : ss.Apart) : ss'.Apart := by
  intro t c' hc' x hx he
  obtain ⟨c, hc, hsh⟩ := h.shrinks t c' hc'
  obtain ⟨hx₀, he₀⟩ := hsh x hx
  exact ha t c hc x hx₀ (he₀ he)

theorem AppliedOver.narrows {ss ss' : SlotSet} {b e : Int}
    {f : IdSet × SharedSets × NamedSets → IdSet × SharedSets × NamedSets}
    (hA : AppliedOver ss ss' b e f) (hf : ∀ c, Shrinks c (f c)) : Narrows ss ss' := by
  refine ⟨hA.begin_eq, hA.end_eq, fun t c' hc' => ?_⟩
  rw [hA.contentsAt_eq t] at hc'
  split at hc'
  · obtain ⟨c, hc, rfl⟩ := Option.map_eq_some_iff.1 hc'
    exact ⟨c, hc, hf c⟩
  · exact ⟨c', hc', Shrinks.refl c'⟩

theorem AppliedOver.not_holds {ss ss₁ ss' : SlotSet} {j : Job} {a : Assignment}
    (ha : j.assignment = some a) (hA : AppliedOver ss ss₁ a.begin a.end (placement j a.resources true))
    (hN : Narrows ss₁ ss') : ∀ t c, ss'.contentsAt t = some c → ∀ x ∈ c.1, ¬Holds j t x := by
  rintro t c hc x hx ⟨a', ha', hb, he, hxa⟩
  rw [ha, Option.some.injEq] at ha'
  subst ha'
  obtain ⟨c₁, hc₁, hx₁⟩ := hN.free hc hx
  rw [hA.contentsAt_eq t, if_pos ⟨hb, he⟩] at hc₁
  obtain ⟨c₀, -, rfl⟩ := Option.map_eq_some_iff.1 hc₁
  simp [placement, hxa] at hx₁

theorem WellFormed.mem_bounds {ss : SlotSet} (hw : ss.WellFormed) {t : Int}
    {c : IdSet × SharedSets × NamedSets} (h : ss.contentsAt t = some c) :
    ss.begin ≤ t ∧ t ≤ ss.end := by
  obtain ⟨s, hs, hsb, hse, -⟩ := contentsAt_eq_some h
  have := hw.within hs
  omega

theorem Sane.mem_bounds {ss : SlotSet} (hs : ss.Sane) {t : Int}
    {c : IdSet × SharedSets × NamedSets} (h : ss.contentsAt t = some c) :
    ss.begin ≤ t ∧ t ≤ ss.end := by
  rcases hs with hw | hv
  · exact hw.mem_bounds h
  · rw [hv.contentsAt t] at h
    cases h

/-! ## Placing jobs by start time -/

def startKey (j : Job) : Int := (j.assignment.map (·.begin)).getD 0

/-- A search for the slots of a job beginning at `b` may start from the hint `start`: `b` lies
before the set, or the hinted slot begins no later than `b`. -/
def HintFits (ss : SlotSet) (start : Option Int) (b : Int) : Prop :=
  b < ss.begin ∨ ∀ h ∈ start, ∃ x ∈ ss.slots, x.id = h ∧ x.begin ≤ b

theorem placeJob_first {ss ss' : SlotSet} (hw : ss.WellFormed) {j : Job} {a : Assignment}
    (ha : j.assignment = some a) (hbe : a.begin ≤ a.end) {sub : Bool} {start : Option Int}
    {f l : Int} (h : ss.placeJob j sub start = .ok (some (ss', f, l))) :
    ∃ F ∈ ss'.slots, F.id = f ∧ F.begin = max a.begin ss.begin := by
  unfold placeJob at h
  rw [ha] at h
  dsimp only at h
  obtain ⟨o, ho, h⟩ := except_bind_eq_ok h
  rcases o with _ | ⟨ss₁, f₁, l₁⟩
  · cases h
  obtain ⟨-, F, hF, L, -, rfl, rfl, hFb, -⟩ := splitRange_returned hw hbe ho
  obtain ⟨rfl, rfl, -⟩ := Prod.mk.inj (Option.some.inj (Except.ok.inj h))
  have hk := keepsFrame_ite ((if sub then ss₁ else ss₁.forget).idsBetween F.id L.id)
    (keepsFrame_placeOn j a.resources sub)
  have hslots : (if sub then ss₁ else ss₁.forget).slots = ss₁.slots := by cases sub <;> rfl
  refine ⟨_, List.mem_map_of_mem (hslots ▸ hF), (hk F).1, ?_⟩
  rw [(hk F).2.1, hFb]

/-- Placing jobs sorted by start time, taking their resources, when it returns: the set stays
sane and narrows, and no job's resource stays free while the job holds it. -/
theorem placeJobs_takes : ∀ (jobs : List Job) (ss : SlotSet) (start : Option Int) {ss' : SlotSet},
    ss.Sane → (∀ j ∈ jobs, ∀ a, j.assignment = some a → a.begin ≤ a.end) →
    jobs.Pairwise (fun j k => startKey j ≤ startKey k) →
    (∀ j ∈ jobs, ∀ a, j.assignment = some a → HintFits ss start a.begin) →
    ss.placeJobs jobs true start = .ok ss' →
    ss'.Sane ∧ Narrows ss ss' ∧
      ∀ K ∈ jobs, ∀ t c, ss'.contentsAt t = some c → ∀ x ∈ c.1, ¬Holds K t x
  | [], ss, _, ss', hS, _, _, _, h => by
    cases h
    exact ⟨hS, Narrows.refl ss, by simp⟩
  | j :: rest, ss, start, ss', hS, hint, hsort, hfit, h => by
    rcases hS with hw | hv
    swap
    · -- a reversed set takes nothing, and holds nothing free
      rw [hv.placeJobs_eq (j :: rest) start h]
      exact ⟨.inr hv, Narrows.refl ss, fun K _ t c hc => by rw [hv.contentsAt t] at hc; cases hc⟩
    have hrest : ∀ k ∈ rest, ∀ a, k.assignment = some a → a.begin ≤ a.end :=
      fun k hk => hint k (List.mem_cons_of_mem _ hk)
    obtain ⟨hj, hsort'⟩ := List.pairwise_cons.1 hsort
    unfold placeJobs at h
    obtain ⟨r, hr, h⟩ := except_bind_eq_ok h
    cases ha : j.assignment with
    | none =>
      rw [placeJob_unassigned ss ha] at hr
      obtain rfl := Except.ok.inj hr
      obtain ⟨hS', hN, htaken⟩ := placeJobs_takes rest ss start (.inl hw) hrest hsort'
        (fun k hk => hfit k (List.mem_cons_of_mem _ hk)) h
      refine ⟨hS', hN, fun K hK => ?_⟩
      rcases List.mem_cons.1 hK with rfl | hK
      · exact fun t c _ x _ => not_holds_of_none ha t x
      · exact htaken K hK
    | some a =>
      have hbe := hint j List.mem_cons_self a ha
      have hU := placeJob_spec_returned hw ha hbe (hfit j List.mem_cons_self a ha) hr
      have hA := hU.appliedOver (placeOn_contents j a.resources true)
      -- this job narrows the set and takes what it holds, whatever the rest does after it
      have hjob : ∀ {ss'}, Narrows ((r.map Prod.fst).getD ss) ss' →
          (∀ K ∈ rest, ∀ t c, ss'.contentsAt t = some c → ∀ x ∈ c.1, ¬Holds K t x) →
          Narrows ss ss' ∧ ∀ K ∈ j :: rest, ∀ t c, ss'.contentsAt t = some c → ∀ x ∈ c.1, ¬Holds K t x := by
        intro ss' hN htaken
        refine ⟨(hA.narrows (shrinks_placement j _)).trans hN, fun K hK => ?_⟩
        rcases List.mem_cons.1 hK with rfl | hK
        · exact hA.not_holds ha hN
        · exact htaken K hK
      rcases r with _ | ⟨ss₁, f, l⟩
      · obtain ⟨hS', hN, htaken⟩ := placeJobs_takes rest ss start (.inl hU.wellFormed) hrest hsort'
          (fun k hk => hfit k (List.mem_cons_of_mem _ hk)) h
        exact ⟨hS', hjob hN htaken⟩
      · -- the next search starts at this job's first slot, which begins no later than the next job
        obtain ⟨F, hF, rfl, hFb⟩ := placeJob_first hw ha hbe hr
        have hfit' : ∀ k ∈ rest, ∀ b, k.assignment = some b → HintFits ss₁ (some F.id) b.begin := by
          intro k hk b hkb
          have hkey : a.begin ≤ b.begin := by simpa [startKey, ha, hkb] using hj k hk
          by_cases hlt : b.begin < ss.begin
          · exact .inl (hU.begin_eq ▸ hlt)
          · exact .inr fun h hh => ⟨F, hF, by simpa using hh, by omega⟩
        obtain ⟨hS', hN, htaken⟩ :=
          placeJobs_takes rest ss₁ (some F.id) (.inl hU.wellFormed) hrest hsort' hfit' h
        exact ⟨hS', hjob hN htaken⟩

end SlotSet

end ClusterScheduler
