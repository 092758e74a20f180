import ClusterScheduler.Placement
import ClusterScheduler.Proofs.WindowWithin
import ClusterScheduler.Proofs.SlotMutation

/-!
# What placing one job does

The steps of a placement pass, each said once as what it can do. Looking for a window only
touches the placement cache. Placing a job either leaves it unplaced and the chain as it was, or
gives it the first window found, whose resources every slot it meets offers the job, and takes
them out of exactly the times of that window. A placed container adds its resources to its
inner slot set over its time, security time excluded. A step of the pass does one of these to
one job, or leaves slot sets and jobs as they are.
-/

namespace ClusterScheduler

namespace SlotSet

def SameChain (ss ss' : SlotSet) : Prop := ss'.slots = ss.slots ∧ ss'.nextId = ss.nextId

section SameChain

variable {ss ss₁ ss₂ : SlotSet}

theorem SameChain.refl (ss : SlotSet) : SameChain ss ss := ⟨rfl, rfl⟩

theorem SameChain.trans (h₁ : SameChain ss ss₁) (h₂ : SameChain ss₁ ss₂) : SameChain ss ss₂ :=
  ⟨h₂.1.trans h₁.1, h₂.2.trans h₁.2⟩

theorem sameChain_remember (ss : SlotSet) (k : String) (i : Int) :
    SameChain ss (ss.remember k i) := ⟨rfl, rfl⟩

theorem SameChain.wellFormed (h : SameChain ss ss₁) (hw : ss.WellFormed) : ss₁.WellFormed := by
  obtain ⟨hs, hn⟩ := h
  exact ⟨hs ▸ hw.nonempty, hs ▸ hw.ordered, hs ▸ hw.linked, hs ▸ hw.distinct,
    hs ▸ hn ▸ hw.fresh, hn ▸ hw.counter, hs ▸ hw.times⟩

theorem SameChain.contentsAt_eq (h : SameChain ss ss₁) (t : Int) :
    ss₁.contentsAt t = ss.contentsAt t := by
  simp only [contentsAt, h.1]

theorem SameChain.begin_eq (h : SameChain ss ss₁) : ss₁.begin = ss.begin := by
  simp only [SlotSet.begin, first?, h.1]

theorem SameChain.end_eq (h : SameChain ss ss₁) : ss₁.end = ss.end := by
  simp only [SlotSet.end, last?, h.1]

theorem SameChain.fits {startAfter duration : Int} {available : Slot → IdSet} {w : Window}
    (h : SameChain ss ss₁) (hf : Fits ss₁ startAfter duration available w) :
    Fits ss startAfter duration available w :=
  ⟨hf.start, hf.length, hf.nonempty, h.end_eq ▸ hf.end_le, h.1 ▸ hf.beginSlot, h.1 ▸ hf.offered⟩

theorem SameChain.updated {k : Nat} {b e : Int} {g : Slot → Slot} (h : SameChain ss ss₁)
    (hU : Updated ss₁ ss₂ k b e g) : Updated ss ss₂ k b e g := by
  refine ⟨hU.wellFormed, h.begin_eq ▸ hU.begin_eq, h.end_eq ▸ hU.end_eq, h.2 ▸ hU.nextId_ge,
    h.2 ▸ hU.nextId_le, fun t => ?_⟩
  rw [hU.pointwise t, h.1, h.contentsAt_eq]

end SameChain

end SlotSet

namespace Placement

open SlotSet

/-- The resources a slot offers a job: its free ones, those its time-sharing identity may
share, and those reserved for its placeholder name. -/
def offered (j : Job) (s : Slot) : IdSet :=
  s.availableFor (j.timeSharing.map fun _ => (j.user.getD "", j.name.getD "")) j.placeholder

variable {cl : Cluster}

theorem findForMoldable_fits {ss ss' : SlotSet} (hw : ss.WellFormed) {j : Job} {m : Moldable}
    {minBegin : Option Int} {win : Window}
    (h : (findForMoldable cl ss j m minBegin).result = .ok (ss', some win)) :
    Fits ss (minBegin.getD ss.begin) (m.walltime + cl.config.securityTime) (offered j) win := by
  unfold findForMoldable at h
  dsimp only at h
  obtain ⟨duration, hd, h₁⟩ := Logged.result_bind_ok h
  obtain ⟨found, hfound, hr⟩ := Logged.result_bind_ok h₁
  simp only [Logged.result_pure, Except.ok.injEq, Prod.mk.injEq] at hr
  rw [Logged.result_lift] at hd
  obtain ⟨rfl, -⟩ := Word.eq_of_add_ok hd
  rw [hr.2] at hfound
  exact findWindow_fits hw (fun free => Hierarchy.requestWith_within _ _ free _) hfound

theorem findForMoldable_none {ss ss' : SlotSet} {j : Job} {m : Moldable} {minBegin : Option Int}
    (h : (findForMoldable cl ss j m minBegin).result = .ok (ss', none)) : ss' = ss := by
  unfold findForMoldable at h
  dsimp only at h
  obtain ⟨duration, -, h⟩ := Logged.result_bind_ok h
  obtain ⟨found, -, h⟩ := Logged.result_bind_ok h
  simp only [Logged.result_pure, Except.ok.injEq, Prod.mk.injEq] at h
  obtain ⟨h, rfl⟩ := h
  exact h.symm

theorem findForMoldable_spec {ss ss' : SlotSet} (hw : ss.WellFormed) {j : Job} {m : Moldable}
    {minBegin : Option Int} {w : Option Window}
    (h : (findForMoldable cl ss j m minBegin).result = .ok (ss', w)) :
    SameChain ss ss' ∧ ∀ win, w = some win → ∃ startAfter duration,
      Fits ss startAfter duration (offered j) win := by
  refine ⟨?_, fun win hwin => ⟨_, _, findForMoldable_fits hw (hwin ▸ h)⟩⟩
  unfold findForMoldable at h
  dsimp only at h
  obtain ⟨duration, -, h⟩ := Logged.result_bind_ok h
  obtain ⟨found, -, h⟩ := Logged.result_bind_ok h
  simp only [Logged.result_pure, Except.ok.injEq, Prod.mk.injEq] at h
  obtain ⟨rfl, -⟩ := h
  split
  · split
    · exact sameChain_remember _ _ _
    · exact SameChain.refl _
  · exact SameChain.refl _

theorem firstFit_spec {j : Job} {minBegin : Option Int} :
    ∀ (ms : List Moldable) (ss : SlotSet) (i : Nat) {ss' : SlotSet}
      {found : Option (Nat × Window)}, ss.WellFormed →
      (firstFit cl j minBegin ss i ms).result = .ok (ss', found) →
      SameChain ss ss' ∧ ∀ k win, found = some (k, win) → ∃ startAfter duration,
        Fits ss startAfter duration (offered j) win
  | [], ss, _, ss', found, _, h => by
    simp only [firstFit, Logged.result_pure, Except.ok.injEq, Prod.mk.injEq] at h
    obtain ⟨rfl, rfl⟩ := h
    exact ⟨SameChain.refl _, fun _ _ h => by cases h⟩
  | m :: rest, ss, i, ss', found, hw, h => by
    simp only [firstFit] at h
    obtain ⟨⟨ss₁, w⟩, h₁, h⟩ := Logged.result_bind_ok h
    obtain ⟨hsame, hfits⟩ := findForMoldable_spec hw h₁
    cases w with
    | some win =>
      simp only [Logged.result_pure, Except.ok.injEq, Prod.mk.injEq] at h
      obtain ⟨rfl, rfl⟩ := h
      refine ⟨hsame, fun k win' hk => ?_⟩
      simp only [Option.some.injEq, Prod.mk.injEq] at hk
      exact hk.2 ▸ hfits win rfl
    | none =>
      obtain ⟨hsame', hfits'⟩ := firstFit_spec rest ss₁ (i + 1) (hsame.wellFormed hw) h
      refine ⟨hsame.trans hsame', fun k win hk => ?_⟩
      obtain ⟨sa, d, hf⟩ := hfits' k win hk
      exact ⟨sa, d, hsame.fits hf⟩

/-- Placing a job, when it returns: either no window is found, the job is left as it was and the
chain too, or the job gets an assignment inside the set whose resources every slot it meets
offers it, and they are taken out of exactly the times of the assignment. No room is assumed
in the id counter: a placement that returned had what its cuts needed. -/
theorem scheduleJob_returned {ss : SlotSet} (hw : ss.WellFormed) {j : Job} {minBegin : Option Int}
    {ss' : SlotSet} {j' : Job} {placed : Bool}
    (h : (scheduleJob cl ss j minBegin).result = .ok (ss', j', placed)) :
    (j' = j ∧ SameChain ss ss') ∨
    ∃ a : Assignment, j' = { j with assignment := some a } ∧ a.begin ≤ a.end ∧
      ss.begin ≤ a.begin ∧ a.end ≤ ss.end ∧
      (∀ s ∈ ss.slots, s.begin ≤ a.end → a.begin ≤ s.end → a.resources ⊆ offered j s) ∧
      Updated ss ss' 2 a.begin a.end (placeOn j' a.resources true) := by
  unfold scheduleJob at h
  obtain ⟨⟨ss₁, found⟩, hfound, h⟩ := Logged.result_bind_ok h
  obtain ⟨hsame, hfits⟩ := firstFit_spec j.moldables ss 0 hw hfound
  cases found with
  | none =>
    simp only [Logged.result_pure, Except.ok.injEq, Prod.mk.injEq] at h
    obtain ⟨rfl, rfl, -⟩ := h
    exact .inl ⟨rfl, hsame⟩
  | some p =>
    obtain ⟨i, w⟩ := p
    obtain ⟨sa, d, hf⟩ := hfits i w rfl
    dsimp only at h
    obtain ⟨placed', hplaced, h⟩ := Logged.result_bind_ok h
    simp only [Logged.result_lift] at hplaced
    simp only [Logged.result_pure, Except.ok.injEq, Prod.mk.injEq] at h
    obtain ⟨rfl, rfl, -⟩ := h
    right
    obtain ⟨s, hs, hsid, hsb⟩ := hf.beginSlot
    refine ⟨⟨w.begin, w.end, w.resources, i⟩, rfl, hf.nonempty,
      Int.le_trans (hw.within hs).1 hsb, hf.end_le, hf.offered, ?_⟩
    -- the job is placed from the window's first slot, which begins no later than the window
    have hU := placeJob_spec_returned (hsame.wellFormed hw)
      (rfl : ({ j with assignment := some ⟨w.begin, w.end, w.resources, i⟩ } : Job).assignment =
        some ⟨w.begin, w.end, w.resources, i⟩) hf.nonempty
      (.inr fun h hh => ⟨s, hsame.1 ▸ hs, hsid.trans (Option.some.inj (Option.mem_def.1 hh)), hsb⟩)
      hplaced
    cases placed' with
    | none => exact hsame.updated hU
    | some q =>
      obtain ⟨ss₂, f, l⟩ := q
      exact hsame.updated hU

/-- The inner slot set a container opens where there is none yet: an empty set spanning the
`default` set, or from the container's start to the end of time. -/
def innerDefault (sets : SlotSets) (a : Assignment) : SlotSet :=
  match sets.lookup "default" with
  | some d => SlotSet.single ∅ d.begin d.end
  | none => SlotSet.single ∅ a.begin maxTime

theorem updateContainer_cases {sets sets' : SlotSets} {j : Job}
    (h : (updateContainer cl sets j).result = .ok sets') :
    sets' = sets ∨ ∃ name a inner, j.containerSlotSetName = some name ∧ j.assignment = some a ∧
      a.begin ≤ a.end - cl.config.securityTime ∧
      ((sets.lookup name).getD (innerDefault sets a)).add a.resources a.begin
        (a.end - cl.config.securityTime) = .ok inner ∧
      sets' = sets.put name inner := by
  unfold updateContainer at h
  split at h
  · rename_i name a hname ha
    obtain ⟨e, he, h⟩ := Logged.result_bind_ok h
    simp only [Logged.result_lift] at he
    obtain ⟨rfl, -⟩ := Word.eq_of_sub_ok he
    split at h
    · obtain ⟨_, -, h⟩ := Logged.result_bind_ok h
      simp only [Logged.result_pure, Except.ok.injEq] at h
      exact .inl h.symm
    · rename_i hlong
      obtain ⟨inner, hinner, h⟩ := Logged.result_bind_ok h
      simp only [Logged.result_pure, Except.ok.injEq] at h
      simp only [Logged.result_lift] at hinner
      refine .inr ⟨name, a, inner, hname, ha, by omega, ?_, h.symm⟩
      rw [← hinner]
      unfold innerDefault
      cases sets.lookup "default" <;> rfl
  · simp only [Logged.result_pure, Except.ok.injEq] at h
    exact .inl h.symm

/-- A step of the pass either leaves slot sets and jobs as they are, or places the job of its
id in the slot set it names, then lets a container update its inner slot set. -/
theorem step_cases {p p' : Pass} {id : Int} (h : (step cl p id).result = .ok p') :
    (p'.sets = p.sets ∧ p'.jobs = p.jobs) ∨
    ∃ j name ss minBegin ss₁ j₁ placed sets₂, p.jobs.find? (·.id = id) = some j ∧
      j.slotSetName.result = .ok name ∧ p.sets.lookup name = some ss ∧
      (scheduleJob cl ss j minBegin).result = .ok (ss₁, j₁, placed) ∧
      (if j₁.isContainer then updateContainer cl (p.sets.put name ss₁) j₁
        else pure (p.sets.put name ss₁)).result = .ok sets₂ ∧
      p'.sets = sets₂ ∧ p'.jobs = replaceJob p.jobs j₁ := by
  unfold step at h
  split at h
  · simp only [Logged.result_pure, Except.ok.injEq] at h
    exact .inl ⟨h ▸ rfl, h ▸ rfl⟩
  · rename_i j hj
    obtain ⟨deps, -, h⟩ := Logged.result_bind_ok h
    split at h
    · simp only [Logged.result_pure, Except.ok.injEq] at h
      exact .inl ⟨h ▸ rfl, h ▸ rfl⟩
    · dsimp only at h
      split at h
      · obtain ⟨_, -, h⟩ := Logged.result_bind_ok h
        simp only [Logged.result_pure, Except.ok.injEq] at h
        exact .inl ⟨h ▸ rfl, h ▸ rfl⟩
      · obtain ⟨name, hname, h⟩ := Logged.result_bind_ok h
        split at h
        · obtain ⟨_, -, h⟩ := Logged.result_bind_ok h
          obtain ⟨_, -, h⟩ := Logged.result_bind_ok h
          simp only [Logged.result_pure, Except.ok.injEq] at h
          exact .inl ⟨h ▸ rfl, h ▸ rfl⟩
        · rename_i ss hss
          obtain ⟨⟨ss₁, j₁, placed⟩, hsched, h⟩ := Logged.result_bind_ok h
          dsimp only at h
          rw [Logged.ite_bind] at h
          obtain ⟨sets₂, hsets, h⟩ := Logged.result_bind_ok h
          simp only [Logged.result_pure, Except.ok.injEq] at h
          exact .inr ⟨j, name, ss, _, ss₁, j₁, placed, sets₂, hj, hname, hss, hsched, hsets,
            h ▸ rfl, h ▸ rfl⟩

end Placement

end ClusterScheduler
