import ClusterScheduler.Proofs.PlaceOne
import ClusterScheduler.Proofs.SlotUpdate
import ClusterScheduler.Proofs.SlotEntries

/-!
# Slot sets that cover no time

A container that opens its inner slot set while there is no `default` set spans it from its
own start to the end of time. A container starting past the end of time so opens a set whose
one slot is reversed. Such a set covers no time: no job finds a window in it, and adding
resources to it changes nothing. With the well-formed sets, these are the slot sets a pass
meets.
-/

namespace ClusterScheduler

namespace SlotSet

def Void (ss : SlotSet) : Prop := ∃ s, ss.slots = [s] ∧ s.end < s.begin

def Sane (ss : SlotSet) : Prop := ss.WellFormed ∨ ss.Void

section Void

variable {ss ss' : SlotSet}

theorem Void.contentsAt (hv : ss.Void) (t : Int) : ss.contentsAt t = none := by
  obtain ⟨s, hs, hrev⟩ := hv
  have hcov : s.covers t = false := by
    rw [Bool.eq_false_iff]
    intro h
    have := Slot.covers_iff.1 h
    omega
  simp [SlotSet.contentsAt, hs, hcov]

theorem Void.sameChain (hv : ss.Void) (h : SameChain ss ss') : ss'.Void :=
  let ⟨s, hs, hrev⟩ := hv
  ⟨s, h.1.trans hs, hrev⟩

theorem Sane.sameChain (hs : ss.Sane) (h : SameChain ss ss') : ss'.Sane :=
  hs.imp h.wellFormed fun hv => hv.sameChain h

theorem Void.splitAt_ne (hv : ss.Void) (id t : Int) (r : SlotSet × Int) :
    ss.splitAt id t ≠ .ok r := by
  obtain ⟨s, hs, hrev⟩ := hv
  unfold splitAt
  split
  · intro h
    cases h
  · rename_i x hx
    have hxs : x = s := by simpa [hs] using (mem_of_slot? hx).1
    subst hxs
    rw [if_pos (by omega)]
    intro h
    cases h

theorem Void.check_ne (hv : ss.Void) : ss.check ≠ .ok () := by
  obtain ⟨s, hs, hrev⟩ := hv
  unfold check
  rw [hs]
  simp only [checkChain, if_pos hrev]
  intro h
  cases h

theorem Void.splitRange_ne (hv : ss.Void) {b e : Int} {start : Option Int}
    (q : SlotSet × Int × Int) : ss.splitRange b e start ≠ .ok (some q) := by
  intro h
  unfold splitRange at h
  split at h
  · cases h
  · rw [except_ite_bind] at h
    obtain ⟨⟨ss₁, f₁⟩, h₁, hk⟩ := except_bind_eq_ok h
    -- the first cut cannot be made, so the set is still the reversed one
    have hss₁ : ss₁ = ss := by
      split at h₁
      · exact absurd h₁ (hv.splitAt_ne _ _ _)
      · cases h₁
        rfl
    rw [hss₁] at hk
    dsimp only at hk
    -- nor the second, and the set then fails its check
    split at hk
    · obtain ⟨_, -, hk⟩ := except_bind_eq_ok hk
      obtain ⟨_, h₂, -⟩ := except_bind_eq_ok hk
      exact hv.splitAt_ne _ _ _ h₂
    · obtain ⟨_, hp, hk⟩ := except_bind_eq_ok hk
      cases hp
      obtain ⟨_, hc, -⟩ := except_bind_eq_ok hk
      exact hv.check_ne hc

theorem Void.updateRange_eq (hv : ss.Void) {r : IdSet} {b e : Int} {sub : Bool}
    (h : ss.updateRange r b e sub = .ok ss') : ss' = ss := by
  unfold updateRange at h
  split at h
  · cases h
    rfl
  · obtain ⟨o, ho, h⟩ := except_bind_eq_ok h
    cases o with
    | none =>
      cases h
      rfl
    | some q => exact absurd ho (hv.splitRange_ne q)

theorem Sane.updateRange (hs : ss.Sane) {r : IdSet} {b e : Int} {sub : Bool}
    (h : ss.updateRange r b e sub = .ok ss') : ss'.Sane := by
  rcases hs with hw | hv
  · exact .inl (updateRange_returned hw h).wellFormed
  · rw [hv.updateRange_eq h]
    exact .inr hv

theorem Void.placeJob_none (hv : ss.Void) {j : Job} {sub : Bool} {start : Option Int}
    {r : Option (SlotSet × Int × Int)} (h : ss.placeJob j sub start = .ok r) : r = none := by
  unfold placeJob at h
  split at h
  · cases h
    rfl
  · obtain ⟨o, ho, h⟩ := except_bind_eq_ok h
    cases o with
    | none =>
      cases h
      rfl
    | some q => exact absurd ho (hv.splitRange_ne q)

theorem Void.placeJobs_eq (hv : ss.Void) {sub : Bool} :
    ∀ (jobs : List Job) (start : Option Int), ss.placeJobs jobs sub start = .ok ss' → ss' = ss
  | [], _, h => by
    cases h
    rfl
  | j :: rest, start, h => by
    unfold placeJobs at h
    obtain ⟨r, hr, h⟩ := except_bind_eq_ok h
    obtain rfl := hv.placeJob_none hr
    exact Void.placeJobs_eq hv rest start h

theorem Void.slide_none (hv : ss.Void) {startAfter duration : Int} {available : Slot → IdSet}
    {needed : IdSet → Logged (Option IdSet)} (hdur : 0 < duration) {fromLeft : List Slot}
    (hsub : ∀ x ∈ fromLeft, x ∈ ss.slots) (hstart : startAfter ≤ ss.begin) {right : Slot}
    {ahead : List Slot} {w : Sliding} {win : Option Window}
    (h : (slide ss.end startAfter duration available needed fromLeft right ahead w).result =
      .ok win) : win = none := by
  obtain ⟨s, hs, hrev⟩ := hv
  have hb : ss.begin = s.begin := by simp [SlotSet.begin, first?, hs]
  have he : ss.end = s.end := by simp [SlotSet.end, last?, hs]
  cases fromLeft with
  | nil =>
    simp only [slide, Logged.result_pure, Except.ok.injEq] at h
    exact h.symm
  | cons left rest =>
    have hleft : left = s := by simpa [hs] using hsub left (by simp)
    subst hleft
    unfold slide at h
    obtain ⟨e, he', h⟩ := Logged.result_bind_ok h
    simp only [Logged.result_lift] at he'
    obtain ⟨e₁, he₁, he'⟩ := except_bind_eq_ok he'
    obtain ⟨rfl, -⟩ := Word.eq_of_add_ok he₁
    obtain ⟨rfl, -⟩ := Word.eq_of_sub_ok he'
    -- the window would end past the reversed slot's end
    rw [if_pos (by omega)] at h
    simp only [Logged.result_pure, Except.ok.injEq] at h
    exact h.symm

theorem Void.findWindow_none (hv : ss.Void) {startAfter duration : Int} {hint : Option Int}
    {available : Slot → IdSet} {needed : IdSet → Logged (Option IdSet)} {win : Option Window}
    (h : (ss.findWindow startAfter duration hint available needed).result = .ok win) :
    win = none := by
  obtain ⟨s, hs, hrev⟩ := id hv
  have hmem : ∀ {x}, x ∈ ss.slots → x = s := fun hx => by simpa [hs] using hx
  have hb : ss.begin = s.begin := by simp [SlotSet.begin, first?, hs]
  unfold findWindow at h
  split at h
  · simp only [Logged.result_pure, Except.ok.injEq] at h
    exact h.symm
  · rename_i hdur
    dsimp only at h
    split at h
    · simp only [Logged.result_pure, Except.ok.injEq] at h
      exact h.symm
    · rename_i h₀ hstart₀
      have h₀s : h₀ = s := by
        split at hstart₀
        · rename_i s' hs'
          cases hstart₀
          obtain ⟨i, -, hi⟩ := Option.bind_eq_some_iff.1 hs'
          exact hmem (mem_of_slot? hi).1
        · simp only [first?, hs, List.head?_cons, Option.some.injEq] at hstart₀
          exact hstart₀.symm
      subst h₀s
      split at h
      · simp only [Logged.result_pure, Except.ok.injEq] at h
        exact h.symm
      · rename_i l hleft
        -- the search starts at the slot itself: no slot covers a later time
        split at hleft
        · rename_i hle
          cases hleft
          refine hv.slide_none (by omega) (fun x hx => ?_) (by omega) h
          exact (List.dropWhile_suffix _).subset hx
        · obtain ⟨hl, hcov⟩ := slotAt_sound hleft
          rw [hmem hl] at hcov
          have := Slot.covers_iff.1 hcov
          omega

end Void

theorem single_sane (r : IdSet) {b e : Int} (hlo : Word.i64.lo ≤ b) (hhi : e ≤ Word.i64.hi) :
    (single r b e).Sane := by
  by_cases hbe : b ≤ e
  · exact .inl (single_wellFormed r hbe hlo hhi)
  · exact .inr ⟨_, rfl, by simp only; omega⟩

theorem Sane.single {ss : SlotSet} (hs : ss.Sane) (r : IdSet) : (single r ss.begin ss.end).Sane := by
  rcases hs with hw | ⟨s, hs, hrev⟩
  · obtain ⟨hlo, -, hhi⟩ := hw.bounds
    exact single_sane r hlo hhi
  · -- over a reversed slot, the one slot is reversed too
    refine .inr ⟨_, rfl, ?_⟩
    simp only [SlotSet.begin, SlotSet.end, first?, last?, hs, List.head?_cons,
      List.getLast?_singleton, Option.map_some, Option.getD_some]
    exact hrev

theorem Sane.wellFormed {ss : SlotSet} (hs : ss.Sane) (hle : ss.begin ≤ ss.end) : ss.WellFormed := by
  rcases hs with hw | ⟨s, hs, hrev⟩
  · exact hw
  · simp only [SlotSet.begin, SlotSet.end, first?, last?, hs, List.head?_cons,
      List.getLast?_singleton, Option.map_some, Option.getD_some] at hle
    omega

end SlotSet

namespace Placement

open SlotSet

variable {cl : Cluster} {ss ss' : SlotSet} {j : Job} {minBegin : Option Int}

theorem findForMoldable_void (hv : ss.Void) {m : Moldable} {w : Option Window}
    (h : (findForMoldable cl ss j m minBegin).result = .ok (ss', w)) : ss' = ss ∧ w = none := by
  unfold findForMoldable at h
  dsimp only at h
  obtain ⟨duration, -, h⟩ := Logged.result_bind_ok h
  obtain ⟨found, hfound, h⟩ := Logged.result_bind_ok h
  obtain rfl := hv.findWindow_none hfound
  simp only [Logged.result_pure, Except.ok.injEq, Prod.mk.injEq] at h
  exact ⟨h.1.symm, h.2.symm⟩

theorem firstFit_void (hv : ss.Void) :
    ∀ (ms : List Moldable) (i : Nat) {ss' : SlotSet} {found : Option (Nat × Window)},
      (firstFit cl j minBegin ss i ms).result = .ok (ss', found) → ss' = ss ∧ found = none
  | [], _, ss', found, h => by
    simp only [firstFit, Logged.result_pure, Except.ok.injEq, Prod.mk.injEq] at h
    exact ⟨h.1.symm, h.2.symm⟩
  | m :: rest, i, ss', found, h => by
    simp only [firstFit] at h
    obtain ⟨⟨ss₁, w⟩, h₁, h⟩ := Logged.result_bind_ok h
    obtain ⟨hss₁, rfl⟩ := findForMoldable_void hv h₁
    rw [hss₁] at h
    exact firstFit_void hv rest (i + 1) h

theorem scheduleJob_void (hv : ss.Void) {j' : Job} {placed : Bool}
    (h : (scheduleJob cl ss j minBegin).result = .ok (ss', j', placed)) : j' = j ∧ ss' = ss := by
  unfold scheduleJob at h
  obtain ⟨⟨ss₁, found⟩, hfound, h⟩ := Logged.result_bind_ok h
  obtain ⟨rfl, rfl⟩ := firstFit_void hv j.moldables 0 hfound
  simp only [Logged.result_pure, Except.ok.injEq, Prod.mk.injEq] at h
  exact ⟨h.2.1.symm, h.1.symm⟩

/-- The inner slot set a container opens is well formed, or reversed when the container starts
past the end of time. -/
theorem innerDefault_sane {sets : SlotSets} {a : Assignment}
    (hd : ∀ d, sets.lookup "default" = some d → d.Sane) (ha : Word.i64.lo ≤ a.begin) :
    (innerDefault sets a).Sane := by
  unfold innerDefault
  split
  · rename_i d hdef
    exact (hd d hdef).single ∅
  · exact single_sane ∅ ha (by decide)

end Placement

end ClusterScheduler
