import ClusterScheduler.Proofs.Narrowing

/-!
# Entries hold no free resources

The time-sharing entries and placeholder reservations of a slot record resources that placed
jobs took. As long as a slot set only loses resources, none of them is free again. The mutations
that take resources (cuts, removals, commits, and placements that take their jobs' resources)
leave every slot a copy of a slot before them whose free resources shrank and whose entries grew
only by resources that left the free set (`SlotsShrink`); that is all the invariant needs. From
slots without entries, every slot set such mutations reach keeps each entry of each slot apart
from the slot's free resources.

Giving resources back breaks it: `add`, and a placement that does not take, free resources that
entries may still hold, which is why they are left out of `Mutation.Takes`.
-/

namespace ClusterScheduler

open IdSet

namespace SlotSet

/-! ## Slots that shrink -/

def SlotsShrink (ss ss' : SlotSet) : Prop :=
  ∀ s' ∈ ss'.slots, ∃ s ∈ ss.slots, Shrinks s.contents s'.contents

theorem SlotsShrink.refl (ss : SlotSet) : SlotsShrink ss ss :=
  fun s hs => ⟨s, hs, Shrinks.refl _⟩

theorem SlotsShrink.trans {ss₁ ss₂ ss₃ : SlotSet} (h₁ : SlotsShrink ss₁ ss₂)
    (h₂ : SlotsShrink ss₂ ss₃) : SlotsShrink ss₁ ss₃ := by
  intro s₃ hs₃
  obtain ⟨s₂, hs₂, h₂₃⟩ := h₂ s₃ hs₃
  obtain ⟨s₁, hs₁, h₁₂⟩ := h₁ s₂ hs₂
  exact ⟨s₁, hs₁, h₁₂.trans h₂₃⟩

theorem slotsShrink_updateIds (ss : SlotSet) (ids : List Int) {f : Slot → Slot}
    (hf : ∀ s, Shrinks s.contents (f s).contents) : SlotsShrink ss (ss.updateIds ids f) := by
  intro s' hs'
  obtain ⟨s, hs, rfl⟩ := List.mem_map.1 hs'
  refine ⟨s, hs, ?_⟩
  split
  · exact hf s
  · exact Shrinks.refl _

theorem splitAt_slotsShrink {ss ss' : SlotSet} {id t k : Int}
    (h : ss.splitAt id t = .ok (ss', k)) : SlotsShrink ss ss' := by
  unfold splitAt at h
  split at h
  · cases h
  · rename_i s hs
    have hmem := (mem_of_slot? hs).1
    split at h
    · cases h
    · split at h
      · cases h
        exact SlotsShrink.refl ss
      · dsimp only at h
        obtain ⟨n, -, h⟩ := except_bind_eq_ok h
        cases h
        intro s' hs'
        obtain ⟨x, hx, hs'⟩ := List.mem_flatMap.1 hs'
        split at hs'
        · -- the halves are copies of the slot of the id
          refine ⟨s, hmem, ?_⟩
          rcases List.mem_pair.1 hs' with rfl | rfl
          · exact Shrinks.refl _
          · exact Shrinks.refl _
        · rw [List.mem_singleton.1 hs']
          exact ⟨x, hx, Shrinks.refl _⟩

theorem splitRange_slotsShrink {ss ss' : SlotSet} {b e : Int} {start : Option Int} {f l : Int}
    (h : ss.splitRange b e start = .ok (some (ss', f, l))) : SlotsShrink ss ss' := by
  unfold splitRange at h
  split at h
  · cases h
  · dsimp only at h
    rw [except_ite_bind] at h
    obtain ⟨⟨ss₁, f₁⟩, h₁, h⟩ := except_bind_eq_ok h
    have hs₁ : SlotsShrink ss ss₁ := by
      split at h₁
      · exact splitAt_slotsShrink h₁
      · cases h₁
        exact SlotsShrink.refl ss
    -- the second cut, if any, then the consistency check, which returns the set as it is
    split at h
    · obtain ⟨after, -, h⟩ := except_bind_eq_ok h
      obtain ⟨⟨ss₂, k⟩, h₂, h⟩ := except_bind_eq_ok h
      obtain ⟨_, hp, h⟩ := except_bind_eq_ok h
      cases hp
      obtain ⟨_, -, h⟩ := except_bind_eq_ok h
      cases h
      exact hs₁.trans (splitAt_slotsShrink h₂)
    · obtain ⟨_, hp, h⟩ := except_bind_eq_ok h
      cases hp
      obtain ⟨_, -, h⟩ := except_bind_eq_ok h
      cases h
      exact hs₁

theorem updateRange_slotsShrink {ss ss' : SlotSet} {r : IdSet} {b e : Int}
    (h : ss.updateRange r b e true = .ok ss') : SlotsShrink ss ss' := by
  unfold updateRange at h
  split at h
  · cases h
    exact SlotsShrink.refl ss
  · obtain ⟨o, ho, h⟩ := except_bind_eq_ok h
    cases o with
    | none =>
      cases h
      exact SlotsShrink.refl ss
    | some q =>
      obtain ⟨ss₁, f, l⟩ := q
      cases h
      exact (splitRange_slotsShrink ho).trans
        (slotsShrink_updateIds _ _ fun s => shrinks_diff r s.contents)

theorem placeJob_slotsShrink {ss ss' : SlotSet} {j : Job} {start : Option Int} {f l : Int}
    (h : ss.placeJob j true start = .ok (some (ss', f, l))) : SlotsShrink ss ss' := by
  unfold placeJob at h
  split at h
  · cases h
  · obtain ⟨o, ho, h⟩ := except_bind_eq_ok h
    cases o with
    | none => cases h
    | some q =>
      obtain ⟨ss₁, f₁, l₁⟩ := q
      cases h
      refine (splitRange_slotsShrink ho).trans (slotsShrink_updateIds _ _ fun s => ?_)
      rw [placeOn_contents]
      exact shrinks_placement j _ s.contents

theorem placeJobs_slotsShrink : ∀ (jobs : List Job) (ss ss' : SlotSet) (start : Option Int),
    ss.placeJobs jobs true start = .ok ss' → SlotsShrink ss ss'
  | [], ss, ss', _, h => by
    cases h
    exact SlotsShrink.refl ss
  | j :: rest, ss, ss', start, h => by
    unfold placeJobs at h
    obtain ⟨o, ho, h⟩ := except_bind_eq_ok h
    cases o with
    | none => exact placeJobs_slotsShrink rest ss ss' start h
    | some q =>
      obtain ⟨ss₁, f, l⟩ := q
      exact (placeJob_slotsShrink ho).trans (placeJobs_slotsShrink rest ss₁ ss' (some f) h)

/-! ## Mutations that take -/

namespace Mutation

/-- The mutations that take resources and never give any back: cuts, removals, commits, and
placements that take their jobs' resources. -/
inductive Takes : Mutation → Prop
  | split (id t : Int) : Takes (.split id t)
  | splitRange (b e : Int) (hint : Option Int) : Takes (.splitRange b e hint)
  | subtract (r : IdSet) (b e : Int) : Takes (.subtract r b e)
  | commit (t d : Int) (r : IdSet) : Takes (.commit t d r)
  | place (j : Job) (hint : Option Int) : Takes (.place j true hint)
  | placeAll (jobs : List Job) (hint : Option Int) : Takes (.placeAll jobs true hint)

theorem run_slotsShrink {ss ss' : SlotSet} {m : Mutation} (hm : m.Takes) (h : m.run ss = .ok ss') :
    SlotsShrink ss ss' := by
  cases hm with
  | split id t =>
    obtain ⟨⟨ss₁, k⟩, h₁, rfl⟩ := except_map_eq_ok h
    exact splitAt_slotsShrink h₁
  | splitRange b e hint =>
    obtain ⟨o, h₁, rfl⟩ := except_map_eq_ok h
    rcases o with _ | ⟨ss₁, f, l⟩
    · exact SlotsShrink.refl ss
    · exact splitRange_slotsShrink h₁
  | subtract r b e => exact updateRange_slotsShrink h
  | commit t d r =>
    obtain ⟨_, -, h⟩ := except_bind_eq_ok h
    obtain ⟨_, -, h⟩ := except_bind_eq_ok h
    exact updateRange_slotsShrink h
  | place j hint =>
    obtain ⟨o, h₁, rfl⟩ := except_map_eq_ok h
    rcases o with _ | ⟨ss₁, f, l⟩
    · exact SlotsShrink.refl ss
    · exact placeJob_slotsShrink h₁
  | placeAll jobs hint => exact placeJobs_slotsShrink jobs ss ss' hint h

end Mutation

/-- The slot sets that mutations taking resources reach from `ss₀`. -/
inductive TakenFrom (ss₀ : SlotSet) : SlotSet → Prop
  | start : TakenFrom ss₀ ss₀
  | step {ss ss' : SlotSet} {m : Mutation} :
      TakenFrom ss₀ ss → m.Takes → m.run ss = .ok ss' → TakenFrom ss₀ ss'

theorem TakenFrom.slotsShrink {ss₀ ss : SlotSet} (h : TakenFrom ss₀ ss) : SlotsShrink ss₀ ss := by
  induction h with
  | start => exact SlotsShrink.refl ss₀
  | step _ hm hrun ih => exact ih.trans (Mutation.run_slotsShrink hm hrun)

/-! ## Entries apart from free resources -/

def EntriesApart (ss : SlotSet) : Prop :=
  ∀ s ∈ ss.slots, ∀ x ∈ s.resources, ¬Entries s.contents x

theorem SlotsShrink.entriesApart {ss ss' : SlotSet} (h : SlotsShrink ss ss')
    (ha : ss.EntriesApart) : ss'.EntriesApart := by
  intro s' hs' x hx he
  obtain ⟨s, hs, hsh⟩ := h s' hs'
  obtain ⟨hx₀, he₀⟩ := hsh x hx
  exact ha s hs x hx₀ (he₀ he)

theorem entriesApart_of_no_entries {ss : SlotSet}
    (h : ∀ s ∈ ss.slots, s.shared = [] ∧ s.reserved = []) : ss.EntriesApart := by
  intro s hs x _ he
  obtain ⟨hsh, hres⟩ := h s hs
  rcases he with ⟨u, ns, hu, -⟩ | ⟨n, r, hr, -⟩
  · simp [Slot.contents, hsh] at hu
  · simp [Slot.contents, hres] at hr

/-- Entries never hold free resources: from slots without time-sharing entries or placeholder
reservations, every slot set that cuts, removals, commits and placements taking their jobs'
resources reach keeps each entry of each of its slots apart from the slot's free resources. -/
theorem entries_hold_no_free_resources {ss₀ ss : SlotSet}
    (h₀ : ∀ s ∈ ss₀.slots, s.shared = [] ∧ s.reserved = []) (h : TakenFrom ss₀ ss) :
    ∀ s ∈ ss.slots,
      (∀ u names, (u, names) ∈ s.shared → ∀ n r, (n, r) ∈ names → r.Disjoint s.resources) ∧
      ∀ n r, (n, r) ∈ s.reserved → r.Disjoint s.resources := by
  have ha : ss.EntriesApart := h.slotsShrink.entriesApart (entriesApart_of_no_entries h₀)
  intro s hs
  refine ⟨fun u names hu n r hr x hx hfree => ?_, fun n r hr x hx hfree => ?_⟩
  · exact ha s hs x hfree (.inl ⟨u, names, hu, n, r, hr, hx⟩)
  · exact ha s hs x hfree (.inr ⟨n, r, hr, hx⟩)

/-- A job sharing with everyone, placed over `[10, 20]` on ids 1 and 2 of a slot `[0, 100]`
holding ids 1 to 4: the middle slot's entry holds ids 1 and 2, no longer free there. -/
theorem entries_hold_no_free_resources_after_sharing :
    let ss₀ := single (IdSet.range 1 4) 0 100
    let ss : SlotSet := ⟨[⟨1, 0, 9, IdSet.range 1 4, [], []⟩,
      ⟨2, 10, 20, IdSet.range 3 4, [("*", [("*", IdSet.range 1 2)])], []⟩,
      ⟨3, 21, 100, IdSet.range 1 4, [], []⟩], 4, []⟩
    (∀ s ∈ ss₀.slots, s.shared = [] ∧ s.reserved = []) ∧ TakenFrom ss₀ ss ∧
      ∀ s ∈ ss.slots,
        (∀ u names, (u, names) ∈ s.shared → ∀ n r, (n, r) ∈ names → r.Disjoint s.resources) ∧
        ∀ n r, (n, r) ∈ s.reserved → r.Disjoint s.resources := by
  intro ss₀ ss
  have h₀ : ∀ s ∈ ss₀.slots, s.shared = [] ∧ s.reserved = [] := by simp [ss₀, single]
  let j : Job :=
    { id := 7, assignment := some ⟨10, 20, IdSet.range 1 2, 0⟩, timeSharing := some .allAll }
  have h : TakenFrom ss₀ ss := .step .start (.place j none) rfl
  exact ⟨h₀, h, entries_hold_no_free_resources h₀ h⟩

end SlotSet

end ClusterScheduler
