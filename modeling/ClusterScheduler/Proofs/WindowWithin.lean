import ClusterScheduler.SlotSet.Search
import ClusterScheduler.Proofs.MatchWithin
import ClusterScheduler.Proofs.SlotChain
import ClusterScheduler.Proofs.SlidingQueue

/-!
# Windows fit their slots

The window search keeps the slots from the window's left slot to its right slot as one stretch
of the chain, and the sliding intersection as what each of them offers. A window it gives
therefore starts no earlier than asked, in or after its left slot, lasts its duration within
the set, and holds resources that every slot it meets offers the job, as long as the chooser
`needed` takes its resources among the ones it is handed.
-/

namespace ClusterScheduler

open IdSet

namespace SlotSet

/-- A window found in a slot set: it starts no earlier than asked, inside or after a slot of
the set named by its begin slot, lasts `duration` seconds within the set, and every slot it
meets offers its resources. -/
structure Fits (ss : SlotSet) (startAfter duration : Int) (available : Slot → IdSet)
    (w : Window) : Prop where
  start : startAfter ≤ w.begin
  length : w.end = w.begin + duration - 1
  nonempty : w.begin ≤ w.end
  end_le : w.end ≤ ss.end
  beginSlot : ∃ s ∈ ss.slots, s.id = w.beginSlot ∧ s.begin ≤ w.begin
  offered : ∀ s ∈ ss.slots, s.begin ≤ w.end → w.begin ≤ s.end → w.resources ⊆ available s

section Search

variable {available : Slot → IdSet}

/-- The window's slots: a stretch of the chain ending at `right`, the chain going on as
`ahead`, with the sliding intersection over what each slot of the stretch offers. -/
def Frame (available : Slot → IdSet) (fromLeft : List Slot) (right : Slot) (ahead : List Slot)
    (w : Sliding) : Prop :=
  ∃ seg, fromLeft = seg ++ ahead ∧ seg.getLast? = some right ∧ w.Represents (seg.map available)

theorem extendTo_frame {e : Int} {fromLeft : List Slot} :
    ∀ (ahead : List Slot) (right : Slot) (w : Sliding) {right' : Slot} {ahead' : List Slot}
      {w' : Sliding}, Frame available fromLeft right ahead w →
      extendTo available e right ahead w = some (right', ahead', w') →
      Frame available fromLeft right' ahead' w' ∧ e ≤ right'.end
  | [], right, w, right', ahead', w', hF, h => by
    unfold extendTo at h
    split at h
    · cases h
    · cases h
      exact ⟨hF, by omega⟩
  | r :: more, right, w, right', ahead', w', hF, h => by
    unfold extendTo at h
    split at h
    · -- the next slot joins the window
      obtain ⟨seg, hl, hlast, hitems⟩ := hF
      refine extendTo_frame more r (w.push (available r)) ⟨seg ++ [r], ?_, ?_, ?_⟩ h
      · simp [hl]
      · simp
      · simpa using hitems.push (available r)
    · cases h
      exact ⟨hF, by omega⟩

theorem frame_single {fromLeft rest : List Slot} {left right : Slot} {ahead : List Slot}
    {w : Sliding} (hl : fromLeft = left :: rest) (hnodup : (fromLeft.map Slot.id).Nodup)
    (hF : Frame available fromLeft right ahead w) (hid : left.id = right.id) :
    rest = ahead ∧ w.Represents [available left] := by
  obtain ⟨seg, hseg, hlast, hitems⟩ := hF
  cases seg with
  | nil => simp at hlast
  | cons a seg₁ =>
    rw [hl, List.cons_append] at hseg
    obtain ⟨rfl, rfl⟩ := List.cons.inj hseg
    cases seg₁ with
    | nil =>
      exact ⟨by simp, by simpa using hitems⟩
    | cons b seg₂ =>
      -- `right` lies after `left` in the stretch, so their ids differ
      have hr : right ∈ b :: seg₂ := by
        rw [List.getLast?_cons_cons] at hlast
        exact List.mem_of_getLast? hlast
      have hmem : left.id ∈ ((b :: seg₂) ++ ahead).map Slot.id :=
        List.mem_map.2 ⟨right, List.mem_append_left _ hr, hid.symm⟩
      rw [hl, List.map_cons, List.nodup_cons] at hnodup
      exact absurd hmem hnodup.1

theorem frame_pop {fromLeft rest : List Slot} {left right : Slot} {ahead : List Slot}
    {w : Sliding} (hl : fromLeft = left :: rest) (hF : Frame available fromLeft right ahead w)
    (hid : left.id ≠ right.id) : Frame available rest right ahead w.pop := by
  obtain ⟨seg, hseg, hlast, hitems⟩ := hF
  cases seg with
  | nil => simp at hlast
  | cons a seg₁ =>
    rw [hl, List.cons_append] at hseg
    obtain ⟨rfl, rfl⟩ := List.cons.inj hseg
    cases seg₁ with
    | nil =>
      simp only [List.getLast?_singleton, Option.some.injEq] at hlast
      exact absurd (hlast ▸ rfl) hid
    | cons b seg₂ =>
      refine ⟨b :: seg₂, rfl, ?_, ?_⟩
      · rwa [List.getLast?_cons_cons] at hlast
      · simpa using hitems.pop

variable {ss : SlotSet} {startAfter duration : Int} {needed : IdSet → Logged (Option IdSet)}

theorem slide_fits (hw : ss.WellFormed) (hdur : 0 < duration)
    (hneed : ∀ free, Within (needed free) free) :
    ∀ (fromLeft : List Slot) (right : Slot) (ahead : List Slot) (w : Sliding) (pre : List Slot)
      {win : Window}, ss.slots = pre ++ fromLeft → Frame available fromLeft right ahead w →
      (slide ss.end startAfter duration available needed fromLeft right ahead w).result =
        .ok (some win) → Fits ss startAfter duration available win
  | [], _, _, _, _, _, _, _, h => by
    simp only [slide, Logged.result_pure, Except.ok.injEq, reduceCtorEq] at h
  | left :: rest, right, ahead, w, pre, win, hl, hF, h => by
    unfold slide at h
    obtain ⟨e, he, h⟩ := Logged.result_bind_ok h
    simp only [Logged.result_lift] at he
    obtain ⟨e₁, he₁, he⟩ := except_bind_eq_ok he
    obtain ⟨rfl, -⟩ := Word.eq_of_add_ok he₁
    obtain ⟨rfl, -⟩ := Word.eq_of_sub_ok he
    split at h
    · simp only [Logged.result_pure, Except.ok.injEq, reduceCtorEq] at h
    · rename_i hend
      split at h
      · simp only [Logged.result_pure, Except.ok.injEq, reduceCtorEq] at h
      · rename_i right' ahead' w' hext
        obtain ⟨hF', hcover⟩ := extendTo_frame ahead right w hF hext
        dsimp only at h
        rw [Logged.ite_bind] at h
        obtain ⟨found, hfound, h⟩ := Logged.result_bind_ok h
        -- the chooser is asked only for a non-empty intersection, and chooses within it
        have hr : ∀ r, found = some r → r ⊆ w'.meet := by
          intro r hr
          subst hr
          split at hfound
          · cases hfound
          · exact hneed _ r hfound
        have hlnodup : ((left :: rest).map Slot.id).Nodup := by
          have hd := hw.distinct
          rw [hl, List.map_append] at hd
          exact (List.nodup_append.1 hd).2.1
        cases found with
        | some r =>
          simp only [Logged.result_pure, Except.ok.injEq, Option.some.injEq] at h
          subst h
          obtain ⟨seg, hseg, hlast, hitems⟩ := hF'
          have hleft : left ∈ ss.slots := by rw [hl]; simp
          refine ⟨Int.le_max_right _ _, rfl, by dsimp only; omega, by dsimp only; omega,
            ⟨left, hleft, rfl, Int.le_max_left _ _⟩, ?_⟩
          intro s hs hsb hse
          dsimp only at hsb hse
          -- a slot meeting the window lies in its stretch: the chain is in time order
          have hsort := hw.sorted
          rw [hl, hseg] at hsort hs
          have hright : right' ∈ seg := List.mem_of_getLast? hlast
          have hsseg : s ∈ seg := by
            rcases List.mem_append.1 hs with hs | hs
            · rw [List.pairwise_append] at hsort
              have hlseg : left ∈ seg := by
                cases seg with
                | nil => simp at hlast
                | cons a _ =>
                  have : left = a := (List.cons.inj (hseg.trans (List.cons_append ..))).1
                  simp [this]
              have := hsort.2.2 s hs left (by simp [hlseg])
              omega
            · rcases List.mem_append.1 hs with hs | hs
              · exact hs
              · rw [← List.append_assoc, List.pairwise_append] at hsort
                have := hsort.2.2 right' (by simp [hright]) s hs
                omega
          intro x hx
          exact hitems.mem_meet (hr r rfl hx) (available s) (List.mem_map_of_mem hsseg)
        | none =>
          cases rest with
          | nil => simp only [Logged.result_pure, Except.ok.injEq, reduceCtorEq] at h
          | cons next more =>
            simp only at h
            have hl' : ss.slots = (pre ++ [left]) ++ next :: more := by rw [hl]; simp
            by_cases hid : left.id = right'.id
            · -- the window was one slot: it moves on to the next one
              rw [if_pos hid] at h
              obtain ⟨hrest, hitems⟩ := frame_single rfl hlnodup hF' hid
              refine slide_fits hw hdur hneed (next :: more) next (ahead'.drop 1) _ (pre ++ [left])
                hl' ⟨[next], ?_, rfl, ?_⟩ h
              · rw [← hrest]; rfl
              · simpa using hitems.pop.push (available next)
            · rw [if_neg hid] at h
              exact slide_fits hw hdur hneed (next :: more) right' ahead' w'.pop (pre ++ [left]) hl'
                (frame_pop rfl hF' hid) h

/-- A window found in a well-formed slot set fits it, when the chooser takes resources among
those it is handed. -/
theorem findWindow_fits (hw : ss.WellFormed) (hneed : ∀ free, Within (needed free) free)
    {hint : Option Int} {win : Window}
    (h : (ss.findWindow startAfter duration hint available needed).result = .ok (some win)) :
    Fits ss startAfter duration available win := by
  unfold findWindow at h
  split at h
  · simp only [Logged.result_pure, Except.ok.injEq, reduceCtorEq] at h
  · rename_i hdur
    dsimp only at h
    split at h
    · simp only [Logged.result_pure, Except.ok.injEq, reduceCtorEq] at h
    · rename_i hs₀ hstart₀
      have hs₀mem : hs₀ ∈ ss.slots := by
        split at hstart₀
        · rename_i s' hs'
          cases hstart₀
          obtain ⟨i, -, hi⟩ := Option.bind_eq_some_iff.1 hs'
          exact (mem_of_slot? hi).1
        · simp only [first?] at hstart₀
          exact List.mem_of_mem_head? hstart₀
      split at h
      · simp only [Logged.result_pure, Except.ok.injEq, reduceCtorEq] at h
      · rename_i l hleft
        have hl : l ∈ ss.slots := by
          split at hleft
          · cases hleft; exact hs₀mem
          · exact (slotAt_sound hleft).1
        obtain ⟨pre, post, hsplit⟩ := List.append_of_mem hl
        have hfrom := hw.from?_eq hsplit
        rw [hfrom] at h
        exact slide_fits hw (by omega) hneed (l :: post) l post _ pre hsplit
          ⟨[l], rfl, rfl, by simpa using Sliding.represents_empty.push (available l)⟩ h

end Search

end SlotSet

end ClusterScheduler
