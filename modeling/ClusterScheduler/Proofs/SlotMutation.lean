import ClusterScheduler.Proofs.SlotUpdate

/-!
# Mutations of slot sets

The scheduler changes a slot set only through a few mutations: cutting a slot, cutting at the
bounds of a range, removing, adding or committing resources over a range, and placing one job
or a list of jobs. Each of them keeps the chain well formed, so that the consistency check
passes after it, as long as the 32-bit counter of fresh slot ids has room for the cuts it makes
and a committed range ends at a 64-bit time. Seen as a function from times to the contents of
the slot holding them, a slot set is left as it is by cuts, and changed by an update exactly
at the times of the update's range.
-/

namespace ClusterScheduler

namespace SlotSet

inductive Mutation where
  | split (id time : Int)
  | splitRange (begin e : Int) (hint : Option Int)
  | subtract (resources : IdSet) (begin e : Int)
  | add (resources : IdSet) (begin e : Int)
  | commit (start duration : Int) (resources : IdSet)
  | place (job : Job) (sub : Bool) (hint : Option Int)
  | placeAll (jobs : List Job) (sub : Bool) (hint : Option Int)

namespace Mutation

def run (ss : SlotSet) : Mutation → Except Fault SlotSet
  | .split id t => (ss.splitAt id t).map Prod.fst
  | .splitRange b e h => (ss.splitRange b e h).map fun r => (r.map Prod.fst).getD ss
  | .subtract r b e => ss.subtract r b e
  | .add r b e => ss.add r b e
  | .commit t d r => ss.commit t d r
  | .place j sub h => (ss.placeJob j sub h).map fun r => (r.map Prod.fst).getD ss
  | .placeAll js sub h => ss.placeJobs js sub h

def cuts : Mutation → Nat
  | .split .. => 1
  | .placeAll js .. => 2 * js.length
  | _ => 2

/-- What the caller of a mutation sees to, the slots of the set being found by `slot?`: a cut
inside its slot, a range cut that is not reversed, a committed range that ends at a 64-bit time,
and assignments that are not reversed. -/
def Admissible (slot? : Int → Option Slot) : Mutation → Prop
  | .split id t => ∃ s, slot? id = some s ∧ s.begin ≤ t ∧ t ≤ s.end
  | .splitRange b e _ => b ≤ e
  | .subtract .. | .add .. => True
  | .commit t d _ => Word.i64.lo + 1 ≤ t + d ∧ t + d ≤ Word.i64.hi
  | .place j .. => ∀ a ∈ j.assignment, a.begin ≤ a.end
  | .placeAll js .. => ∀ j ∈ js, ∀ a ∈ j.assignment, a.begin ≤ a.end

theorem run_wellFormed {ss : SlotSet} (hw : ss.WellFormed) {m : Mutation}
    (hm : m.Admissible ss.slot?) (hroom : ss.nextId + m.cuts ≤ Word.i32.hi) :
    ∃ ss', m.run ss = .ok ss' ∧ ss'.WellFormed := by
  cases m with
  | split id t =>
    obtain ⟨s, hs, hlo, hhi⟩ := hm
    obtain ⟨hmem, rfl⟩ := mem_of_slot? hs
    obtain ⟨ss', k, h, hR, -⟩ := splitAt_spec hw hmem hlo hhi (fun _ => by simp only [cuts] at hroom; omega)
    exact ⟨ss', by simp [run, Except.map, h], hR.wellFormed⟩
  | splitRange b e hint =>
    cases henc : ss.encompassing b e hint with
    | none => exact ⟨ss, by simp [run, Except.map, splitRange_of_none henc], hw⟩
    | some p =>
      obtain ⟨ss', f, l, h, hR, -⟩ := splitRange_spec hw hm henc hroom
      exact ⟨ss', by simp [run, Except.map, h], hR.wellFormed⟩
  | subtract r b e =>
    obtain ⟨ss', h, hU⟩ := updateRange_spec hw hroom r b e true
    exact ⟨ss', h, hU.wellFormed⟩
  | add r b e =>
    obtain ⟨ss', h, hU⟩ := updateRange_spec hw hroom r b e false
    exact ⟨ss', h, hU.wellFormed⟩
  | commit t d r =>
    obtain ⟨ss', h, hU⟩ := updateRange_spec hw hroom r t (t + d - 1) true
    exact ⟨ss', by rw [run, commit_eq r hm]; exact h, hU.wellFormed⟩
  | place j sub hint =>
    cases ha : j.assignment with
    | none => exact ⟨ss, by simp [run, Except.map, placeJob_unassigned ss ha], hw⟩
    | some a =>
      obtain ⟨r, h, hnone | ⟨ss', f, l, rfl, hU⟩⟩ := placeJob_cases hw hroom ha (hm a ha) sub hint
      · exact ⟨ss, by simp [run, Except.map, h, hnone.1], hw⟩
      · exact ⟨ss', by simp [run, Except.map, h], hU.wellFormed⟩
  | placeAll js sub hint =>
    obtain ⟨ss', h, hw', -⟩ := placeJobs_wellFormed sub js ss hint hw hm hroom
    exact ⟨ss', h, hw'⟩

end Mutation

/-! ## Mutations seen pointwise in time -/

/-- What placing a job does to the contents of a slot it covers: the resources leave the free
set (or come back to it), join the time-sharing entry of the job's key and the reservation a
placeholder holds, and leave the reservation an allowed job draws on. -/
def placement (j : Job) (r : IdSet) (sub : Bool) (c : IdSet × SharedSets × NamedSets) :
    IdSet × SharedSets × NamedSets :=
  (if sub then c.1 \ r else c.1 ∪ r,
    match sharingKey j with
    | some (u, n) => SharedSets.merge u n r c.2.1
    | none => c.2.1,
    match j.placeholder with
    | .holds n => NamedSets.merge n r c.2.2
    | .allows n => if sub then NamedSets.remove n r c.2.2 else c.2.2
    | .none => c.2.2)

theorem placeOn_contents (j : Job) (r : IdSet) (sub : Bool) (s : Slot) :
    (placeOn j r sub s).contents = placement j r sub s.contents := by
  rcases hk : sharingKey j with _ | ⟨u, n⟩ <;> rcases hp : j.placeholder with _ | n | n <;>
    cases sub <;> simp [placeOn, placement, hk, hp, Slot.share, Slot.reserve, Slot.release,
      Slot.contents]

/-- `ss'` shows the contents of `ss` changed by `f` at the times of `[b, e]` and nowhere else,
within the same bounds. -/
structure AppliedOver (ss ss' : SlotSet) (b e : Int)
    (f : IdSet × SharedSets × NamedSets → IdSet × SharedSets × NamedSets) : Prop where
  begin_eq : ss'.begin = ss.begin
  end_eq : ss'.end = ss.end
  contentsAt_eq : ∀ t, ss'.contentsAt t =
    if b ≤ t ∧ t ≤ e then (ss.contentsAt t).map f else ss.contentsAt t

theorem Updated.appliedOver {ss ss' : SlotSet} {k : Nat} {b e : Int} {g : Slot → Slot}
    {f : IdSet × SharedSets × NamedSets → IdSet × SharedSets × NamedSets}
    (hU : Updated ss ss' k b e g) (hgf : ∀ s, (g s).contents = f s.contents) :
    AppliedOver ss ss' b e f := by
  refine ⟨hU.begin_eq, hU.end_eq, fun t => ?_⟩
  rw [hU.pointwise t]
  split
  · simp only [contentsAt, Option.map_map, Function.comp_def, hgf]
  · rfl

/-- Cuts leave the set's contents at every time and its bounds as they are; removing, adding
and placing change the contents exactly at the times of their range, as the free set, the
time-sharing entries and the reservations of the slot there would be changed. A placement
searches from a hint at or before the slot of its beginning. -/
theorem slotSet_mutations_pointwise {ss : SlotSet} (hw : ss.WellFormed)
    (hroom : ss.nextId + 2 ≤ Word.i32.hi) :
    (∀ s ∈ ss.slots, ∀ t, s.begin ≤ t → t ≤ s.end → ∃ ss' k, ss.splitAt s.id t = .ok (ss', k) ∧
      ss'.begin = ss.begin ∧ ss'.end = ss.end ∧ ∀ u, ss'.contentsAt u = ss.contentsAt u) ∧
    (∀ b e hint, b ≤ e → ∃ r, ss.splitRange b e hint = .ok r ∧
      ((r.map Prod.fst).getD ss).begin = ss.begin ∧ ((r.map Prod.fst).getD ss).end = ss.end ∧
      ∀ u, ((r.map Prod.fst).getD ss).contentsAt u = ss.contentsAt u) ∧
    (∀ r b e, ∃ ss', ss.subtract r b e = .ok ss' ∧
      AppliedOver ss ss' b e fun c => (c.1 \ r, c.2)) ∧
    (∀ r b e, ∃ ss', ss.add r b e = .ok ss' ∧
      AppliedOver ss ss' b e fun c => (c.1 ∪ r, c.2)) ∧
    ∀ (j : Job) (a : Assignment) sub hint, j.assignment = some a → a.begin ≤ a.end →
      (a.begin < ss.begin ∨ ∀ h ∈ hint, ∃ x ∈ ss.slots, x.id = h ∧ x.begin ≤ a.begin) →
      ∃ r, ss.placeJob j sub hint = .ok r ∧
        AppliedOver ss ((r.map Prod.fst).getD ss) a.begin a.end (placement j a.resources sub) := by
  refine ⟨?split, ?range, ?subtract, ?add, ?place⟩
  case split =>
    intro s hs t hlo hhi
    obtain ⟨ss', k, h, hR, -⟩ := splitAt_spec hw hs hlo hhi (fun _ => by omega)
    exact ⟨ss', k, h, hR.begin_eq, hR.end_eq, hR.sameContents⟩
  case range =>
    intro b e hint hbe
    cases henc : ss.encompassing b e hint with
    | none => exact ⟨none, splitRange_of_none henc, rfl, rfl, fun _ => rfl⟩
    | some p =>
      obtain ⟨ss', f, l, h, hR, -⟩ := splitRange_spec hw hbe henc hroom
      exact ⟨_, h, hR.begin_eq, hR.end_eq, hR.sameContents⟩
  case subtract =>
    intro r b e
    obtain ⟨ss', h, hU⟩ := updateRange_spec hw hroom r b e true
    exact ⟨ss', h, hU.appliedOver fun _ => rfl⟩
  case add =>
    intro r b e
    obtain ⟨ss', h, hU⟩ := updateRange_spec hw hroom r b e false
    exact ⟨ss', h, hU.appliedOver fun _ => rfl⟩
  case place =>
    intro j a sub hint ha hbe hstart
    obtain ⟨r, h, hU⟩ := placeJob_spec hw hroom ha hbe sub hstart
    exact ⟨r, h, hU.appliedOver (placeOn_contents j a.resources sub)⟩

/-- The slot set of a single slot over `[0, 100]`, with room for fresh ids. -/
theorem slotSet_mutations_pointwise_on_single :
    (single (IdSet.range 1 4) 0 100).WellFormed ∧
      (single (IdSet.range 1 4) 0 100).nextId + 2 ≤ Word.i32.hi ∧
      ∃ ss', (single (IdSet.range 1 4) 0 100).subtract (IdSet.range 1 2) 10 20 = .ok ss' ∧
        AppliedOver (single (IdSet.range 1 4) 0 100) ss' 10 20 fun c => (c.1 \ IdSet.range 1 2, c.2) :=
  have hw := single_wellFormed (IdSet.range 1 4) (by decide : (0 : Int) ≤ 100) (by decide) (by decide)
  ⟨hw, by decide, (slotSet_mutations_pointwise hw (by decide)).2.2.1 _ _ _⟩

/-- A hint naming a slot that begins after the job's assignment finds no slots for it, and the
job is not placed; a range cut that is reversed stops with a cut outside its slot. -/
theorem slotSet_mutations_need_hint_and_order :
    (⟨[⟨1, 0, 49, IdSet.range 1 4, [], []⟩, ⟨2, 50, 100, IdSet.range 1 4, [], []⟩], 3, []⟩ :
        SlotSet).placeJob { (default : Job) with id := 1, assignment := some ⟨10, 20, IdSet.range 1 2, 0⟩ }
        true (some 2) = .ok none ∧
      (single (IdSet.range 1 4) 0 50).splitRange 30 20 none = .error (.splitOutside 21 30 50) := by
  refine ⟨rfl, rfl⟩

end SlotSet

end ClusterScheduler
