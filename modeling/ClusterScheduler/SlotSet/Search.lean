import ClusterScheduler.SlotSet.Basic
import ClusterScheduler.IdSet.Sliding

/-!
# Searching a time window

`findWindow` looks for the earliest time, not before `startAfter`, from which a job of
`duration` seconds fits. The window's left end runs over the slots from a hint slot on, its
right end is extended until the window lasts long enough, and the resources usable over the
whole window (the sliding intersection of what each slot offers the job) are handed to
`needed`, which chooses the job's resources or refuses. Each slot enters and leaves the window
once.
-/

namespace ClusterScheduler

/-- A time window for a job: its range, the slots holding its two ends, and the resources
chosen. -/
structure Window where
  begin : Int
  «end» : Int
  beginSlot : Int
  endSlot : Int
  resources : IdSet
  deriving DecidableEq, Inhabited

namespace SlotSet

/-- Extends the window to the right until its last slot reaches `e`; `none` when the chain
ends first. -/
def extendTo (available : Slot → IdSet) (e : Int) :
    Slot → List Slot → Sliding → Option (Slot × List Slot × Sliding)
  | right, ahead, w =>
    if right.end < e then
      match ahead with
      | [] => none
      | r :: more => extendTo available e r more (w.push (available r))
    else some (right, ahead, w)

/-- The window search from a left slot: `fromLeft` is the chain from the left slot on, `right`
the window's last slot, `ahead` the slots after it and `w` what the window's slots offer. -/
def slide (setEnd startAfter duration : Int) (available : Slot → IdSet)
    (needed : IdSet → Logged (Option IdSet)) :
    List Slot → Slot → List Slot → Sliding → Logged (Option Window)
  | [], _, _, _ => pure none
  | left :: rest, right, ahead, w => do
    let begin := max left.begin startAfter
    let e ← liftM (do let e ← Word.i64.add begin duration; Word.i64.sub e 1 : Except Fault Int)
    if setEnd < e then return none
    match extendTo available e right ahead w with
    | none => pure none
    | some (right, ahead, w) =>
      let free := w.meet
      let found ← if free.isEmpty then pure none else needed free
      match found with
      | some r => pure (some ⟨begin, e, left.id, right.id, r⟩)
      | none =>
        match rest with
        | [] => pure none
        | next :: _ =>
          let w := w.pop
          if left.id = right.id then
            slide setEnd startAfter duration available needed rest next (ahead.drop 1) (w.push (available next))
          else slide setEnd startAfter duration available needed rest right ahead w

/-- The earliest window of `duration` seconds from `startAfter` on, the search starting at the
slot of `hint` (or the first slot). `available` tells what a slot offers the job and `needed`
chooses among the resources free over the whole window. -/
def findWindow (ss : SlotSet) (startAfter duration : Int) (hint : Option Int)
    (available : Slot → IdSet) (needed : IdSet → Logged (Option IdSet)) : Logged (Option Window) :=
  if duration ≤ 0 then pure none
  else
    let start := match hint.bind ss.slot? with
      | some s => some s
      | none => ss.first?
    match start with
    | none => pure none
    | some h =>
      let left := if startAfter ≤ h.begin then some h else ss.slotAt startAfter (some h.id)
      match left with
      | none => pure none
      | some l =>
        let fromLeft := ss.from? l.id
        slide ss.end startAfter duration available needed fromLeft l (fromLeft.drop 1)
          (Sliding.push {} (available l))

/-- The earliest start and resources for `duration` seconds from `startAfter` on, with the free
resources of each slot. -/
def findFirstWindow (ss : SlotSet) (startAfter duration : Int)
    (needed : IdSet → Logged (Option IdSet)) : Logged (Option (Int × IdSet)) := do
  let w ← ss.findWindow startAfter duration none (·.resources) needed
  pure (w.map fun w => (w.begin, w.resources))

end SlotSet

end ClusterScheduler
