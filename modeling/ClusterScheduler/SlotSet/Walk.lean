import ClusterScheduler.SlotSet.Basic

/-!
# Walking a slot chain

A walk goes over the chain between two slots, from either end. It stops when its two ends
meet or when a link leads nowhere; a walk from a slot that comes after its other end goes on to
the end of the chain. A walk is bounded by the number of slots, each step moving one link.
-/

namespace ClusterScheduler

/-- The two ends of a walk still to go; both are `none` once the walk is over. -/
structure Walk where
  front : Option Int
  back : Option Int
  deriving DecidableEq, Repr

namespace Walk

def whole (ss : SlotSet) : Walk := ⟨some ss.firstId, some ss.lastId⟩

def peek (ss : SlotSet) (w : Walk) : Option Slot := w.front.bind ss.slot?

def next (ss : SlotSet) (w : Walk) : Option (Slot × Walk) := do
  let id ← w.front
  let s ← ss.slot? id
  let front := if some s.id = w.back then none else ss.next? s.id
  pure (s, if front.isNone then ⟨none, none⟩ else ⟨front, w.back⟩)

def nextBack (ss : SlotSet) (w : Walk) : Option (Slot × Walk) := do
  let id ← w.back
  let s ← ss.slot? id
  let back := if some s.id = w.front then none else ss.prev? s.id
  pure (s, if back.isNone then ⟨none, none⟩ else ⟨w.front, back⟩)

def ids (ss : SlotSet) (fromBack : Bool) : Nat → Walk → List Int
  | 0, _ => []
  | fuel + 1, w =>
    match (if fromBack then nextBack ss w else next ss w) with
    | some (s, w) => s.id :: ids ss fromBack fuel w
    | none => []

/-- Takes slots alternately from the front and the back until the walk is over; gives the ids
met and the walk left. -/
def zigzag (ss : SlotSet) : Nat → Bool → Walk → List Int × Walk
  | 0, _, w => ([], w)
  | fuel + 1, fromBack, w =>
    match (if fromBack then nextBack ss w else next ss w) with
    | some (s, w) =>
      let (rest, w) := zigzag ss fuel (!fromBack) w
      (s.id :: rest, w)
    | none => ([], w)

end Walk

end ClusterScheduler
