import ClusterScheduler.IdSet.Basic

/-!
# Sliding intersection

A first-in first-out window of id sets with the intersection of all of them. The search for a
time window pushes the free resources of each slot entering the window on the right and pops
the slot leaving it on the left.

The window is kept as two stacks, so that each set is intersected a constant number of times
overall. Pushed sets go on `back`, whose intersection `backMeet` follows every push. `front`
holds, for each of the oldest sets, the intersection of that set and all the sets pushed after
it into `front`; its top is the intersection of all of them. A pop from an empty `front` first
moves `back` over, newest set first.
-/

namespace ClusterScheduler

/-- A window of id sets as two stacks, tops first: `front` holds intersections of the oldest
sets, `back` the newest sets, and `backMeet` the intersection of `back`. -/
structure Sliding where
  front : List IdSet := []
  back : List IdSet := []
  backMeet : Option IdSet := none
  deriving DecidableEq, Inhabited

namespace Sliding

def size (w : Sliding) : Nat := w.front.length + w.back.length

def isEmpty (w : Sliding) : Bool := w.size == 0

def push (w : Sliding) (s : IdSet) : Sliding :=
  { w with
    backMeet := some (match w.backMeet with
      | some m => m ∩ s
      | none => s)
    back := s :: w.back }

/-- Moves the sets of `back`, newest first, onto `front`, each intersected with the sets moved
before it; `suffix` is the intersection of those. -/
def transfer : List IdSet → Option IdSet → List IdSet → List IdSet
  | [], _, front => front
  | s :: rest, suffix, front =>
    let m := match suffix with
      | some x => s ∩ x
      | none => s
    transfer rest (some m) (m :: front)

theorem transfer_cons_none (s : IdSet) (rest front : List IdSet) :
    transfer (s :: rest) none front = transfer rest (some s) (s :: front) := rfl

theorem transfer_cons_some (s x : IdSet) (rest front : List IdSet) :
    transfer (s :: rest) (some x) front = transfer rest (some (s ∩ x)) (s ∩ x :: front) := rfl

/-- Drops the oldest set, first moving `back` over when `front` is empty; nothing happens to an
empty window. -/
def pop (w : Sliding) : Sliding :=
  let w := if w.front.isEmpty then { front := transfer w.back none w.front, back := [], backMeet := none }
    else w
  { w with front := w.front.drop 1 }

theorem pop_of_front_nil {w : Sliding} (h : w.front = []) :
    w.pop = { front := (transfer w.back none []).drop 1, back := [], backMeet := none } := by
  simp [pop, h]

theorem pop_of_front_cons {w : Sliding} {f : IdSet} {fs : List IdSet} (h : w.front = f :: fs) :
    w.pop = { w with front := fs } := by
  simp [pop, h]

def clear (_ : Sliding) : Sliding := {}

def meet (w : Sliding) : IdSet :=
  match w.front.head?, w.backMeet with
  | some f, some b => f ∩ b
  | some f, none => f
  | none, some b => b
  | none, none => ∅

end Sliding

end ClusterScheduler
