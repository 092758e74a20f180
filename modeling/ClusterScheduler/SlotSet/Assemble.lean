import ClusterScheduler.SlotSet.Basic

/-!
# Assembling a slot set from linked slots

Slots given as a map from keys to slots carrying explicit `prev` and `next` links become a slot
set when the links form one contiguous chain. `assemble` follows the `next` links from the first
slot, then walks the chain again checking every link, the contiguity of the times and that no
slot is left out; the first broken rule is the `Fault`. A chain that passes is kept as its list of
slots in order, the links then being implied.
-/

namespace ClusterScheduler

/-- A slot with explicit links to its neighbours. -/
structure LinkedSlot where
  slot : Slot
  prev : Option Int
  next : Option Int
  deriving DecidableEq, Inhabited

namespace SlotSet

/-- Follows `next` links from a slot to the end of the chain; gives the last slot and the least
id above every id met. Stops with a fault at a missing slot or a slot under another key, and
with `chainCycle` when the links never end. -/
def followLinks (m : List (Int × LinkedSlot)) :
    Nat → LinkedSlot → Int → Except Fault (LinkedSlot × Int)
  | 0, _, _ => .error .chainCycle
  | fuel + 1, last, fresh =>
    match last.next with
    | none => .ok (last, fresh)
    | some k =>
      match m.lookup k with
      | none => .error (.nextSlotAbsent k)
      | some s => do
        if s.slot.id ≠ k then throw (.keyMismatch k s.slot.id)
        let n ← Word.i32.add s.slot.id 1
        followLinks m fuel s (max fresh n)

/-- Walks the chain from a key to the slot of id `lastId`, checking each slot's times, its
`prev` link and its contiguity with the slot before; gives the slots met, in order. -/
def walkChecked (m : List (Int × LinkedSlot)) (lastId : Int) :
    Nat → Option Int → Option LinkedSlot → Except Fault (List LinkedSlot)
  | 0, _, _ => .error .chainCycle
  | fuel + 1, cur, prev =>
    match cur.bind (fun k => m.lookup k) with
    | none => .ok []
    | some s => do
      if s.slot.end < s.slot.begin then throw (.slotReversed s.slot.id s.slot.begin s.slot.end)
      if s.prev ≠ prev.map (·.slot.id) then throw (.wrongPrev s.slot.id)
      match prev with
      | some p =>
        let after ← Word.i64.add p.slot.end 1
        if after ≠ s.slot.begin then throw (.gapOrOverlap p.slot.id p.slot.end s.slot.id s.slot.begin)
      | none => pure ()
      let rest ← walkChecked m lastId fuel (if s.slot.id = lastId then none else s.next) (some s)
      pure (s :: rest)

def lastByKey (entries : List (Int × LinkedSlot)) : List (Int × LinkedSlot) :=
  entries.foldl (fun m (k, s) => (m.filter (·.1 ≠ k)) ++ [(k, s)]) []

def assemble (entries : List (Int × LinkedSlot)) (firstKey : Int) : Except Fault SlotSet := do
  let m := lastByKey entries
  let fuel := m.length + 1
  let first ← match m.lookup firstKey with
    | some s => pure s
    | none => throw (.firstSlotAbsent firstKey)
  let fresh ← Word.i32.add first.slot.id 1
  let (last, fresh) ← followLinks m fuel first fresh
  let chain ← walkChecked m last.slot.id fuel (some first.slot.id) none
  let head ← match m.lookup first.slot.id with
    | some s => pure s
    | none => throw .firstSlotMissing
  let tail ← match chain.getLast? with
    | some s => pure s
    | none => throw .emptyChain
  if head.slot.begin ≠ first.slot.begin then throw .beginMismatch
  if tail.slot.id ≠ last.slot.id then throw .lastMismatch
  if tail.slot.end ≠ last.slot.end then throw .endMismatch
  if chain.length ≠ m.length then
    if m.length < chain.length then throw .subOverflow
    throw (.unreachable (m.length - chain.length))
  pure ⟨chain.map (·.slot), fresh, []⟩

end SlotSet

end ClusterScheduler
