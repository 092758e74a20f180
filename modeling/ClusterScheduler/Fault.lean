/-!
# Faults

A fault is a broken invariant or an arithmetic overflow: the computation stops, and what is
reported is the fault's one-line text. Faults are causes; their wording lives in `Fault.message`
only.
-/

namespace ClusterScheduler

/-- Why a computation stopped before giving an answer. -/
inductive Fault where
  /-- A sum left the range of its machine integer. -/
  | addOverflow
  /-- A difference left the range of its machine integer. -/
  | subOverflow
  /-- A hierarchy level was declared twice. -/
  | levelExists (name : String)
  /-- The first slot named when assembling a slot chain is absent. -/
  | firstSlotAbsent (id : Int)
  /-- A `next` link of an assembled chain points to no slot. -/
  | nextSlotAbsent (id : Int)
  /-- A slot is stored under a key that is not its id. -/
  | keyMismatch (key id : Int)
  /-- The chain of `next` links never reaches an end. -/
  | chainCycle
  /-- A split names a slot that does not exist. -/
  | splitSlotAbsent (id : Int)
  /-- A split time lies outside the slot it cuts. -/
  | splitOutside (time lo hi : Int)
  /-- A slot ends before it begins. -/
  | slotReversed (id lo hi : Int)
  /-- A slot's `prev` link is not the slot before it in the chain. -/
  | wrongPrev (id : Int)
  /-- Two neighbouring slots leave a gap or overlap. -/
  | gapOrOverlap (prevId prevEnd id start : Int)
  /-- The first slot of a chain is not stored. -/
  | firstSlotMissing
  /-- A chain walk met no slot at all. -/
  | emptyChain
  /-- The chain's begin differs from its first slot's. -/
  | beginMismatch
  /-- The chain walk stops before the last slot. -/
  | lastMismatch
  /-- The chain's end differs from its last slot's. -/
  | endMismatch
  /-- Some stored slots are not on the chain. -/
  | unreachable (count : Nat)
  /-- A sort found that its comparison is not a strict weak order. -/
  | orderViolation
  deriving DecidableEq, Repr

namespace Fault

def failedEquality (text : String) : String :=
  "assertion `left == right` failed: " ++ text

def message : Fault → String
  | .addOverflow => "attempt to add with overflow"
  | .subOverflow => "attempt to subtract with overflow"
  | .levelExists n => s!"A partition with the name {n} already exists."
  | .firstSlotAbsent i => s!"SlotSet::from_map: first slot not found, no slot with the id {i} found"
  | .nextSlotAbsent i => s!"SlotSet::from_map: next slot of id {i} not found."
  | .keyMismatch k i =>
    failedEquality s!"SlotSet::from_map: inconsistent map: the key {k} is associated with the slot of id {i}."
  | .chainCycle => "SlotSet::from_map: the next links form a cycle"
  | .splitSlotAbsent i => s!"SlotSet::split_at: slot of id {i} not found"
  | .splitOutside t lo hi => s!"SlotSet::split_at: split time {t} not in the slot time range [{lo}, {hi}]"
  | .slotReversed i lo hi => s!"SlotSet: slot {i} has begin {lo} > end {hi}"
  | .wrongPrev i => failedEquality s!"SlotSet: slot {i} has a wrong prev link"
  | .gapOrOverlap p pe i b =>
    failedEquality s!"SlotSet: gap or overlap between slot {p} (end {pe}) and slot {i} (begin {b})"
  | .firstSlotMissing => "SlotSet: first slot missing"
  | .emptyChain => "SlotSet: empty slot set"
  | .beginMismatch => failedEquality "SlotSet: begin does not match the first slot"
  | .lastMismatch => failedEquality "SlotSet: chain does not end at the last slot"
  | .endMismatch => failedEquality "SlotSet: end does not match the last slot"
  | .unreachable n => failedEquality s!"SlotSet: {n} slots are not reachable"
  | .orderViolation => "user-provided comparison function does not correctly implement a total order"

end Fault

end ClusterScheduler
