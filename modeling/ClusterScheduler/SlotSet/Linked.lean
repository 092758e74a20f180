import ClusterScheduler.SlotSet.Split
import ClusterScheduler.SlotSet.Assemble

/-!
# Slot sets as they are stored

A slot set is stored as slots by key, each naming the slots before and after it by id, with the
bounds of the set, the ids of its first and last slots and the counter of fresh ids beside them.
The chain is what walking the `next` links from the first id meets, up to the slot of the last
id; a walk meets each slot of a chain once, so it takes no more turns than there are slots.

Cutting a slot relinks three slots: the slot cut now ends before the cut and links to a fresh
slot, which links back to it and on to the old next slot, whose `prev` link moves to the fresh
slot; cutting the last slot moves the last id instead. Every range cut ends with the full
consistency check of the stored chain (`assertConsistency`).
-/

namespace ClusterScheduler

/-- Slots by key with their links, the set's bounds, the ids of its first and last slots, the id
the next cut takes and the placement cache. -/
structure LinkedSet where
  begin : Int
  «end» : Int
  firstId : Int
  lastId : Int
  nextId : Int
  slots : List (Int × LinkedSlot)
  cache : List (String × Int) := []
  deriving DecidableEq, Inhabited

namespace LinkedSet

def get? (L : LinkedSet) (k : Int) : Option LinkedSlot := L.slots.lookup k

def slot? (L : LinkedSet) (k : Int) : Option Slot := (L.get? k).map LinkedSlot.slot

def insert (L : LinkedSet) (k : Int) (s : LinkedSlot) : LinkedSet :=
  { L with slots := L.slots.filter (fun e => e.1 != k) ++ [(k, s)] }

def modify (L : LinkedSet) (k : Int) (f : LinkedSlot → LinkedSlot) : LinkedSet :=
  { L with slots := L.slots.map fun e => if e.1 = k then (e.1, f e.2) else e }

def ofSlot (s : Slot) : Except Fault LinkedSet := do
  let n ← Word.i32.add s.id 1
  pure ⟨s.begin, s.end, s.id, s.id, n, [(s.id, ⟨s, none, none⟩)], []⟩

def new (resources : IdSet) (begin : Int) : LinkedSet :=
  ⟨begin, maxTime, 1, 1, 2, [(1, ⟨⟨1, begin, maxTime, resources, [], []⟩, none, none⟩)], []⟩

/-- The slots met following `next` links from the key `cur`, up to the slot of id `stop`, at
most `fuel` of them; a key with no slot ends the walk. -/
def walk (L : LinkedSet) (stop : Int) : Nat → Option Int → List LinkedSlot
  | 0, _ => []
  | fuel + 1, cur =>
    match cur.bind L.get? with
    | none => []
    | some s => s :: L.walk stop fuel (if s.slot.id = stop then none else s.next)

def between (L : LinkedSet) (a b : Int) : List LinkedSlot := L.walk b L.slots.length (some a)

/-- The slot containing a time, searched from the slot of `start` (or the first slot) while
slots begin no later than the time. -/
def slotAt (L : LinkedSet) (time : Int) (start : Option Int) : Option LinkedSlot :=
  ((L.between (start.getD L.firstId) L.lastId).takeWhile (·.slot.begin ≤ time)).find?
    (time ≤ ·.slot.end)

/-- Checks the stored chain: walking from the first id, each slot is ordered, links back to the
slot met before and begins right after it ends; the walk ends at the last id, at the set's
bounds, and meets every stored slot. -/
def assertConsistency (L : LinkedSet) : Except Fault Unit := do
  let chain ← SlotSet.walkChecked L.slots L.lastId (L.slots.length + 1) (some L.firstId) none
  let first ← match L.get? L.firstId with
    | some s => pure s
    | none => throw .firstSlotMissing
  let last ← match chain.getLast? with
    | some s => pure s
    | none => throw .emptyChain
  if first.slot.begin ≠ L.begin then throw .beginMismatch
  if last.slot.id ≠ L.lastId then throw .lastMismatch
  if last.slot.end ≠ L.end then throw .endMismatch
  if chain.length ≠ L.slots.length then
    if L.slots.length < chain.length then throw .subOverflow
    throw (.unreachable (L.slots.length - chain.length))

/-- Cuts the slot of an id so that a slot begins at `time`; gives the id of that slot. Cutting
at the slot's beginning changes nothing. Otherwise the slot keeps its id and ends before `time`,
and a slot with the next fresh id takes the rest, between the slot and its old next slot. -/
def splitAt (L : LinkedSet) (id time : Int) : Except Fault (LinkedSet × Int) :=
  match L.get? id with
  | none => .error (.splitSlotAbsent id)
  | some s =>
    if ¬(s.slot.begin ≤ time ∧ time ≤ s.slot.end) then
      .error (.splitOutside time s.slot.begin s.slot.end)
    else if time = s.slot.begin then .ok (L, id)
    else do
      let fresh := L.nextId
      let right : LinkedSlot := ⟨s.slot.copy fresh time s.slot.end, some s.slot.id, s.next⟩
      let L := L.insert id ⟨{ s.slot with «end» := time - 1 }, s.prev, some fresh⟩
      let L := match right.next with
        | some k => L.modify k fun t => { t with prev := some fresh }
        | none => { L with lastId := fresh }
      let L := L.insert fresh right
      let n ← Word.i32.add fresh 1
      pure ({ L with nextId := n }, fresh)

/-- The slots containing `begin` and `end`, each bound clamped to the set; `start` is where the
search for `begin` starts. -/
def encompassing (L : LinkedSet) (begin e : Int) (start : Option Int) :
    Option (LinkedSlot × LinkedSlot) :=
  let b := if begin < L.begin then L.get? L.firstId else L.slotAt begin start
  let l := if L.end < e then L.get? L.lastId else L.slotAt e (b.map (·.slot.id))
  match b, l with
  | some b, some l => some (b, l)
  | _, _ => none

/-- Cuts the slots so that slot bounds fall at `begin` and `end + 1`, the range being clipped to
the set, then checks the chain; gives the first and last slot ids of the range, or `none` when
the range misses the set. -/
def splitRange (L : LinkedSet) (begin e : Int) (start : Option Int) :
    Except Fault (Option (LinkedSet × Int × Int)) :=
  match L.encompassing begin e start with
  | none => .ok none
  | some (b, l) => do
    let (L, firstId) ← if b.slot.begin < begin then L.splitAt b.slot.id begin
      else pure (L, b.slot.id)
    let lastId := if b.slot.id = l.slot.id then firstId else l.slot.id
    let L ← if e < l.slot.end then do
        let after ← Word.i64.add e 1
        let (L, _) ← L.splitAt lastId after
        pure L
      else pure L
    L.assertConsistency
    pure (some (L, firstId, lastId))

def updateIds (L : LinkedSet) (ids : List Int) (f : Slot → Slot) : LinkedSet :=
  ids.foldl (fun L k => L.modify k fun s => { s with slot := f s.slot }) L

def forget (L : LinkedSet) : LinkedSet := { L with cache := [] }

/-- Removes (`sub`) or adds resources over `[begin, end]`, cutting slots at the bounds; adding
clears the placement cache. -/
def updateRange (L : LinkedSet) (resources : IdSet) (begin e : Int) (sub : Bool) :
    Except Fault LinkedSet :=
  if e < begin then .ok L
  else do
    match ← L.splitRange begin e none with
    | none => pure L
    | some (L, f, l) =>
      let L := if sub then L else L.forget
      pure (L.updateIds ((L.between f l).map (·.slot.id)) fun s =>
        { s with resources := if sub then s.resources \ resources else s.resources ∪ resources })

def subtract (L : LinkedSet) (resources : IdSet) (begin e : Int) : Except Fault LinkedSet :=
  L.updateRange resources begin e true

def add (L : LinkedSet) (resources : IdSet) (begin e : Int) : Except Fault LinkedSet :=
  L.updateRange resources begin e false

def commit (L : LinkedSet) (start duration : Int) (resources : IdSet) :
    Except Fault LinkedSet := do
  let e ← Word.i64.add start duration
  let e ← Word.i64.sub e 1
  L.subtract resources start e

/-- Cuts the slots at the bounds of a job's assignment and changes the slots in between as
`SlotSet.placeOn` does; gives the first and last slot ids, or `none` when the job has no
assignment or misses the set. Giving resources back clears the placement cache. -/
def placeJob (L : LinkedSet) (j : Job) (sub : Bool) (start : Option Int) :
    Except Fault (Option (LinkedSet × Int × Int)) :=
  match j.assignment with
  | none => .ok none
  | some a => do
    match ← L.splitRange a.begin a.end start with
    | none => pure none
    | some (L, f, l) =>
      let L := if sub then L else L.forget
      pure (some (L.updateIds ((L.between f l).map (·.slot.id))
        (SlotSet.placeOn j a.resources sub), f, l))

/-- Places jobs one after the other, each search starting at the first slot of the previous
job placed. -/
def placeJobs (L : LinkedSet) (jobs : List Job) (sub : Bool) (start : Option Int) :
    Except Fault LinkedSet :=
  match jobs with
  | [] => .ok L
  | j :: rest => do
    match ← L.placeJob j sub start with
    | some (L, f, _) => L.placeJobs rest sub (some f)
    | none => L.placeJobs rest sub start

end LinkedSet

end ClusterScheduler
