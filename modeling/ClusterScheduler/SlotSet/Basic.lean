import ClusterScheduler.Slot.Basic
import ClusterScheduler.Word
import ClusterScheduler.Binary64.Text
import ClusterScheduler.Text.Basic

/-!
# Slot sets

A slot set is the availability timeline of a resource pool: a chain of slots covering
`[begin, end]` without gap nor overlap, each slot naming its neighbours by id. The chain is kept
as the list of its slots in time order, so the neighbours of a slot are the slots beside it in
the list. New slots made by splitting get fresh ids from `nextId`. The placement cache maps a
moldable's cache key to the slot where the last identical moldable was placed: nothing fits for
it before that slot.
-/

namespace ClusterScheduler

/-- The end of a slot set that has no end: a quarter of the largest 64-bit signed integer,
rounded down (`(2^63 - 1) / 4`). -/
def maxTime : Int := 2305843009213693951

/-- A chain of slots in time order, the id of the next slot to create, and the placement
cache. -/
structure SlotSet where
  slots : List Slot
  nextId : Int
  cache : List (String × Int) := []
  deriving DecidableEq, Inhabited

namespace SlotSet

def ofSlot (s : Slot) : Except Fault SlotSet := do
  let n ← Word.i32.add s.id 1
  pure ⟨[s], n, []⟩

def single (resources : IdSet) (begin e : Int) : SlotSet := ⟨[⟨1, begin, e, resources, [], []⟩], 2, []⟩

def new (resources : IdSet) (begin : Int) : SlotSet := single resources begin maxTime

def first? (ss : SlotSet) : Option Slot := ss.slots.head?

def last? (ss : SlotSet) : Option Slot := ss.slots.getLast?

def begin (ss : SlotSet) : Int := (ss.first?.map Slot.begin).getD 0

def «end» (ss : SlotSet) : Int := (ss.last?.map Slot.end).getD 0

def firstId (ss : SlotSet) : Int := (ss.first?.map Slot.id).getD 0

def lastId (ss : SlotSet) : Int := (ss.last?.map Slot.id).getD 0

def size (ss : SlotSet) : Nat := ss.slots.length

def slot? (ss : SlotSet) (id : Int) : Option Slot := ss.slots.find? (·.id = id)

def from? (ss : SlotSet) (id : Int) : List Slot := ss.slots.dropWhile (·.id ≠ id)

def next? (ss : SlotSet) (id : Int) : Option Int := ((ss.from? id).drop 1).head?.map Slot.id

def prev? (ss : SlotSet) (id : Int) : Option Int :=
  ((ss.slots.reverse.dropWhile (·.id ≠ id)).drop 1).head?.map Slot.id

/-- The slot containing a time, searched from the slot of `start` (or the first slot) while
slots begin no later than the time. -/
def slotAt (ss : SlotSet) (time : Int) (start : Option Int) : Option Slot :=
  ((ss.from? (start.getD ss.firstId)).takeWhile (·.begin ≤ time)).find? (time ≤ ·.end)

def replace (ss : SlotSet) (s : Slot) : SlotSet :=
  { ss with slots := ss.slots.map fun t => if t.id = s.id then s else t }

def updateIds (ss : SlotSet) (ids : List Int) (f : Slot → Slot) : SlotSet :=
  { ss with slots := ss.slots.map fun t => if ids.contains t.id then f t else t }

/-! ## Placement cache -/

def cached? (ss : SlotSet) (key : String) : Option Int := ss.cache.lookup key

def remember (ss : SlotSet) (key : String) (id : Int) : SlotSet :=
  { ss with cache :=
      if ss.cache.any (·.1 = key) then ss.cache.map fun (k, v) => if k = key then (k, id) else (k, v)
      else ss.cache ++ [(key, id)] }

def forget (ss : SlotSet) : SlotSet := { ss with cache := [] }

/-! ## Display -/

def showId : Option Int → String
  | some i => s!"Some({i})"
  | none => "None"

def slotText (ss : SlotSet) (s : Slot) : String :=
  let before := showId (ss.prev? s.id)
  let after := showId (ss.next? s.id)
  s!"Slot \x7b id: {s.id}, prev: {before}, next: {after}, begin: {s.begin}, end: {s.end}, proc_set: {s.resources.render} \x7d"

def text (ss : SlotSet) : String :=
  s!"SlotSet \x7b begin: {ss.begin}, end: {ss.end}, first_id: {ss.firstId}, last_id: {ss.lastId}, next_id: {ss.nextId}, slots_count: {ss.size} \x7d"

/-! ## Slot set table

The slots of a set, one row each in chain order: id, neighbours, times, length in days with two
decimals, free resources and placeholder reservations. The length is computed in doubles, the
seconds being divided by 3600 and then by 24; a slot whose length leaves the 64-bit range is a
`Fault`.
-/

def daysText (s : Slot) : Except Fault String := do
  let d ← Word.i64.sub s.end s.begin
  pure (Binary64.fixed ((Binary64.ofInt d).divNat 3600 |>.divNat 24) 2)

def reservedText (s : Slot) : String :=
  " ".intercalate (s.reserved.map fun (n, r) => n ++ ": " ++ r.render)

def tableRowOf (ss : SlotSet) (s : Slot) : Except Fault (List String) := do
  let days ← daysText s
  pure [toString s.id, showId (ss.prev? s.id), showId (ss.next? s.id), toString s.begin,
    toString s.end, days, s.resources.render, reservedText s]

def table (ss : SlotSet) : Except Fault String := do
  let rows ← ss.slots.mapM ss.tableRowOf
  pure (Text.table (["Id", "Prev", "Next", "Begin (epoch)", "End (epoch)", "Size (days)",
    "ProcSet", "Placeholders"] :: rows))

end SlotSet

end ClusterScheduler
