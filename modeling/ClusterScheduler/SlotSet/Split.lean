import ClusterScheduler.SlotSet.Basic

/-!
# Splitting and updating slot sets

Placing a job cuts the slots at the bounds of its time range and changes the slots in between.
`splitAt` cuts one slot in two, the left part keeping the id; `splitRange` cuts so that slot
bounds fall at `begin` and `end + 1`, clipped to the set; `updateRange` and `placeJob` change the
resources of the slots of a range. A split outside its slot is a `Fault`, and so is a chain that
stops being contiguous, which every range split checks.
-/

namespace ClusterScheduler

namespace SlotSet

/-- Checks that the chain is contiguous: every slot has `begin ≤ end`, and each slot begins
right after the previous one ends. -/
def checkChain : Option Slot → List Slot → Except Fault Unit
  | _, [] => .ok ()
  | prev, s :: rest => do
    if s.end < s.begin then throw (.slotReversed s.id s.begin s.end)
    match prev with
    | some p =>
      let after ← Word.i64.add p.end 1
      if after ≠ s.begin then throw (.gapOrOverlap p.id p.end s.id s.begin)
    | none => pure ()
    checkChain (some s) rest

def check (ss : SlotSet) : Except Fault Unit := do
  checkChain none ss.slots
  if ss.slots.isEmpty then throw .emptyChain

/-- Cuts the slot of an id so that a slot begins at `time`; gives the id of that slot. Cutting
at the slot's beginning changes nothing; the right part of a cut gets the next fresh id. -/
def splitAt (ss : SlotSet) (id time : Int) : Except Fault (SlotSet × Int) :=
  match ss.slot? id with
  | none => .error (.splitSlotAbsent id)
  | some s =>
    if ¬(s.begin ≤ time ∧ time ≤ s.end) then .error (.splitOutside time s.begin s.end)
    else if time = s.begin then .ok (ss, id)
    else do
      let fresh := ss.nextId
      let left : Slot := { s with «end» := time - 1 }
      let right := s.copy fresh time s.end
      let slots := ss.slots.flatMap fun t => if t.id = id then [left, right] else [t]
      let n ← Word.i32.add fresh 1
      pure ({ ss with slots, nextId := n }, fresh)

/-- Cuts the slot containing `time` so that a slot begins there; `none` when no slot contains
it. -/
def findAndSplitAt (ss : SlotSet) (time : Int) : Except Fault (Option (SlotSet × Int)) :=
  match ss.slotAt time none with
  | none => .ok none
  | some s => (ss.splitAt s.id time).map some

/-- The slots containing `begin` and `end`, each bound clamped to the set; `start` is where the
search for `begin` starts. -/
def encompassing (ss : SlotSet) (begin e : Int) (start : Option Int) : Option (Slot × Slot) :=
  let b := if begin < ss.begin then ss.first? else ss.slotAt begin start
  let l := if ss.end < e then ss.last? else ss.slotAt e (b.map Slot.id)
  match b, l with
  | some b, some l => some (b, l)
  | _, _ => none

/-- Cuts the slots so that slot bounds fall at `begin` and `end + 1`, the range being clipped to
the set; gives the first and last slot ids of the range, or `none` when the range misses the
set. -/
def splitRange (ss : SlotSet) (begin e : Int) (start : Option Int) :
    Except Fault (Option (SlotSet × Int × Int)) :=
  match ss.encompassing begin e start with
  | none => .ok none
  | some (b, l) => do
    let (ss, firstId) ← if b.begin < begin then ss.splitAt b.id begin else pure (ss, b.id)
    let lastId := if b.id = l.id then firstId else l.id
    let ss ← if e < l.end then do
        let after ← Word.i64.add e 1
        let (ss, _) ← ss.splitAt lastId after
        pure ss
      else pure ss
    ss.check
    pure (some (ss, firstId, lastId))

/-- The slots from the one of `a` up to the one of `b`, or to the last slot when `b` does not
come after `a`. -/
def upTo (b : Int) : List Slot → List Slot
  | [] => []
  | s :: rest => if s.id = b then [s] else s :: upTo b rest

def idsBetween (ss : SlotSet) (a b : Int) : List Int := (upTo b (ss.from? a)).map Slot.id

/-- Removes (`sub`) or adds resources over `[begin, end]`, cutting slots at the bounds. Adding
resources clears the placement cache, whose slots are lower bounds only while resources are
removed. -/
def updateRange (ss : SlotSet) (resources : IdSet) (begin e : Int) (sub : Bool) :
    Except Fault SlotSet :=
  if e < begin then .ok ss
  else do
    match ← ss.splitRange begin e none with
    | none => pure ss
    | some (ss, f, l) =>
      let ss := if sub then ss else ss.forget
      pure (ss.updateIds (ss.idsBetween f l) fun s =>
        { s with resources := if sub then s.resources \ resources else s.resources ∪ resources })

def subtract (ss : SlotSet) (resources : IdSet) (begin e : Int) : Except Fault SlotSet :=
  ss.updateRange resources begin e true

def add (ss : SlotSet) (resources : IdSet) (begin e : Int) : Except Fault SlotSet :=
  ss.updateRange resources begin e false

def commit (ss : SlotSet) (start duration : Int) (resources : IdSet) : Except Fault SlotSet := do
  let e ← Word.i64.add start duration
  let e ← Word.i64.sub e 1
  ss.subtract resources start e

/-- The time-sharing entry of a job: user and job name, or the wildcard for the parts it shares
with everyone. -/
def sharingKey (j : Job) : Option (String × String) :=
  let user := j.user.getD ""
  let name := j.name.getD ""
  j.timeSharing.map fun
    | .allAll => ("*", "*")
    | .allName => ("*", name)
    | .userAll => (user, "*")
    | .userName => (user, name)

/-- Changes one slot for a job placed over it: its resources are removed (`sub`) or given back,
opened to the jobs it shares with, reserved by a placeholder job, or taken out of the
reservation an allowed job uses. -/
def placeOn (j : Job) (resources : IdSet) (sub : Bool) (s : Slot) : Slot :=
  let s := { s with resources := if sub then s.resources \ resources else s.resources ∪ resources }
  let s := match sharingKey j with
    | some (u, n) => s.share u n resources
    | none => s
  match j.placeholder with
  | .holds n => s.reserve n resources
  | .allows n => if sub then s.release n resources else s
  | .none => s

/-- Cuts the slots at the bounds of a job's assignment and changes the slots in between; gives
the first and last slot ids, or `none` when the job has no assignment or misses the set. Giving
resources back clears the placement cache. -/
def placeJob (ss : SlotSet) (j : Job) (sub : Bool) (start : Option Int) :
    Except Fault (Option (SlotSet × Int × Int)) :=
  match j.assignment with
  | none => .ok none
  | some a => do
    match ← ss.splitRange a.begin a.end start with
    | none => pure none
    | some (ss, f, l) =>
      let ss := if sub then ss else ss.forget
      pure (some (ss.updateIds (ss.idsBetween f l) (placeOn j a.resources sub), f, l))

/-- Places jobs one after the other, each search starting at the first slot of the previous
job placed. -/
def placeJobs (ss : SlotSet) (jobs : List Job) (sub : Bool) (start : Option Int) :
    Except Fault SlotSet :=
  match jobs with
  | [] => .ok ss
  | j :: rest => do
    match ← ss.placeJob j sub start with
    | some (ss, f, _) => ss.placeJobs rest sub (some f)
    | none => ss.placeJobs rest sub start

end SlotSet

end ClusterScheduler
