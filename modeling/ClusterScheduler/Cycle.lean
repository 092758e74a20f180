import ClusterScheduler.Placement
import ClusterScheduler.JobOrder
import ClusterScheduler.SlotSet.Basic

/-!
# Scheduling cycles

A cycle places the waiting jobs of some queues. Its slot sets start from the `default` set over
`[now, maxTime]` with the default resources, minus resources after the time they leave, minus
what the jobs already scheduled hold: running jobs, advance reservations and jobs placed by
earlier cycles. Scheduled besteffort jobs only hold resources against the besteffort queue
itself. Suspended jobs do not hold the resources that suspension releases. The jobs placed by
a cycle count as scheduled for the next ones.
-/

namespace ClusterScheduler

/-- The state that cycles work on: the clock, the cluster, and the scheduled and waiting jobs
(waiting jobs in submission order, one per id). With `renderTables`, each cycle renders the
table of the `default` slot set once its jobs are placed, as detailed logging does; rendering
fails on a slot whose length leaves the 64-bit range. -/
structure Round where
  now : Int
  maxTime : Int
  cluster : Cluster
  scheduled : List Job
  waiting : List Job
  renderTables : Bool := true
  deriving Inhabited

/-- What a cycle decided: the placements in placement order, the diagnostics, and the number of
slots of the `default` set at its end. -/
structure CycleReport where
  allocations : List Allocation := []
  diagnostics : List Diagnostic := []
  slotCount : Nat := 0

namespace Round

def waitingIn (r : Round) (queues : List String) : List Job :=
  r.waiting.filter (queues.contains ·.queue)

def save (r : Round) (placed : List Job) : Round :=
  { r with waiting := r.waiting.filter (fun j => !placed.any (·.id = j.id)),
           scheduled := r.scheduled ++ placed }

def holding (cl : Cluster) (j : Job) : Job :=
  match j.assignment with
  | some a =>
    if j.state = "Suspended" then
      { j with assignment := some { a with resources := a.resources \ cl.inventory.suspendable } }
    else j
  | none => j

def groupByName : List (String × Job) → List (String × List Job) → List (String × List Job)
  | [], acc => acc
  | (n, j) :: rest, acc =>
    let acc := if acc.any (·.1 = n) then acc.map fun (m, js) => if m = n then (m, js ++ [j]) else (m, js)
      else acc ++ [(n, [j])]
    groupByName rest acc

/-- Takes out of the slot sets what the scheduled jobs hold; `allowBesteffort` selects the jobs
of the besteffort queue and `allowOther` the others. Jobs are taken by start time, containers
first opening their inner sets. -/
def addScheduled (r : Round) (sets : SlotSets) (allowBesteffort allowOther : Bool) :
    Logged SlotSets := do
  let cl := r.cluster
  let jobs := r.scheduled.filter fun j =>
    j.assignment.isSome && (if j.queue = "besteffort" then allowBesteffort else allowOther)
  if jobs.isEmpty then return sets
  let jobs := jobs.mergeSort fun a b =>
    decide ((a.assignment.map (·.begin)).getD 0 ≤ (b.assignment.map (·.begin)).getD 0)
  let sets ← (jobs.filter (·.isContainer)).foldlM (Placement.updateContainer cl) sets
  let named ← (jobs.map (holding cl)).mapM fun j => do
    let n ← j.slotSetName
    pure (n, j)
  (groupByName named []).foldlM (fun sets (n, js) =>
    match sets.lookup n with
    | some ss => do
      let ss ← liftM (ss.placeJobs js true none)
      pure (sets.put n ss)
    | none => do
      Logged.note (.jobsNotInserted n js.length)
      pure sets) sets

def initSlotSets (r : Round) (allowBesteffort : Bool) : Logged SlotSets := do
  let inv := r.cluster.inventory
  let base := SlotSet.single inv.defaultResources r.now r.maxTime
  let base ← liftM ((inv.availableUpto.filter (·.1 < r.maxTime)).foldlM
    (fun ss (t, ids) => ss.subtract ids (t + 1) r.maxTime) base)
  r.addScheduled [("default", base)] allowBesteffort true

def cycleOn (r : Round) (sets : SlotSets) (queues : List String) (p : JobPriority) :
    Logged (Round × SlotSets × CycleReport) := do
  let waiting := r.waitingIn queues
  if waiting.isEmpty then return (r, sets, {})
  let waiting := p.sortJobs waiting
  let (sets, jobs, diagnostics) ← Placement.scheduleJobs r.cluster sets waiting
  match sets.lookup "default" with
  | some d => if r.renderTables then
      let _ ← liftM d.table
  | none => pure ()
  let placed := jobs.filter (·.assignment.isSome)
  let allocations := placed.filterMap Allocation.ofJob?
  let slotCount := ((sets.lookup "default").map SlotSet.size).getD 0
  pure (r.save placed, sets, { allocations, diagnostics, slotCount })

def cycle (r : Round) (queues : List String) (p : JobPriority) : Logged (Round × CycleReport) := do
  let allowBesteffort := queues = ["besteffort"]
  let sets ← r.initSlotSets allowBesteffort
  let (r, _, report) ← r.cycleOn sets queues p
  pure (r, report)

end Round

end ClusterScheduler
