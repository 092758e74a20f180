import ClusterScheduler.Snapshot.Record
import ClusterScheduler.Cycle
import ClusterScheduler.Job.Basic

/-!
# Scheduling a snapshot

A snapshot becomes a `Platform`: its cluster is built from the snapshot's configuration (or a
fallback one) and inventory, and its jobs are translated to internal resource ids. A round then
schedules the active queues by decreasing priority, queues of equal priority together, on slot
sets shared by all groups, so that each group sees what the groups before it placed; the
diagnostics of the round are reported as warnings.
-/

namespace ClusterScheduler

namespace JobRecord

/-- The job of a record: request resources and the assignment are translated to internal ids
(the default resources when a request names none), and types are split at the first `=`. -/
def toJob (cl : Cluster) (r : JobRecord) : Logged Job := do
  let inv := cl.inventory
  let moldables ← r.moldables.mapM fun m => do
    let requests ← m.requests.mapM fun q => do
      let filter ← match q.resources with
        | some ids => inv.idMap.toInternal ids
        | none => pure inv.defaultResources
      pure ({ filter, levels := q.levels } : RequestGroup)
    pure ({ id := m.id, walltime := m.walltime, requests } : Moldable)
  let types := JobTypes.ofEntries r.types
  let assignment ← match r.assignment with
    | some a => do
      let rs ← inv.idMap.toInternal a.resources
      pure (some (⟨a.begin, a.end, rs, a.moldable⟩ : Assignment))
    | none => pure none
  let draft : JobDraft :=
    { id := r.id
      name := r.name
      user := r.user
      queue := some r.queue
      types := types
      moldables := moldables
      assignment := assignment
      dependencies := r.dependencies.map fun d => ⟨d.job, DependencyState.parse d.state d.exitCode⟩
      earliestStart := r.earliestStart
      submissionTime := r.submissionTime
      karma := r.karma
      priority := r.priority
      state := r.state }
  draft.build

end JobRecord

/-- Keys jobs by id in first-appearance order, a later job of the same id replacing the
earlier one in its place. -/
def keyById (jobs : List Job) : List Job :=
  jobs.foldl (fun acc j =>
    if acc.any (·.id = j.id) then acc.map fun k => if k.id = j.id then j else k
    else acc ++ [j]) []

/-- A cluster being scheduled from a snapshot: its queues and the round state. -/
structure Platform where
  queues : List QueueRecord
  round : Round
  deriving Inhabited

namespace Platform

def horizon : Int := 2147483648

/-- Builds the platform of a snapshot; `fallback` is the configuration used when the snapshot
has none. Scheduled jobs without assignment are dropped with a warning. `renderTables` is
passed to the round. -/
def ofSnapshot (s : Snapshot) (fallback : Config) (renderTables : Bool) :
    ExceptT ConfigError Logged Platform := do
  let cl ← Cluster.ofRows (s.config.getD fallback) s.resources
  let scheduled ← liftM (s.scheduled.filterMapM fun r =>
    match r.assignment with
    | none => do Logged.note (.unassignedScheduled r.id); pure none
    | some _ => do pure (some (← r.toJob cl)) : Logged (List Job))
  let waiting ← liftM (s.waiting.mapM (JobRecord.toJob cl) : Logged (List Job))
  pure ⟨s.queues, ⟨s.now, horizon, cl, scheduled, keyById waiting, renderTables⟩⟩

def addToGroup (q : QueueRecord) : List (Int × List String) → List (Int × List String)
  | [] => [(q.priority, [q.name])]
  | (p, names) :: rest =>
    if q.priority = p then (p, names ++ [q.name]) :: rest
    else if p < q.priority then (q.priority, [q.name]) :: (p, names) :: rest
    else (p, names) :: addToGroup q rest

/-- The names of the active queues, grouped by priority, highest first; queues of a group in
snapshot order. -/
def queueGroups (p : Platform) : List (List String) :=
  ((p.queues.filter fun q => Text.eqIgnoreAsciiCase q.state.toList "active".toList).foldl
    (fun gs q => addToGroup q gs) []).map (·.2)

/-- Schedules the queue groups in order on shared slot sets; one report per group. Before the
besteffort queue alone, the besteffort jobs already scheduled are added to the slot sets. -/
def queuesSchedule (p : Platform) (policy : JobPriority) : Logged (Platform × List CycleReport) := do
  let sets ← p.round.initSlotSets false
  let (r, _, reports) ← p.queueGroups.foldlM (fun (r, sets, reports) group => do
    let sets ← if group = ["besteffort"] then r.addScheduled sets true false else pure sets
    let (r, sets, report) ← r.cycleOn sets group policy
    pure (r, sets, reports ++ [report])) (p.round, sets, ([] : List CycleReport))
  pure ({ p with round := r }, reports)

/-- A whole round: the reports of the groups merged, slot count the largest; every diagnostic
is reported as a warning. -/
def metaSchedule (p : Platform) : Logged (Platform × CycleReport) := do
  let (p, reports) ← p.queuesSchedule p.round.cluster.config.jobPriority
  let merged : CycleReport := reports.foldl (fun acc r =>
    { allocations := acc.allocations ++ r.allocations,
      diagnostics := acc.diagnostics ++ r.diagnostics,
      slotCount := max acc.slotCount r.slotCount }) {}
  merged.diagnostics.forM fun d => Logged.note (.roundDiagnostic d)
  pure (p, merged)

end Platform

end ClusterScheduler
