import ClusterScheduler.Inventory
import ClusterScheduler.Hierarchy.Basic
import ClusterScheduler.Hierarchy.Match
import ClusterScheduler.SlotSet.Split
import ClusterScheduler.SlotSet.Search
import ClusterScheduler.Request

/-!
# Placing jobs

Jobs are placed one after the other in slot sets, each placement being seen by the next jobs.
For a job: its dependencies give the earliest start, its request is checked, then its moldables
are tried in order and the first one for which a window is found is kept; the window's
resources are taken from the job's slot set. A placed container job then opens an inner slot
set holding its resources over its walltime, in which its inner jobs are placed.

A job skipped for another reason than a lack of free resources yields a `Diagnostic`.
-/

namespace ClusterScheduler

abbrev SlotSets := List (String × SlotSet)

def SlotSets.put (m : SlotSets) (k : String) (ss : SlotSet) : SlotSets :=
  match m with
  | [] => [(k, ss)]
  | (k', t) :: rest =>
    if k = k' then (k, ss) :: rest
    else if k < k' then (k, ss) :: (k', t) :: rest
    else (k', t) :: put rest k ss

namespace Placement

/-- One dependency's effect on the earliest start found so far, `none` once one blocks: a
waiting dependency must be placed already, and the job starts after its end; a terminated one
must have exited with 0 (or no code); one in error is ignored. -/
def dependencyStep (waiting : List Job) (acc : Option (Option Int)) (d : Dependency) :
    Except Fault (Option (Option Int)) :=
  match acc with
  | none => pure none
  | some least =>
    match d.state with
    | .error => pure (some least)
    | .waiting =>
      match (waiting.find? (·.id = d.job)).bind (·.assignment) with
      | some a => do
        let after ← Word.i64.add a.end 1
        pure (some (some (match least with
          | some m => max m after
          | none => after)))
      | none => pure none
    | .terminated (some 0) | .terminated none => pure (some least)
    | .terminated (some _) => pure none
    | .other _ => pure none

/-- The earliest start that the job's dependencies allow, or `none` when one of them blocks
it. -/
def dependencyStart (j : Job) (waiting : List Job) : Except Fault (Option (Option Int)) :=
  j.dependencies.foldlM (dependencyStep waiting) (some none)

/-- The earliest start of a job: the later of the start its dependencies allow and its own
earliest start time, when it has them. -/
def startBound (fromDeps earliest : Option Int) : Option Int :=
  match fromDeps, earliest with
  | some a, some b => some (max a b)
  | some a, none => some a
  | none, b => b

/-- Checks every moldable of a job against the cluster: a positive walltime, a request the
hierarchy can serve from the default resources, and a shape the job's matcher handles. -/
def validateJob (cl : Cluster) (j : Job) : Except RequestError Unit := do
  if j.moldables.isEmpty then throw .noMoldable
  let h := cl.inventory.hierarchy
  j.moldables.forM fun m => do
    if m.walltime ≤ 0 then throw (.nonPositiveWalltime m.id m.walltime)
    h.validate m.id m.requests cl.inventory.defaultResources
    h.validateFind m.id j.find m.requests

/-- Looks for the earliest window of a moldable, its walltime extended by the security time, its
resources chosen by the job's matcher. The placement cache gives the search a starting slot
for jobs it applies to, and remembers where jobs that may set it were placed. -/
def findForMoldable (cl : Cluster) (ss : SlotSet) (j : Job) (m : Moldable) (minBegin : Option Int) :
    Logged (SlotSet × Option Window) := do
  let useCache := cl.config.cacheEnabled
  let hint := if useCache && j.canUseCache then ss.cached? m.cacheKey else none
  let startAfter := minBegin.getD ss.begin
  let duration ← liftM (Word.i64.add m.walltime cl.config.securityTime)
  let sharing := j.timeSharing.map fun _ => (j.user.getD "", j.name.getD "")
  let h := cl.inventory.hierarchy
  let w ← ss.findWindow startAfter duration hint (·.availableFor sharing j.placeholder)
    (fun free => h.requestWith j.find free m.requests)
  let ss := match w with
    | some w => if useCache && j.canSetCache then ss.remember m.cacheKey w.beginSlot else ss
    | none => ss
  pure (ss, w)

def firstFit (cl : Cluster) (j : Job) (minBegin : Option Int) :
    SlotSet → Nat → List Moldable → Logged (SlotSet × Option (Nat × Window))
  | ss, _, [] => pure (ss, none)
  | ss, i, m :: rest => do
    let (ss, w) ← findForMoldable cl ss j m minBegin
    match w with
    | some w => pure (ss, some (i, w))
    | none => firstFit cl j minBegin ss (i + 1) rest

/-- Places a job in a slot set: its assignment is the first window found, whose resources are
taken from the slots. A job without window keeps its assignment. -/
def scheduleJob (cl : Cluster) (ss : SlotSet) (j : Job) (minBegin : Option Int) :
    Logged (SlotSet × Job × Bool) := do
  let (ss, found) ← firstFit cl j minBegin ss 0 j.moldables
  match found with
  | none => pure (ss, j, false)
  | some (i, w) =>
    let j := { j with assignment := some ⟨w.begin, w.end, w.resources, i⟩ }
    let placed ← liftM (ss.placeJob j true (some w.beginSlot))
    let ss := match placed with
      | some (ss, _, _) => ss
      | none => ss
    pure (ss, j, true)

/-- Opens or extends the inner slot set of a placed container job: the job's resources are
added to it over the job's time range, security time excluded. A new inner set spans the
`default` set, or runs from the job's start to the end of time. -/
def updateContainer (cl : Cluster) (sets : SlotSets) (j : Job) : Logged SlotSets :=
  match j.containerSlotSetName, j.assignment with
  | some name, some a => do
    let e ← liftM (Word.i64.sub a.end cl.config.securityTime)
    if e < a.begin then
      Logged.note (.shortContainer j.id)
      return sets
    let (b, se) := match sets.lookup "default" with
      | some d => (d.begin, d.end)
      | none => (a.begin, maxTime)
    let inner := (sets.lookup name).getD (SlotSet.single ∅ b se)
    let inner ← liftM (inner.add a.resources a.begin e)
    pure (sets.put name inner)
  | _, _ => pure sets

def replaceJob (jobs : List Job) (j : Job) : List Job :=
  jobs.map fun k => if k.id = j.id then j else k

/-- The state of a placement pass: slot sets, waiting jobs and diagnostics so far. -/
structure Pass where
  sets : SlotSets
  jobs : List Job
  diagnostics : Array Diagnostic

def step (cl : Cluster) (p : Pass) (id : Int) : Logged Pass := do
  match p.jobs.find? (·.id = id) with
  | none => pure p
  | some j =>
    let skip (k : DiagnosticKind) : Pass := { p with diagnostics := p.diagnostics.push ⟨id, k⟩ }
    match ← liftM (dependencyStart j p.jobs) with
    | none => pure (skip .unsatisfiedDependencies)
    | some fromDeps =>
      let minBegin := startBound fromDeps j.earliestStart
      match validateJob cl j with
      | .error e =>
        Logged.note (.requestRefused id e)
        pure (skip (.invalidRequest e))
      | .ok () =>
        let name ← j.slotSetName
        match p.sets.lookup name with
        | none =>
          Logged.note (.slotSetMissing id name)
          let name ← j.slotSetName
          pure (skip (.missingSlotSet name))
        | some ss =>
          let (ss, j, _) ← scheduleJob cl ss j minBegin
          let sets := p.sets.put name ss
          let sets ← if j.isContainer then updateContainer cl sets j else pure sets
          pure { p with sets, jobs := replaceJob p.jobs j }

/-- Places waiting jobs in the given order; gives the slot sets, the jobs with their new
assignments, and the diagnostics. -/
def scheduleJobs (cl : Cluster) (sets : SlotSets) (waiting : List Job) :
    Logged (SlotSets × List Job × List Diagnostic) := do
  let p ← (waiting.map (·.id)).foldlM (step cl) ⟨sets, waiting, #[]⟩
  pure (p.sets, p.jobs, p.diagnostics.toList)

end Placement

end ClusterScheduler
