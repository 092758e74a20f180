import ClusterScheduler.Request
import ClusterScheduler.Fault
import ClusterScheduler.Text.Printable

/-!
# Notices

A notice is a warning or an error that the scheduler reports on its way without stopping: an
unknown resource id, a malformed job type, a job that cannot be scheduled. Notices are causes:
each has a level, the part of the scheduler it comes from, and one text.

`Logged α` is a computation that may emit notices and may stop with a `Fault`; the notices
emitted before a fault are kept, in order.
-/

namespace ClusterScheduler

/-- How serious a notice is. -/
inductive Severity where
  | warn
  | error
  deriving DecidableEq, Repr

def Severity.name : Severity → String
  | .warn => "WARN"
  | .error => "ERROR"

/-- A warning or error met on the way. -/
inductive Notice where
  /-- The configuration file does not exist; defaults are used. -/
  | configMissing (path : String)
  /-- An external resource id is not in the inventory. -/
  | unknownResource (id : Int)
  /-- Resources without a value for a hierarchy label. -/
  | labelGaps (count : Nat) (label : String)
  /-- A request names a level the hierarchy does not have. -/
  | noSuchLevel (level : String)
  /-- A `timesharing` type that is not one of the known pairs. -/
  | badTimeSharing (value : Option String)
  /-- A `placeholder` or `allow` type without a name. -/
  | badPlaceholder
  /-- A `find` type naming no matcher. -/
  | unknownFind (value : Option String)
  /-- An `inner` type without a container name. -/
  | innerWithoutContainer (job : Int)
  /-- A job whose request cannot be matched. -/
  | requestRefused (job : Int) (e : RequestError)
  /-- A job whose slot set does not exist. -/
  | slotSetMissing (job : Int) (name : String)
  /-- A container job too short to hold its inner jobs. -/
  | shortContainer (job : Int)
  /-- Scheduled jobs whose slot set does not exist. -/
  | jobsNotInserted (name : String) (count : Nat)
  /-- A scheduled job of a snapshot without assignment. -/
  | unassignedScheduled (job : Int)
  /-- A diagnostic of a scheduling round. -/
  | roundDiagnostic (d : Diagnostic)
  /-- The error that ends the command. -/
  | fatal (text : String)
  deriving DecidableEq, Repr

namespace Notice

def level : Notice → Severity
  | .slotSetMissing _ _ | .fatal _ => .error
  | _ => .warn

def origin : Notice → String
  | .configMissing _ => "oar_kao_core::model::configuration"
  | .unknownResource _ => "oar_kao_core::model::resource"
  | .labelGaps _ _ | .noSuchLevel _ => "oar_kao_core::scheduler::hierarchy"
  | .badTimeSharing _ | .badPlaceholder | .unknownFind _ | .innerWithoutContainer _ =>
    "oar_kao_core::model::job"
  | .requestRefused _ _ | .slotSetMissing _ _ | .shortContainer _ =>
    "oar_kao_core::scheduler::scheduling"
  | .jobsNotInserted _ _ => "oar_kao_core::scheduler::kamelot"
  | .unassignedScheduled _ => "oar_kao_meta::platform"
  | .roundDiagnostic _ => "oar_kao_meta::meta_schedule"
  | .fatal _ => "oar_kao_meta"

def showOption : Option String → String
  | some s => "Some(" ++ Text.quote s ++ ")"
  | none => "None"

def text : Notice → String
  | .configMissing p => s!"Configuration file {p} not found, using default values."
  | .unknownResource i => s!"Unknown resource id {i}, ignored."
  | .labelGaps n l =>
    s!"{n} resources have no value for hierarchy label {l}, they can't be requested through it."
  | .noSuchLevel l => s!"No such hierarchy level matching name {l}"
  | .badTimeSharing v => s!"Invalid time sharing type: {showOption v}"
  | .badPlaceholder => "Invalid placeholder type: missing name"
  | .unknownFind v => s!"Unknown find function {showOption v}, using the scattered matcher."
  | .innerWithoutContainer j =>
    s!"Job {j} has an inner type without container, using the default slot set."
  | .requestRefused j e => s!"Job {j} can't be scheduled: {e.message}"
  | .slotSetMissing j n => s!"Job {j} can't be scheduled, slot set {n} is missing. Skip it for this round."
  | .shortContainer j => s!"Container job {j} is shorter than the security time, no inner slot set updated."
  | .jobsNotInserted n k => s!"Slot set {n} does not exist, {k} scheduled jobs are not inserted."
  | .unassignedScheduled j => s!"Scheduled job {j} has no assignment, ignored."
  | .roundDiagnostic d => d.text
  | .fatal t => t

end Notice

/-- A computation that emits notices and may stop with a fault; the notices emitted before a
fault are kept. -/
structure Logged (α : Type) where
  notices : Array Notice
  result : Except Fault α

namespace Logged

instance : Monad Logged where
  pure a := ⟨#[], .ok a⟩
  bind x f :=
    match x.result with
    | .ok a => let y := f a; ⟨x.notices ++ y.notices, y.result⟩
    | .error e => ⟨x.notices, .error e⟩

def note (n : Notice) : Logged Unit := ⟨#[n], .ok ()⟩

def fail {α : Type} (e : Fault) : Logged α := ⟨#[], .error e⟩

instance : MonadExceptOf Fault Logged where
  throw := fail
  tryCatch x h := match x.result with
    | .ok _ => x
    | .error e => let y := h e; ⟨x.notices ++ y.notices, y.result⟩

instance : MonadLift (Except Fault) Logged where
  monadLift r := ⟨#[], r⟩

theorem bind_notices_of_ok {α β : Type} (x : Logged α) (f : α → Logged β) (a : α)
    (h : x.result = .ok a) : (x >>= f).notices = x.notices ++ (f a).notices := by
  show (match x.result with
    | .ok a => let y := f a; (⟨x.notices ++ y.notices, y.result⟩ : Logged β)
    | .error e => ⟨x.notices, .error e⟩).notices = _
  rw [h]

theorem bind_notices_of_error {α β : Type} (x : Logged α) (f : α → Logged β) (e : Fault)
    (h : x.result = .error e) : (x >>= f).notices = x.notices := by
  show (match x.result with
    | .ok a => let y := f a; (⟨x.notices ++ y.notices, y.result⟩ : Logged β)
    | .error e => ⟨x.notices, .error e⟩).notices = _
  rw [h]

end Logged

end ClusterScheduler
