import ClusterScheduler.Cycle
import ClusterScheduler.Proofs.MatchWithin
import Mathlib.Control.Monad.Basic

/-!
# Durations that overflow

A window lasts the walltime of its moldable plus the security time, and the sum is taken on
64-bit words. A walltime near the top of the range therefore faults the search for a window,
and the fault stops the placement of the job, the pass it belongs to and the whole cycle: no
job of the cycle is placed, whatever the others ask.
-/

namespace ClusterScheduler

theorem Word.add_error {w : Word} {a b : Int} (h : ¬(w.lo ≤ a + b ∧ a + b ≤ w.hi)) :
    w.add a b = .error .addOverflow := by
  simp only [Word.add, Word.holds, decide_eq_true_eq, if_neg h]

theorem Logged.result_bind_of_error {α β : Type} {x : Logged α} {f : α → Logged β} {e : Fault}
    (h : x.result = .error e) : (x >>= f).result = .error e := by
  rw [Logged.result_bind, h]

namespace Placement

variable {cl : Cluster} {ss : SlotSet} {j : Job} {minBegin : Option Int}

theorem findForMoldable_duration_overflow {m : Moldable}
    (h : ¬(Word.i64.lo ≤ m.walltime + cl.config.securityTime ∧
      m.walltime + cl.config.securityTime ≤ Word.i64.hi)) :
    (findForMoldable cl ss j m minBegin).result = .error .addOverflow := by
  unfold findForMoldable
  dsimp only
  rw [Logged.result_bind_of_error]
  rw [Logged.result_lift, Word.add_error h]

/-- Placing a job whose first moldable's walltime plus the security time leaves the 64-bit range
faults, whatever the slot set and the earliest start: the first moldable is always searched. -/
theorem scheduleJob_duration_overflow {m : Moldable} {rest : List Moldable}
    (hm : j.moldables = m :: rest)
    (h : ¬(Word.i64.lo ≤ m.walltime + cl.config.securityTime ∧
      m.walltime + cl.config.securityTime ≤ Word.i64.hi)) :
    (scheduleJob cl ss j minBegin).result = .error .addOverflow := by
  unfold scheduleJob
  rw [Logged.result_bind_of_error]
  rw [hm, firstFit, Logged.result_bind_of_error (findForMoldable_duration_overflow h)]

/-- A job of walltime `2^63 - 1` with a security time of 60 seconds cannot be placed even in an
empty slot set. -/
theorem scheduleJob_faults_on_walltime_overflow :
    let cl : Cluster := ⟨{ securityTime := 60 },
      { defaultResources := IdSet.range 1 1, hierarchy := ⟨[("resource_id", ⟨none, true⟩)]⟩ }⟩
    let m : Moldable := ⟨1, maxI64, [⟨IdSet.range 1 1, [⟨"resource_id", 1⟩]⟩]⟩
    let j : Job := { id := 1, moldables := [m] }
    ¬(Word.i64.lo ≤ m.walltime + cl.config.securityTime ∧
      m.walltime + cl.config.securityTime ≤ Word.i64.hi) ∧
      (scheduleJob cl (SlotSet.new (IdSet.range 1 1) 0) j none).result = .error .addOverflow := by
  intro cl m j
  have h : ¬(Word.i64.lo ≤ m.walltime + cl.config.securityTime ∧
      m.walltime + cl.config.securityTime ≤ Word.i64.hi) := by decide
  exact ⟨h, scheduleJob_duration_overflow rfl h⟩

end Placement

/-- A cycle over one waiting job of walltime `2^63 - 1` with a security time of 60 seconds
faults with an overflow of the job's duration, instead of leaving the job unplaced. -/
theorem cycle_faults_on_walltime_overflow :
    let cl : Cluster := ⟨{ securityTime := 60 },
      { defaultResources := IdSet.range 1 1, hierarchy := ⟨[("resource_id", ⟨none, true⟩)]⟩ }⟩
    let m : Moldable := ⟨1, maxI64, [⟨IdSet.range 1 1, [⟨"resource_id", 1⟩]⟩]⟩
    let r : Round :=
      { now := 0
        maxTime := 1000
        cluster := cl
        scheduled := []
        waiting := [{ id := 1, moldables := [m] }] }
    ¬(Word.i64.lo ≤ m.walltime + cl.config.securityTime ∧
      m.walltime + cl.config.securityTime ≤ Word.i64.hi) ∧
      ((r.cycle ["default"] .fifo).result.map fun _ => ()) = .error .addOverflow := by
  intro cl m r
  exact ⟨by decide, by decide +kernel⟩

end ClusterScheduler
