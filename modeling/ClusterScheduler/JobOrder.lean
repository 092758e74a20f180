import ClusterScheduler.Job.Basic
import ClusterScheduler.Config

/-!
# Job order

The waiting jobs of a queue are placed in an order given by the configured priority: by
submission (submission time, then id), by ascending karma, or by descending priority, ties
going to submission order. Karma is compared by the total order of doubles, `-0.0` before
`0.0`. Sorting is stable.

A policy in general names job ids in an order; the waiting jobs are then reordered by the rank
of their id in it, stably, the jobs it leaves out coming last. The built-in orders are such
policies, naming every job by id in sorted order.
-/

namespace ClusterScheduler

namespace JobPriority

def name : JobPriority → String
  | .fifo => "fifo"
  | .fairshare => "fairshare"
  | .priority => "priority"

def ofName? : String → Option JobPriority
  | "fifo" => some .fifo
  | "fairshare" => some .fairshare
  | "priority" => some .priority
  | _ => none

def bySubmission (a b : Job) : Ordering :=
  (Ord.compare a.submissionTime b.submissionTime).then (Ord.compare a.id b.id)

def compare : JobPriority → Job → Job → Ordering
  | .fifo, a, b => bySubmission a b
  | .fairshare, a, b => (Double.totalCmp a.karma b.karma).then (bySubmission a b)
  | .priority, a, b => (Ord.compare b.priority a.priority).then (bySubmission a b)

def sortJobs (p : JobPriority) (jobs : List Job) : List Job :=
  jobs.mergeSort fun a b => p.compare a b ≠ .gt

def order (p : JobPriority) (jobs : List Job) : List Int := (p.sortJobs jobs).map (·.id)

end JobPriority

/-- The rank of an id in a policy's order of ids: its position there, the last one when the
order lists the id twice. -/
def rankIn (order : List Int) (id : Int) : Option Nat :=
  order.zipIdx.foldl (fun r p => if p.1 = id then some p.2 else r) none

/-- Where a job goes in a policy's order: the rank of its id, past every rank when the order
leaves the job out. -/
def rankKey (order : List Int) (j : Job) : Nat := (rankIn order j.id).getD order.length

def sortByPolicy (policy : List Job → List Int) (jobs : List Job) : List Job :=
  jobs.mergeSort fun a b => rankKey (policy jobs) a ≤ rankKey (policy jobs) b

end ClusterScheduler
