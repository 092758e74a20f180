import ClusterScheduler.Hierarchy.Basic
import ClusterScheduler.Request
import ClusterScheduler.IdSet.Basic

/-!
# Matching requests

Each matcher chooses, among free resources, the resources of one request group; `request`
matches the groups of a moldable one after the other, a group never taking what an earlier
one took.

* Scattered matching walks the groups of the outermost level in order and takes every group
  that can hold the nested request, without backtracking; innermost groups are taken only when
  wholly free, and a unit level takes its lowest free ids.
* Contiguous matching takes the lowest ids of the first (or shortest) run of consecutive free
  ids that is long enough.
* Local matching fills the outer groups with the fewest free resources first.

Counts and id arithmetic are 32-bit, as in the inventory numbering: a run covering every 32-bit
id cannot be measured, which is a `Fault`.
-/

namespace ClusterScheduler

namespace Hierarchy

/-- Runs a matcher on the ids of some spans in increasing order, keeping the sets it finds until
`need` are found. -/
def collectSpan (f : Nat → Logged (Option IdSet)) (need : Nat) (found : List IdSet) :
    Nat → Nat → Logged (List IdSet)
  | _, 0 => pure found
  | id, left + 1 =>
    if found.length = need then pure found
    else do
      match ← f id with
      | some s => collectSpan f need (found ++ [s]) (id + 1) left
      | none => collectSpan f need found (id + 1) left

def collectIds (f : Nat → Logged (Option IdSet)) (need : Nat) :
    List Span → List IdSet → Logged (List IdSet)
  | [], found => pure found
  | sp :: rest, found => do
    let found ← collectSpan f need found sp.lo sp.size
    collectIds f need rest found

def unionAll (sets : List IdSet) : IdSet := sets.foldl (· ∪ ·) ∅

/-- The state of a walk over the groups of a level: the resources taken and the number of
groups used. -/
structure Taken where
  resources : IdSet
  groups : Nat

/-- What one group gives a walk over its level, `avail` being its free part: at the innermost
level the group itself when it is wholly free, else what the nested request `sub` finds among
its free resources. -/
def groupFinds (innermost : Bool) (sub : IdSet → Logged (Option IdSet)) (avail : IdSet)
    (g : Group) : Logged (Option IdSet) :=
  if innermost then pure (if avail = g.resources then some avail else none) else sub avail

/-- One step of the walk over the groups of a level: once `need` groups are taken the walk keeps
what it has; a group with free resources is taken when it gives something. -/
def takeGroup (need : Nat) (innermost : Bool) (sub : IdSet → Logged (Option IdSet))
    (free : IdSet) (t : Taken) (g : Group) : Logged Taken :=
  if t.groups = need then pure t
  else
    let avail := g.resources ∩ free
    if avail.isEmpty then pure t
    else do
      match ← groupFinds innermost sub avail g with
      | some s => pure ⟨t.resources ∪ s, t.groups + 1⟩
      | none => pure t

def scattered (h : Hierarchy) (free : IdSet) : List LevelCount → Logged (Option IdSet)
  | [] => pure none
  | l :: inner =>
    if h.isUnit l.level then
      match inner with
      | [] => liftM (free.firstN l.count)
      | _ => do
        -- every resource is a group of its own, and must hold the whole nested request
        let found ← collectIds (fun id => scattered h (IdSet.ofIds [id]) inner) l.count free.spans []
        pure (if found.length = l.count then some (unionAll found) else none)
    else
      match h.groups? l.level with
      | none => do Logged.note (.noSuchLevel l.level); pure none
      | some gs => do
        let taken ← gs.foldlM (takeGroup l.count inner.isEmpty (fun avail => scattered h avail inner)
          free) ⟨∅, 0⟩
        pure (if taken.groups = l.count then some taken.resources else none)

def runPrefix (start count : Nat) : Except Fault IdSet := do
  let e ← Word.u32.add start count
  let e ← Word.u32.sub e 1
  pure (if e.toNat < start ∨ e < 0 then ∅ else IdSet.range start e.toNat)

def firstRun (count : Nat) : List Span → Except Fault (Option Span)
  | [] => .ok none
  | sp :: rest => do
    let n ← sp.size32
    if count ≤ n then pure (some sp) else firstRun count rest

def shortestRun (count : Nat) : List Span → Option Span → Except Fault (Option Span)
  | [], best => .ok best
  | sp :: rest, best => do
    let n ← sp.size32
    if count ≤ n then
      let better := match best with
        | some b => decide (sp.hi - sp.lo < b.hi - b.lo)
        | none => true
      shortestRun count rest (if better then some sp else best)
    else shortestRun count rest best

/-- Contiguous matching: one unit level, taken from the first long enough run of free ids, or
from the shortest one with `bestFit`. -/
def contiguous (h : Hierarchy) (free : IdSet) (levels : List LevelCount) (bestFit : Bool) :
    Except Fault (Option IdSet) :=
  match levels with
  | [l] =>
    if !h.isUnit l.level then .ok none
    else do
      let run ← if bestFit then shortestRun l.count free.spans none else firstRun l.count free.spans
      match run with
      | none => pure none
      | some sp => pure (some (← runPrefix sp.lo l.count))
  | _ => .ok none

/-- Local matching: an outer level over a unit level. The outer groups whose free part can
hold the inner count are ordered by the size of that part, smallest first, and the lowest free
ids of the first ones are taken. One level is matched as scattered. -/
def packed (h : Hierarchy) (free : IdSet) (levels : List LevelCount) : Logged (Option IdSet) :=
  match levels with
  | [_] => h.scattered free levels
  | [outer, inner] =>
    if !h.isUnit inner.level then pure none
    else
      match h.groups? outer.level with
      | none => h.scattered free levels
      | some gs =>
        let candidates := (gs.map (·.resources ∩ free)).filter (inner.count ≤ ·.card)
        if candidates.length < outer.count then pure none
        else do
          let chosen := (candidates.mergeSort fun a b => decide (a.card ≤ b.card)).take outer.count
          let parts ← liftM (chosen.mapM fun s => s.firstN inner.count)
          pure (parts.foldlM (fun acc p => p.map (· ∪ acc)) ∅)
  | _ => pure none

def matchWith (h : Hierarchy) (policy : FindPolicy) (free : IdSet) (levels : List LevelCount) :
    Logged (Option IdSet) :=
  match policy with
  | .scattered => h.scattered free levels
  | .contiguous => liftM (h.contiguous free levels false)
  | .contiguousBestFit => liftM (h.contiguous free levels true)
  | .local => h.packed free levels

/-- One step of a request: the group is matched among the available resources of its filter
that the earlier groups left, and what it finds joins what they took; once a group has failed
nothing more is matched. -/
def requestStep (h : Hierarchy) (policy : FindPolicy) (available : IdSet) (acc : Option IdSet)
    (g : RequestGroup) : Logged (Option IdSet) :=
  match acc with
  | none => pure none
  | some taken =>
    let pool := (available ∩ g.filter) \ taken
    if pool.isEmpty then pure none
    else do
      let found ← h.matchWith policy pool g.levels
      pure (found.map (· ∪ taken))

/-- Matches request groups one after the other among available resources: each group among
those of its filter that earlier groups left; the union of the groups' resources, or `none` as
soon as a group cannot be matched. -/
def requestWith (h : Hierarchy) (policy : FindPolicy) (available : IdSet)
    (groups : List RequestGroup) : Logged (Option IdSet) :=
  groups.foldlM (h.requestStep policy available) (some ∅)

def request (h : Hierarchy) (available : IdSet) (groups : List RequestGroup) : Logged (Option IdSet) :=
  h.requestWith .scattered available groups

end Hierarchy

end ClusterScheduler
