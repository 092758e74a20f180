import ClusterScheduler.IdSet.Basic
import ClusterScheduler.Job.Basic

/-!
# Slots

A slot is a closed time interval with the resources free over it. Besides its free resources a
slot records busy resources that other jobs may still use: those of time-sharing jobs, by user
and job name (either may be the wildcard `*`), and those reserved by placeholder jobs, by
placeholder name. Both maps are kept sorted by key.
-/

namespace ClusterScheduler

abbrev NamedSets := List (String × IdSet)

def NamedSets.merge (k : String) (s : IdSet) : NamedSets → NamedSets
  | [] => [(k, s)]
  | (k', t) :: rest =>
    if k = k' then (k', t ∪ s) :: rest
    else if k < k' then (k, s) :: (k', t) :: rest
    else (k', t) :: merge k s rest

def NamedSets.remove (k : String) (s : IdSet) (m : NamedSets) : NamedSets :=
  m.map fun (k', t) => if k = k' then (k', t \ s) else (k', t)

abbrev SharedSets := List (String × NamedSets)

def SharedSets.merge (user name : String) (s : IdSet) : SharedSets → SharedSets
  | [] => [(user, [(name, s)])]
  | (u, m) :: rest =>
    if user = u then (u, m.merge name s) :: rest
    else if user < u then (user, [(name, s)]) :: (u, m) :: rest
    else (u, m) :: merge user name s rest

/-- A time interval `[begin, end]` with its free resources. -/
structure Slot where
  id : Int
  begin : Int
  «end» : Int
  resources : IdSet
  /-- Busy resources open to time-sharing jobs, by user then job name. -/
  shared : SharedSets := []
  /-- Busy resources open to the `allow` jobs of a placeholder name. -/
  reserved : NamedSets := []
  deriving DecidableEq, Inhabited

namespace Slot

def copy (s : Slot) (id begin e : Int) : Slot := { s with id, begin, «end» := e }

/-- The busy resources open to a time-sharing job of that user and name, wildcard entries
included. -/
def sharedWith (s : Slot) (user name : String) : IdSet :=
  [user, "*"].foldl (fun acc u =>
    match s.shared.lookup u with
    | some m => [name, "*"].foldl (fun acc n =>
        match m.lookup n with
        | some p => acc ∪ p
        | none => acc) acc
    | none => acc) ∅

/-- The resources a job may use in the slot: the free ones, those open to its time-sharing
identity `(user, name)`, and those reserved for it by a placeholder. -/
def availableFor (s : Slot) (sharing : Option (String × String)) (p : Placeholder) : IdSet :=
  let free := match sharing with
    | some (u, n) => s.resources ∪ s.sharedWith u n
    | none => s.resources
  match p with
  | .allows n =>
    match s.reserved.lookup n with
    | some r => free ∪ r
    | none => free
  | _ => free

def share (s : Slot) (user name : String) (r : IdSet) : Slot :=
  { s with shared := s.shared.merge user name r }

def reserve (s : Slot) (name : String) (r : IdSet) : Slot :=
  { s with reserved := s.reserved.merge name r }

def release (s : Slot) (name : String) (r : IdSet) : Slot :=
  { s with reserved := s.reserved.remove name r }

end Slot

end ClusterScheduler
