import ClusterScheduler.IdSet.Sliding
import ClusterScheduler.Proofs.IdSetCount

/-!
# The sliding intersection is a queue

The window search keeps the intersection of a first-in first-out window of id sets as two
stacks. It is compared here with the plain queue of the sets, oldest first, and the
intersection of all of them (`IdSet.interAll`). The abstraction is `Represents w q`: the queue
`q` is the sets moved to `front` followed by the sets of `back`, oldest first; `front` holds the
intersections of each moved set with those moved after it, and `backMeet` the intersection of
`back`. Every operation keeps it, whether a pop moves `back` over or not.

Main statement: after any sequence of pushes, pops and clears from the empty window, the window
has as many sets as the queue that the same operations build, is empty exactly when the queue
is, and its intersection is that of all the sets of the queue (`sliding_refines_queue`).
-/

namespace ClusterScheduler

namespace IdSet

def interAll : List IdSet → IdSet
  | [] => ∅
  | s :: rest => rest.foldl (· ∩ ·) s

theorem mem_foldl_inter {x : Nat} :
    ∀ (rest : List IdSet) (acc : IdSet), x ∈ rest.foldl (· ∩ ·) acc ↔ x ∈ acc ∧ ∀ s ∈ rest, x ∈ s
  | [], acc => by simp
  | s :: rest, acc => by
    rw [List.foldl_cons, mem_foldl_inter rest, mem_inter]
    simp only [List.mem_cons, forall_eq_or_imp, and_assoc]

theorem mem_interAll {q : List IdSet} {x : Nat} : x ∈ interAll q ↔ q ≠ [] ∧ ∀ s ∈ q, x ∈ s := by
  cases q with
  | nil => simp [interAll]
  | cons s rest => simp [interAll, mem_foldl_inter]

theorem interAll_append {a b : List IdSet} (ha : a ≠ []) (hb : b ≠ []) :
    interAll (a ++ b) = interAll a ∩ interAll b :=
  ext fun x => by
    simp only [mem_inter, mem_interAll, ne_eq, List.append_eq_nil_iff, ha, hb, false_and,
      not_false_eq_true, true_and, List.mem_append]
    constructor
    · intro h
      exact ⟨fun s hs => h s (.inl hs), fun s hs => h s (.inr hs)⟩
    · rintro ⟨h₁, h₂⟩ s (hs | hs)
      · exact h₁ s hs
      · exact h₂ s hs

theorem interAll_cons (s : IdSet) {q : List IdSet} (hq : q ≠ []) :
    interAll (s :: q) = s ∩ interAll q :=
  interAll_append (a := [s]) (List.cons_ne_nil _ _) hq

theorem interAll_concat {q : List IdSet} (hq : q ≠ []) (s : IdSet) :
    interAll (q ++ [s]) = interAll q ∩ s :=
  interAll_append hq (List.cons_ne_nil _ _)

end IdSet

namespace Sliding

open IdSet

/-! ## The abstraction -/

/-- The `front` stack holding the oldest sets `old`: for each of them, the intersection of it
and the sets after it in `old`, the oldest's on top. -/
def suffixMeets : List IdSet → List IdSet
  | [] => []
  | s :: rest => interAll (s :: rest) :: suffixMeets rest

@[simp] theorem length_suffixMeets : ∀ old : List IdSet, (suffixMeets old).length = old.length
  | [] => rfl
  | _ :: rest => by simp [suffixMeets, length_suffixMeets rest]

theorem suffixMeets_drop_one : ∀ old : List IdSet, (suffixMeets old).drop 1 = suffixMeets (old.drop 1)
  | [] => rfl
  | _ :: _ => rfl

theorem head?_suffixMeets : ∀ old : List IdSet,
    (suffixMeets old).head? = if old = [] then none else some (interAll old)
  | [] => rfl
  | _ :: _ => rfl

/-- The window `w` holds the queue `q`, oldest first: the sets moved to `front`, then those of
`back`. -/
def Represents (w : Sliding) (q : List IdSet) : Prop :=
  ∃ old, q = old ++ w.back.reverse ∧ w.front = suffixMeets old ∧
    w.backMeet = if w.back = [] then none else some (interAll w.back.reverse)

theorem represents_empty : Represents {} [] := ⟨[], rfl, rfl, by simp⟩

theorem transfer_suffixMeets : ∀ (back done : List IdSet),
    transfer back (suffixMeets done).head? (suffixMeets done) = suffixMeets (back.reverse ++ done)
  | [], done => rfl
  | s :: rest, done => by
    -- the set moved is intersected with the top of `front`, the intersection of `done`
    have hstep : transfer (s :: rest) (suffixMeets done).head? (suffixMeets done) =
        transfer rest (suffixMeets (s :: done)).head? (suffixMeets (s :: done)) := by
      cases done with
      | nil => exact transfer_cons_none s rest []
      | cons d ds =>
        rw [show (suffixMeets (d :: ds)).head? = some (interAll (d :: ds)) from rfl,
          transfer_cons_some, ← interAll_cons s (List.cons_ne_nil d ds)]
        rfl
    rw [hstep, transfer_suffixMeets rest (s :: done)]
    simp

/-! ## Each operation keeps the abstraction -/

variable {w : Sliding} {q : List IdSet}

theorem Represents.push (h : w.Represents q) (s : IdSet) : (w.push s).Represents (q ++ [s]) := by
  obtain ⟨old, rfl, hfront, hmeet⟩ := h
  refine ⟨old, by simp [Sliding.push], hfront, ?_⟩
  simp only [Sliding.push, List.reverse_cons, reduceCtorEq, if_false]
  by_cases hb : w.back = []
  · rw [if_pos hb] at hmeet
    rw [hmeet, hb]
    rfl
  · rw [if_neg hb] at hmeet
    rw [hmeet, interAll_concat (List.reverse_ne_nil_iff.2 hb)]

theorem Represents.pop (h : w.Represents q) : w.pop.Represents (q.drop 1) := by
  obtain ⟨old, rfl, hfront, hmeet⟩ := h
  cases old with
  | nil =>
    -- `front` is empty: `back` moves over first, and the pop takes the oldest of it
    rw [pop_of_front_nil hfront]
    have htr : transfer w.back none [] = suffixMeets w.back.reverse := by
      have h := transfer_suffixMeets w.back []
      rwa [List.append_nil] at h
    refine ⟨w.back.reverse.drop 1, by simp, ?_, by simp⟩
    show (transfer w.back none []).drop 1 = _
    rw [htr, suffixMeets_drop_one]
  | cons s rest =>
    -- `front` is not empty: its top, the oldest set's intersection, goes
    rw [pop_of_front_cons hfront]
    exact ⟨rest, by simp, rfl, hmeet⟩

theorem represents_clear (w : Sliding) : w.clear.Represents [] := represents_empty

/-! ## What the window shows of the queue -/

theorem Represents.size_eq (h : w.Represents q) : w.size = q.length := by
  obtain ⟨old, rfl, hfront, -⟩ := h
  simp [size, hfront]

theorem Represents.isEmpty_eq (h : w.Represents q) : w.isEmpty = q.isEmpty := by
  rw [isEmpty, h.size_eq]
  cases q <;> rfl

theorem Represents.meet_eq (h : w.Represents q) : w.meet = interAll q := by
  obtain ⟨old, rfl, hfront, hmeet⟩ := h
  have hf := head?_suffixMeets old
  rw [← hfront] at hf
  unfold meet
  by_cases ho : old = [] <;> by_cases hb : w.back = []
  · subst ho
    simp [hf, hmeet, hb, interAll]
  · subst ho
    simp [hf, hmeet, hb]
  · simp [hf, hmeet, hb, ho]
  · rw [hf, hmeet, if_neg ho, if_neg hb, interAll_append ho (List.reverse_ne_nil_iff.2 hb)]

theorem Represents.mem_meet (h : w.Represents q) {x : Nat} (hx : x ∈ w.meet) : ∀ s ∈ q, x ∈ s :=
  (mem_interAll.1 (h.meet_eq ▸ hx)).2

/-! ## Runs of operations -/

inductive Op where
  | push (s : IdSet)
  | pop
  | clear

def Op.apply (w : Sliding) : Op → Sliding
  | .push s => w.push s
  | .pop => w.pop
  | .clear => w.clear

/-- Runs an operation on a plain queue: a push appends, a pop drops the oldest set if there is
one, a clear empties. -/
def Op.onQueue (q : List IdSet) : Op → List IdSet
  | .push s => q ++ [s]
  | .pop => q.drop 1
  | .clear => []

theorem Represents.apply (h : w.Represents q) : ∀ o : Op, (o.apply w).Represents (o.onQueue q)
  | .push s => h.push s
  | .pop => h.pop
  | .clear => represents_clear w

theorem Represents.run : ∀ (ops : List Op) {w : Sliding} {q : List IdSet}, w.Represents q →
    (ops.foldl Op.apply w).Represents (ops.foldl Op.onQueue q)
  | [], _, _, h => h
  | o :: ops, _, _, h => Represents.run ops (h.apply o)

/-- The sliding intersection refines a queue of sets. After any sequence of pushes, pops and
clears from the empty window, it holds as many sets as the queue built by the same operations,
is empty exactly when the queue is, and its intersection is that of all the sets of the
queue. -/
theorem sliding_refines_queue (ops : List Op) :
    (ops.foldl Op.apply {}).size = (ops.foldl Op.onQueue []).length ∧
      (ops.foldl Op.apply {}).isEmpty = (ops.foldl Op.onQueue []).isEmpty ∧
      (ops.foldl Op.apply {}).meet = interAll (ops.foldl Op.onQueue []) := by
  have h := Represents.run ops represents_empty
  exact ⟨h.size_eq, h.isEmpty_eq, h.meet_eq⟩

/-- The first pop of three pushed sets moves them to `front`, and the window then holds the
intersection of the two newest. -/
example : ((((({} : Sliding).push (range 1 10)).push (range 3 12)).push (range 5 20)).pop).meet =
    range 5 12 := by decide

end Sliding

end ClusterScheduler
