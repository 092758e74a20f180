import ClusterScheduler.Fault

/-!
# Small stable sorts

The building blocks of the stable sort for short sequences, all driven by a strict comparison
`lt`. Insertion moves an element left past every element it is less than. `sortFour` orders four
elements with five comparisons. `mergeBoth` merges two sorted halves from both ends at once, one
element from each end per step; when the two ends do not meet exactly, the comparison is not a
strict weak order and the merge stops with `Fault.orderViolation`. `smallSort` sorts up to 32
elements: it presorts a prefix of each half (eight elements by two `sortFour` and a merge, or
four, or one), extends each half by insertion and merges the halves from both ends.

With a strict weak order every function here sorts stably; with any other comparison the result
is still the exact sequence these steps produce, which is what the order of the answers shows.
-/

namespace ClusterScheduler

namespace Sorting

variable {α : Type}

/-- Inserts `x` into a sorted run given last element first: `x` moves past the elements it is
less than. -/
def insertRev (lt : α → α → Bool) (x : α) : List α → List α
  | [] => [x]
  | y :: ys => if lt x y then y :: insertRev lt x ys else x :: y :: ys

def extendRun (lt : α → α → Bool) (run rest : List α) : List α :=
  (rest.foldl (fun acc x => insertRev lt x acc) run.reverse).reverse

def insertionSort (lt : α → α → Bool) (xs : List α) : List α := extendRun lt [] xs

/-- Four elements in order, by five comparisons: the two pairs, their minima and maxima, then
the two middle elements. -/
def sortFour (lt : α → α → Bool) (v0 v1 v2 v3 : α) : List α :=
  let c1 := lt v1 v0
  let c2 := lt v3 v2
  let a := if c1 then v1 else v0
  let b := if c1 then v0 else v1
  let c := if c2 then v3 else v2
  let d := if c2 then v2 else v3
  let c3 := lt c a
  let c4 := lt d b
  let least := if c3 then c else a
  let most := if c4 then b else d
  let midLeft := if c3 then a else if c4 then c else b
  let midRight := if c4 then d else if c3 then b else c
  let c5 := lt midRight midLeft
  [least, if c5 then midRight else midLeft, if c5 then midLeft else midRight, most]

/-- The first `k` steps of a merge from the front of `xs` and `ys`: the elements written, and
how many were taken from `xs` and from `ys`. The left element goes first unless the right one is
less than it. -/
def frontSteps (lt : α → α → Bool) : Nat → List α → List α → List α × Nat × Nat
  | k + 1, x :: xs, y :: ys =>
    if lt y x then
      let rest := frontSteps lt k (x :: xs) ys
      (y :: rest.1, rest.2.1, rest.2.2 + 1)
    else
      let rest := frontSteps lt k xs (y :: ys)
      (x :: rest.1, rest.2.1 + 1, rest.2.2)
  | _, _, _ => ([], 0, 0)

/-- The first `k` steps of a merge from the back, both sides given last element first: the
elements written, last first, and how many were taken from each side. The left element goes
last when the right one is less than it. -/
def backSteps (lt : α → α → Bool) : Nat → List α → List α → List α × Nat × Nat
  | k + 1, x :: xs, y :: ys =>
    if lt y x then
      let rest := backSteps lt k xs (y :: ys)
      (x :: rest.1, rest.2.1 + 1, rest.2.2)
    else
      let rest := backSteps lt k (x :: xs) ys
      (y :: rest.1, rest.2.1, rest.2.2 + 1)
  | _, _, _ => ([], 0, 0)

/-- Merges the sorted halves `v[0, n/2)` and `v[n/2, n)` of a sequence of `n` elements from both
ends at once: `n/2` steps each write the smaller front element at the front and the larger back
element at the back, and an odd middle is taken from whichever left part remains. -/
def mergeBoth [Inhabited α] (lt : α → α → Bool) (v : List α) : Except Fault (List α) :=
  let half := v.length / 2
  let left := v.take half
  let right := v.drop half
  let front := frontSteps lt half left right
  let back := backSteps lt half left.reverse right.reverse
  let middle : List α × Nat × Nat :=
    if v.length % 2 = 0 then ([], front.2.1, front.2.2)
    else if front.2.1 < half - back.2.1 then ([left.getD front.2.1 default], front.2.1 + 1, front.2.2)
    else ([right.getD front.2.2 default], front.2.1, front.2.2 + 1)
  if middle.2.1 + back.2.1 = half ∧ middle.2.2 + back.2.2 = v.length - half then
    .ok (front.1 ++ middle.1 ++ back.1.reverse)
  else .error .orderViolation

def sortEight [Inhabited α] (lt : α → α → Bool) (v : List α) : Except Fault (List α) :=
  match v with
  | [a, b, c, d, e, f, g, h] => mergeBoth lt (sortFour lt a b c d ++ sortFour lt e f g h)
  | _ => .ok v

/-- The presorted prefix of one half of a sequence of `n` elements, and its length: eight
elements sorted by `sortEight` when `n ≥ 16`, four by `sortFour` when `n ≥ 8`, else the first
element alone. -/
def presortHalf [Inhabited α] (lt : α → α → Bool) (n : Nat) (half : List α) :
    Except Fault (Nat × List α) :=
  if 16 ≤ n then do
    let sorted ← sortEight lt (half.take 8)
    pure (8, sorted)
  else if 8 ≤ n then
    match half.take 4 with
    | [a, b, c, d] => .ok (4, sortFour lt a b c d)
    | l => .ok (4, l)
  else .ok (1, half.take 1)

/-- Sorts a short sequence (at most 32 elements): each half is started from a presorted prefix
and extended by insertion, then the halves are merged from both ends. -/
def smallSort [Inhabited α] (lt : α → α → Bool) (v : List α) : Except Fault (List α) :=
  if v.length < 2 then .ok v
  else do
    let left := v.take (v.length / 2)
    let right := v.drop (v.length / 2)
    let l0 ← presortHalf lt v.length left
    let r0 ← presortHalf lt v.length right
    mergeBoth lt (extendRun lt l0.2 (left.drop l0.1) ++ extendRun lt r0.2 (right.drop r0.1))

end Sorting

end ClusterScheduler
