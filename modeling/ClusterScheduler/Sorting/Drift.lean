import ClusterScheduler.Sorting.Small

/-!
# The stable sort

`sortBy lt` is the stable sort used to order resources. Up to 20 elements it is an insertion
sort. Longer sequences are cut into runs: a run already in order (or strictly against it,
then reversed) when it is long enough, otherwise either a short stretch sorted at once (eager
mode, for sequences of at most 64 elements) or an unsorted stretch left for later. Neighbouring
runs are merged following a merge tree whose node depths come from the midpoints of the runs,
in the manner of powersort; two unsorted stretches just join, and an unsorted stretch is sorted
by a stable quicksort before it is merged. The quicksort picks its pivot as a median of three
(recursively of nine, and so on, for 64 elements or more), partitions stably, puts the elements
equal to a repeated pivot aside, and after too many partitions falls back to the eager
run-merging sort. In eager mode every run is sorted, so joining two runs is merging them.
Stretches of at most 32 elements are sorted by `smallSort`.

Every step is a function of the comparisons it makes, so with a comparison that is not a
strict weak order the result is still determined; the merge from both ends in `smallSort` can
detect such a comparison, and then the sort stops with `Fault.orderViolation`.

The quicksort recurses on the two sides of a partition, each shorter than the stretch since the
pivot lies on one side only; the run scan takes at least one element per run.
-/

namespace ClusterScheduler

namespace Sorting

variable {α : Type}

/-- Merges two sorted runs from the front: the left element goes first unless the right one is
less than it. -/
def mergeFront (lt : α → α → Bool) : List α → List α → List α
  | [], ys => ys
  | xs, [] => xs
  | x :: xs, y :: ys =>
    if lt y x then y :: mergeFront lt (x :: xs) ys else x :: mergeFront lt xs (y :: ys)
termination_by xs ys => xs.length + ys.length

/-- Merges two sorted runs from the back, both given last element first: the left element goes
last when the right one is less than it. The result is given last element first. -/
def mergeBackRev (lt : α → α → Bool) : List α → List α → List α
  | [], ys => ys
  | xs, [] => xs
  | x :: xs, y :: ys =>
    if lt y x then x :: mergeBackRev lt xs (y :: ys) else y :: mergeBackRev lt (x :: xs) ys
termination_by xs ys => xs.length + ys.length

/-- Merges the sorted runs `l` and `r`: from the front when `l` is not the longer one, from the
back otherwise. -/
def mergeRuns (lt : α → α → Bool) (l r : List α) : List α :=
  if l.isEmpty ∨ r.isEmpty then l ++ r
  else if l.length ≤ r.length then mergeFront lt l r
  else (mergeBackRev lt l.reverse r.reverse).reverse

/-- Splits a sequence stably into the elements that go left and the others; the element at
`pivot` goes left exactly when `pivotLeft`, without being compared. -/
def partition (v : List α) (pivot : Nat) (pivotLeft : Bool) (goesLeft : α → Bool) :
    List α × List α :=
  let tagged := v.zipIdx.map fun (x, i) => (x, if i = pivot then pivotLeft else goesLeft x)
  ((tagged.filter (·.2)).map (·.1), (tagged.filter (!·.2)).map (·.1))

theorem partition_length_lt {v : List α} {pivot : Nat} (hp : pivot < v.length) (pivotLeft : Bool)
    (goesLeft : α → Bool) :
    (if pivotLeft then (partition v pivot pivotLeft goesLeft).2
      else (partition v pivot pivotLeft goesLeft).1).length < v.length := by
  have hmem : ∀ b : Bool, (v[pivot], b) ∈
      v.zipIdx.map fun x => (x.1, if x.2 = pivot then b else goesLeft x.1) := fun b =>
    List.mem_map.2 ⟨(v[pivot], pivot), List.mem_zipIdx_iff_getElem?.2 (List.getElem?_eq_getElem hp),
      by simp⟩
  cases pivotLeft with
  | false =>
    simp only [partition, Bool.false_eq_true, if_false, List.length_map]
    refine Nat.lt_of_lt_of_le
      (List.length_filter_lt_length_iff_exists.2 ⟨(v[pivot], false), hmem false, by simp⟩) ?_
    simp
  | true =>
    simp only [partition, if_true, List.length_map]
    refine Nat.lt_of_lt_of_le
      (List.length_filter_lt_length_iff_exists.2 ⟨(v[pivot], true), hmem true, by simp⟩) ?_
    simp

theorem partition_length_add (v : List α) (pivot : Nat) (pivotLeft : Bool) (goesLeft : α → Bool) :
    (partition v pivot pivotLeft goesLeft).1.length + (partition v pivot pivotLeft goesLeft).2.length =
      v.length := by
  have hsplit : ∀ l : List (α × Bool), (l.filter (·.2)).length + (l.filter (!·.2)).length = l.length := by
    intro l
    induction l with
    | nil => rfl
    | cons x l ih => cases hx : x.2 <;> simp [hx] <;> omega
  simp only [partition, List.length_map]
  rw [hsplit]
  simp

def median3 [Inhabited α] (lt : α → α → Bool) (v : Array α) (a b c : Nat) : Nat :=
  let x := lt (v.getD a default) (v.getD b default)
  let y := lt (v.getD a default) (v.getD c default)
  if x == y then
    if lt (v.getD b default) (v.getD c default) != x then c else b
  else a

/-- A pseudo-median of three regions of `n` elements starting at `a`, `b` and `c`: the median
of the regions' own pseudo-medians while regions hold at least 8 elements. -/
def median3Rec [Inhabited α] (lt : α → α → Bool) (v : Array α) (a b c n : Nat) : Nat :=
  if 64 ≤ n * 8 then
    let n8 := n / 8
    let a := median3Rec lt v a (a + n8 * 4) (a + n8 * 7) n8
    let b := median3Rec lt v b (b + n8 * 4) (b + n8 * 7) n8
    let c := median3Rec lt v c (c + n8 * 4) (c + n8 * 7) n8
    median3 lt v a b c
  else median3 lt v a b c
termination_by n
decreasing_by all_goals omega

def choosePivot [Inhabited α] (lt : α → α → Bool) (v : Array α) : Nat :=
  let n8 := v.size / 8
  if v.size < 64 then median3 lt v 0 (n8 * 4) (n8 * 7)
  else median3Rec lt v 0 (n8 * 4) (n8 * 7) n8

theorem median3_le [Inhabited α] (lt : α → α → Bool) (v : Array α) (a b c : Nat) :
    median3 lt v a b c ≤ max a (max b c) := by
  simp only [median3]
  split
  · split <;> omega
  · omega

theorem median3Rec_lt [Inhabited α] (lt : α → α → Bool) (v : Array α) :
    ∀ n a b c, 0 < n → median3Rec lt v a b c n < max a (max b c) + n := by
  intro n
  induction n using Nat.strongRecOn with
  | ind n ih =>
    intro a b c hn
    rw [median3Rec]
    dsimp only
    split
    · rename_i h64
      have hn8 : 0 < n / 8 := by omega
      have ha := ih (n / 8) (by omega) a (a + n / 8 * 4) (a + n / 8 * 7) hn8
      have hb := ih (n / 8) (by omega) b (b + n / 8 * 4) (b + n / 8 * 7) hn8
      have hc := ih (n / 8) (by omega) c (c + n / 8 * 4) (c + n / 8 * 7) hn8
      have := median3_le lt v (median3Rec lt v a (a + n / 8 * 4) (a + n / 8 * 7) (n / 8))
        (median3Rec lt v b (b + n / 8 * 4) (b + n / 8 * 7) (n / 8))
        (median3Rec lt v c (c + n / 8 * 4) (c + n / 8 * 7) (n / 8))
      omega
    · have := median3_le lt v a b c
      omega

theorem choosePivot_lt [Inhabited α] (lt : α → α → Bool) {v : Array α} (h : 32 < v.size) :
    choosePivot lt v < v.size := by
  simp only [choosePivot]
  split
  · have := median3_le lt v 0 (v.size / 8 * 4) (v.size / 8 * 7)
    omega
  · have := median3Rec_lt lt v (v.size / 8) 0 (v.size / 8 * 4) (v.size / 8 * 7) (by omega)
    omega

/-- The length of the run continuing after `p`: elements as long as `keep` holds between each
and the one before it. -/
def runLength (keep : α → α → Bool) : α → List α → Nat
  | _, [] => 0
  | p, x :: xs => if keep p x then 1 + runLength keep x xs else 0

def findRun (lt : α → α → Bool) : List α → Nat × Bool
  | x :: y :: rest =>
    if lt y x then (2 + runLength (fun p x => lt x p) y rest, true)
    else (2 + runLength (fun p x => !lt x p) y rest, false)
  | v => (v.length, false)

/-- The depth wanted for the merge of the neighbouring runs `[l, m)` and `[m, r)`: the leading
zeros, in 64 bits, of the scaled midpoints' difference. -/
def mergeTreeDepth (l m r scale : Nat) : Nat :=
  let z := (scale * (l + m)) ^^^ (scale * (m + r))
  if z = 0 then 64 else 63 - Nat.log2 z

def sqrtApprox (n : Nat) : Nat :=
  let shift := (1 + Nat.log2 (n ||| 1)) / 2
  ((1 <<< shift) + (n >>> shift)) / 2

/-- A stretch of elements, in order or not yet sorted. -/
structure Run (α : Type) where
  elems : List α
  sorted : Bool

/-- How the next run at the start of `rest` is cut: its length, and `some descending` for an
existing run of at least `good` elements; otherwise (`none`) the next 32 elements in eager mode,
or the next `good` ones. -/
def runShape (lt : α → α → Bool) (good : Nat) (eager : Bool) (rest : List α) : Nat × Option Bool :=
  let found := if good ≤ rest.length then findRun lt rest else (0, false)
  if good ≤ found.1 then (found.1, some found.2)
  else if eager then (min 32 rest.length, none)
  else (min good rest.length, none)

theorem findRun_pos (lt : α → α → Bool) : ∀ {rest : List α}, rest ≠ [] → 0 < (findRun lt rest).1
  | [], h => absurd rfl h
  | [_], _ => by simp [findRun]
  | _ :: _ :: _, _ => by simp only [findRun]; split <;> omega

theorem runShape_pos (lt : α → α → Bool) (good : Nat) (eager : Bool) {rest : List α}
    (h : rest ≠ []) : 0 < (runShape lt good eager rest).1 := by
  have hlen : 0 < rest.length := List.length_pos_iff.2 h
  have hfind := findRun_pos lt h
  simp only [runShape]
  by_cases hgood : good ≤ rest.length
  · simp only [hgood, if_true]
    split
    · exact hfind
    · split <;> omega
  · simp only [hgood, if_false]
    split
    · omega
    · split <;> omega

/-- The run of the first elements of `rest` with the given shape: an existing run put in order,
or a stretch, sorted at once in eager mode. -/
def takeRun [Inhabited α] (lt : α → α → Bool) (eager : Bool) (rest : List α)
    (shape : Nat × Option Bool) : Except Fault (Run α) :=
  let run := rest.take shape.1
  match shape.2 with
  | some descending => .ok ⟨if descending then run.reverse else run, true⟩
  | none =>
    if eager then do
      let sorted ← smallSort lt run
      pure ⟨sorted, true⟩
    else .ok ⟨run, false⟩

def joinSorted (lt : α → α → Bool) (l r : Run α) : Run α := ⟨mergeRuns lt l.elems r.elems, true⟩

/-- Joins two neighbouring runs: two unsorted stretches stay one unsorted stretch; otherwise the
unsorted one is sorted by `sortStretch` and the two are merged. -/
def joinRuns (lt : α → α → Bool) (sortStretch : List α → Except Fault (List α)) (l r : Run α) :
    Except Fault (Run α) :=
  if l.sorted || r.sorted then do
    let ls ← if l.sorted then pure l.elems else sortStretch l.elems
    let rs ← if r.sorted then pure r.elems else sortStretch r.elems
    pure ⟨mergeRuns lt ls rs, true⟩
  else pure ⟨l.elems ++ r.elems, false⟩

/-- Joins `prev` with the runs on top of the stack while their depth is at least `depth`; the
bottom entry of the stack is never joined. -/
def collapse (join : Run α → Run α → Except Fault (Run α)) :
    List (Run α × Nat) → Run α → Nat → Except Fault (List (Run α × Nat) × Run α)
  | [], prev, _ => .ok ([], prev)
  | (left, d) :: rest, prev, depth =>
    if rest.isEmpty || d < depth then .ok ((left, d) :: rest, prev)
    else do
      let merged ← join left prev
      collapse join rest merged depth

/-- Cuts runs off `rest` one by one, joining the runs on the stack whose merge node lies deeper
than the one before the new run; at the end everything is joined into one run. -/
def scanRuns [Inhabited α] (lt : α → α → Bool) (join : Run α → Run α → Except Fault (Run α))
    (scale good : Nat) (eager : Bool) (stack : List (Run α × Nat)) (prev : Run α) (scan : Nat)
    (rest : List α) : Except Fault (Run α) :=
  match rest with
  | [] => do
    let (_, prev) ← collapse join stack prev 0
    pure prev
  | x :: xs => do
    let shape := runShape lt good eager (x :: xs)
    let next ← takeRun lt eager (x :: xs) shape
    let depth := mergeTreeDepth (scan - prev.elems.length) scan (scan + next.elems.length) scale
    let (stack, prev) ← collapse join stack prev depth
    scanRuns lt join scale good eager ((prev, depth) :: stack) next (scan + next.elems.length)
      ((x :: xs).drop shape.1)
termination_by rest.length
decreasing_by
  have := runShape_pos lt good eager (List.cons_ne_nil x xs)
  simp only [List.length_drop, List.length_cons]
  omega

def mergeAllRuns [Inhabited α] (lt : α → α → Bool) (join : Run α → Run α → Except Fault (Run α))
    (eager : Bool) (v : List α) : Except Fault (Run α) :=
  let n := v.length
  let scale := (4611686018427387904 + n - 1) / n
  let good := if n ≤ 4096 then min (n - n / 2) 64 else sqrtApprox n
  scanRuns lt join scale good eager [] ⟨[], true⟩ 0 v

/-- The run-merging sort in eager mode: every run is sorted as it is cut, so the runs are
joined by merging. -/
def driftEager [Inhabited α] (lt : α → α → Bool) (v : List α) : Except Fault (List α) :=
  if v.length < 2 then .ok v
  else do
    let last ← mergeAllRuns lt (fun l r => .ok (joinSorted lt l r)) true v
    pure last.elems

-- `hsmall` and `hrep` are read by the termination proof only
set_option linter.unusedVariables false in
/-- Stable quicksort with `limit` partitions left before the fallback; `ancestor` is the pivot
of the enclosing partition on the right of which this stretch lies. -/
def quick [Inhabited α] (lt : α → α → Bool) (v : List α) (limit : Nat) (ancestor : Option α) :
    Except Fault (List α) :=
  if hsmall : v.length ≤ 32 then smallSort lt v
  else if limit = 0 then driftEager lt v
  else
    let p := choosePivot lt v.toArray
    let pv := v.toArray.getD p default
    let repeated := match ancestor with
      | some a => !lt a pv
      | none => false
    let below := partition v p false (fun x => lt x pv)
    if hrep : repeated || below.1.isEmpty then do
      let atMost := partition v p true (fun x => !lt pv x)
      let r ← quick lt atMost.2 (limit - 1) none
      pure (atMost.1 ++ r)
    else do
      let r ← quick lt below.2 (limit - 1) (some pv)
      let l ← quick lt below.1 (limit - 1) ancestor
      pure (l ++ r)
termination_by v.length
decreasing_by
  all_goals
    have hp : p < v.length := choosePivot_lt lt (v := v.toArray) (by simp only [List.size_toArray]; omega)
  · exact partition_length_lt hp true (fun x => !lt pv x)
  · have hadd := partition_length_add v (choosePivot lt v.toArray) false
      (fun x => lt x (v.toArray.getD (choosePivot lt v.toArray) default))
    simp only [Bool.or_eq_true, List.isEmpty_iff, not_or] at hrep
    have hne : 0 < (partition v (choosePivot lt v.toArray) false
        (fun x => lt x (v.toArray.getD (choosePivot lt v.toArray) default))).1.length :=
      List.length_pos_iff.2 hrep.2
    omega
  · exact partition_length_lt hp false (fun x => lt x pv)

/-- The run-merging sort in lazy mode: stretches stay unsorted until they are joined with a
sorted run, and are then sorted by the quicksort. -/
def driftLazy [Inhabited α] (lt : α → α → Bool) (v : List α) : Except Fault (List α) :=
  if v.length < 2 then .ok v
  else do
    let sortStretch := fun w : List α => quick lt w (2 * Nat.log2 (w.length ||| 1)) none
    let last ← mergeAllRuns lt (joinRuns lt sortStretch) false v
    if last.sorted then pure last.elems
    else quick lt last.elems (2 * Nat.log2 (v.length ||| 1)) none

def sortBy [Inhabited α] (lt : α → α → Bool) (v : List α) : Except Fault (List α) :=
  if v.length ≤ 20 then .ok (insertionSort lt v)
  else if v.length ≤ 64 then driftEager lt v
  else driftLazy lt v

end Sorting

end ClusterScheduler
