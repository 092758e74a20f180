import ClusterScheduler.Fault

/-!
# Machine words

Times, job ids and walltimes are 64-bit signed integers, slot ids 32-bit signed ones and counts
32-bit unsigned ones. Values are kept as `Int`; an operation whose exact result leaves the range
of its word is a fault instead of a wrapped value.
-/

namespace ClusterScheduler

/-- The closed range of values of a machine integer. -/
structure Word where
  lo : Int
  hi : Int

namespace Word

def i64 : Word := ⟨-9223372036854775808, 9223372036854775807⟩
def i32 : Word := ⟨-2147483648, 2147483647⟩
def u32 : Word := ⟨0, 4294967295⟩
def u64 : Word := ⟨0, 18446744073709551615⟩

def holds (w : Word) (x : Int) : Bool := decide (w.lo ≤ x ∧ x ≤ w.hi)

def add (w : Word) (a b : Int) : Except Fault Int :=
  if w.holds (a + b) then .ok (a + b) else .error .addOverflow

def sub (w : Word) (a b : Int) : Except Fault Int :=
  if w.holds (a - b) then .ok (a - b) else .error .subOverflow

theorem add_ok {w : Word} {a b : Int} (h : w.lo ≤ a + b ∧ a + b ≤ w.hi) :
    w.add a b = .ok (a + b) := by
  simp [add, holds, h]

theorem sub_ok {w : Word} {a b : Int} (h : w.lo ≤ a - b ∧ a - b ≤ w.hi) :
    w.sub a b = .ok (a - b) := by
  simp [sub, holds, h]

end Word

def digitsValue (ds : List Char) : Option Nat :=
  if ds.isEmpty ∨ !(ds.all Char.isDigit) then none
  else some (ds.foldl (fun n d => n * 10 + (d.toNat - 48)) 0)

/-- Reads a value of the word from decimal text: an optional `+` or `-`, then at least one
digit and nothing else. -/
def Word.parse (w : Word) (cs : List Char) : Option Int :=
  let (neg, ds) := match cs with
    | '-' :: rest => (true, rest)
    | '+' :: rest => (false, rest)
    | _ => (false, cs)
  match digitsValue ds with
  | some n =>
    let v : Int := if neg then -(n : Int) else n
    if w.holds v then some v else none
  | none => none

def maxI64 : Int := 9223372036854775807

end ClusterScheduler
