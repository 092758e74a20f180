/-!
# Binary64 values

A finite IEEE 754 double is `(-1)^neg · mant · 2^exp` with `mant < 2^53` and `exp ≥ -1074`.
Values are built by `ofRatio`, which rounds a non-negative fraction to the nearest double, a tie
going to the even significand, and gives `none` past the largest finite double. Arithmetic on
doubles is exact arithmetic on fractions followed by that rounding, which is what IEEE 754
prescribes for a single operation. A `Double` is any value of the type, infinities and NaNs
included, ordered by the total order of IEEE 754.
-/

namespace ClusterScheduler

/-- A finite double: sign, significand and binary exponent. -/
structure Binary64 where
  neg : Bool
  mant : Nat
  exp : Int
  deriving DecidableEq, Repr, Inhabited

namespace Binary64

def minExp : Int := -1074

def maxExp : Int := 971

def scaled (a : Nat) (e : Int) : Nat × Nat :=
  if 0 ≤ e then (a * Nat.pow 2 e.toNat, 1) else (a, Nat.pow 2 (-e).toNat)

def roundHalfEven (num den : Nat) : Nat :=
  let q := num / den
  let r := num % den
  if 2 * r < den then q
  else if den < 2 * r then q + 1
  else if q % 2 = 0 then q else q + 1

/-- The binary exponent `e` for which `num / den · 2^-e` lies in `[2^52, 2^53)`, found from the
bit lengths and corrected by exact comparison. -/
def normalExp (num den : Nat) : Int :=
  let guess : Int := (Nat.log2 num : Int) - (Nat.log2 den : Int) - 52
  let fits (e : Int) : Bool :=
    let (n, d) := scaled num (-e)
    decide (Nat.pow 2 52 * d * den ≤ n ∧ n < Nat.pow 2 53 * d * den)
  let below (e : Int) : Bool :=
    let (n, d) := scaled num (-e)
    decide (n < Nat.pow 2 52 * d * den)
  if fits guess then guess
  else if fits (guess - 1) then guess - 1
  else if fits (guess + 1) then guess + 1
  else if below guess then guess - 2 else guess + 2

/-- The double nearest to `num / den` (with sign `neg`), or `none` when it is past the largest
finite double. A zero fraction gives a zero of the given sign. -/
def ofRatio (neg : Bool) (num den : Nat) : Option Binary64 :=
  if num = 0 ∨ den = 0 then some ⟨neg, 0, minExp⟩
  else
    let e := max (normalExp num den) minExp
    let (n, d) := scaled num (-e)
    let m := roundHalfEven n (d * den)
    let (m, e) := if m = Nat.pow 2 53 then (Nat.pow 2 52, e + 1) else (m, e)
    if maxExp < e then none else some ⟨neg, m, e⟩

def ratio (x : Binary64) : Nat × Nat := scaled x.mant x.exp

def isZero (x : Binary64) : Bool := x.mant = 0

def zero : Binary64 := ⟨false, 0, minExp⟩

def ofInt (n : Int) : Binary64 :=
  (ofRatio (decide (n < 0)) n.natAbs 1).getD zero

def divNat (x : Binary64) (d : Nat) : Binary64 :=
  let (n, den) := x.ratio
  (ofRatio x.neg n (den * d)).getD zero

def cmpMagnitude (x y : Binary64) : Ordering :=
  let (a, b) := x.ratio
  let (c, d) := y.ratio
  compare (a * d) (c * b)

/-- The total order of IEEE 754 on finite values: a negative value, `-0.0` included, is below
every positive one, and magnitudes order the rest. -/
def totalCmp (x y : Binary64) : Ordering :=
  match x.neg, y.neg with
  | true, false => .lt
  | false, true => .gt
  | false, false => cmpMagnitude x y
  | true, true => cmpMagnitude y x

end Binary64

/-- A double as `f64` holds it: a finite value, an infinity, or a NaN, which keeps its sign and
the 52 bits of its significand. -/
inductive Double where
  | finite (x : Binary64)
  | infinite (neg : Bool)
  | nan (neg : Bool) (payload : Nat)
  deriving DecidableEq, Repr

namespace Double

instance : Inhabited Double := ⟨.finite Binary64.zero⟩

def zero : Double := .finite Binary64.zero

/-- The class of a value in the total order: negative NaNs, negative infinity, the finite values,
positive infinity, positive NaNs. -/
def classRank : Double → Nat
  | .nan true _ => 0
  | .infinite true => 1
  | .finite _ => 2
  | .infinite false => 3
  | .nan false _ => 4

def finitePart : Double → Binary64
  | .finite x => x
  | _ => Binary64.zero

/-- The significand bits of a NaN as they order the NaNs of its sign, a negative NaN lying lower
the larger its bits; zero for the other classes. -/
def nanKey : Double → Int
  | .nan true p => -(p : Int)
  | .nan false p => p
  | _ => 0

/-- The total order of `f64::total_cmp`, which is IEEE 754's totalOrder: by class, the finite
values by `Binary64.totalCmp`, and the NaNs of one sign by their significand bits. -/
def totalCmp (x y : Double) : Ordering :=
  (compare x.classRank y.classRank).then
    ((Binary64.totalCmp x.finitePart y.finitePart).then (compare x.nanKey y.nanKey))

end Double

end ClusterScheduler
