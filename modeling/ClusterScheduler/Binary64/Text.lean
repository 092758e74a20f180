import ClusterScheduler.Binary64.Basic

/-!
# Decimal text of doubles

`shortest` finds the fewest significant digits that read back as the same double: the reals
that round to `x` form an interval around it (its ends included when the significand is even),
and for 1, 2, … 17 digits the two neighbours of `x` on that decimal grid are tested; the first
grid with a hit wins, and of two hits the nearer, a tie going to the even digit string. Two
printers lay out those digits: `layoutText` (exponent notation outside `1e-5 .. 1e16`, and always
a fraction part in positional form) and `fixed` (a fixed number of places, rounded half to even
on the exact value).
-/

namespace ClusterScheduler

namespace Binary64

def cmpScaled (a : Nat) (k : Int) (b : Nat) (e : Int) : Ordering :=
  let lhs := a * Nat.pow 10 k.toNat * Nat.pow 2 (-e).toNat
  let rhs := b * Nat.pow 2 e.toNat * Nat.pow 10 (-k).toNat
  compare lhs rhs

def floorScaled (b : Nat) (e : Int) (k : Int) : Nat :=
  (b * Nat.pow 2 e.toNat * Nat.pow 10 (-k).toNat) / (Nat.pow 2 (-e).toNat * Nat.pow 10 k.toNat)

/-- The decimal exponent `E` with `10^E ≤ b · 2^e < 10^(E+1)`, for `b > 0`, from an estimate by
bit length corrected by exact comparison. -/
def decExp (b : Nat) (e : Int) : Int :=
  let bits : Int := (Nat.log2 b : Int) + e
  let guess : Int := (bits * 30103) / 100000
  let ok (E : Int) : Bool :=
    cmpScaled 1 E b e != .gt && cmpScaled 1 (E + 1) b e == .gt
  let rec search (fuel : Nat) (E : Int) : Int :=
    match fuel with
    | 0 => E
    | fuel + 1 =>
      if ok E then E
      else if cmpScaled 1 E b e == .gt then search fuel (E - 1) else search fuel (E + 1)
  search 8 guess

def stripZeros (d : Nat) (k : Int) (fuel : Nat) : Nat × Int :=
  match fuel with
  | 0 => (d, k)
  | fuel + 1 => if d ≠ 0 ∧ d % 10 = 0 then stripZeros (d / 10) (k + 1) fuel else (d, k)

def shortest (x : Binary64) : Nat × Int :=
  let e2 := x.exp - 2
  let v := 4 * x.mant
  let hi := v + 2
  let lo := if x.mant = Nat.pow 2 52 ∧ minExp < x.exp then v - 1 else v - 2
  let closed := x.mant % 2 = 0
  let inside (c : Nat) (k : Int) : Bool :=
    let above := cmpScaled c k lo e2
    let below := cmpScaled c k hi e2
    if closed then above != .lt && below != .gt else above == .gt && below == .lt
  let E := decExp v e2
  let rec tryDigits (n : Nat) (fuel : Nat) : Nat × Int :=
    match fuel with
    | 0 => (floorScaled v e2 (E - 16), E - 16)
    | fuel + 1 =>
      let k : Int := E - n + 1
      let c := floorScaled v e2 k
      let inLo := inside c k
      let inHi := inside (c + 1) k
      if inLo && inHi then
        -- the nearer of the two; a tie goes to the even digit string
        match cmpScaled (2 * c + 1) k (2 * v) e2 with
        | .gt => (c, k)
        | .lt => (c + 1, k)
        | .eq => if c % 2 = 0 then (c, k) else (c + 1, k)
      else if inLo then (c, k)
      else if inHi then (c + 1, k)
      else tryDigits (n + 1) fuel
  let (d, k) := tryDigits 1 17
  stripZeros d k 400

def digitsOf (n : Nat) : List Char := (Nat.repr n).toList

def zeros (n : Nat) : List Char := List.replicate n '0'

/-- Positional text with a fraction part when the decimal point falls within 16 digits of the
first one (and at most 5 zeros after the point), exponent notation otherwise; `plusSign` says
whether a non-negative exponent is written with a `+`. -/
def layoutText (plusSign : Bool) (x : Binary64) : String :=
  let sign := if x.neg then "-" else ""
  if x.isZero then sign ++ "0.0"
  else
    let (d, k) := x.shortest
    let ds := digitsOf d
    let len : Int := ds.length
    let kk := len + k
    let body : List Char :=
      if 0 ≤ k ∧ kk ≤ 16 then ds ++ zeros k.toNat ++ ['.', '0']
      else if 0 < kk ∧ kk ≤ 16 then ds.take kk.toNat ++ '.' :: ds.drop kk.toNat
      else if -5 < kk ∧ kk ≤ 0 then '0' :: '.' :: zeros (-kk).toNat ++ ds
      else
        let expo := digitsOf (kk - 1).natAbs
        let expo := if kk - 1 < 0 then '-' :: expo else if plusSign then '+' :: expo else expo
        match ds with
        | [c] => c :: 'e' :: expo
        | c :: rest => c :: '.' :: rest ++ 'e' :: expo
        | [] => ['0']
    sign ++ String.ofList body

def jsonText (x : Binary64) : String := layoutText false x

def messageText (x : Binary64) : String := layoutText true x

/-- Positional text with exactly `places` digits after the point, the exact value rounded half
to even; a negative value keeps its sign even when it rounds to zero. -/
def fixed (x : Binary64) (places : Nat) : String :=
  let sign := if x.neg then "-" else ""
  let (n, d) := x.ratio
  let q := roundHalfEven (n * Nat.pow 10 places) d
  let ds := digitsOf q
  let ds := zeros (places + 1 - ds.length) ++ ds
  let intPart := ds.take (ds.length - places)
  let frac := ds.drop (ds.length - places)
  sign ++ String.ofList (if places = 0 then intPart else intPart ++ '.' :: frac)

end Binary64

end ClusterScheduler
