import ClusterScheduler.Binary64.Basic

/-!
# JSON values

A number is an integer when its text is an integer literal within the 64-bit ranges (unsigned
for a non-negative literal, signed for a negative one), and otherwise the nearest double; `-0`
is the double `-0.0`. An object keeps its members sorted by key with one member per key: a
later member of the same key replaces an earlier one, as reading into a map does.
-/

namespace ClusterScheduler

/-- A JSON number: an integer literal, or the double a decimal reads as. -/
inductive Number where
  | int (n : Int)
  | float (x : Binary64)
  deriving DecidableEq, Repr, Inhabited

inductive Json where
  | null
  | bool (b : Bool)
  | num (n : Number)
  | str (s : String)
  | arr (items : List Json)
  | obj (members : List (String × Json))
  deriving Repr, Inhabited

namespace Json

def insertMember (k : String) (v : Json) : List (String × Json) → List (String × Json)
  | [] => [(k, v)]
  | (k', v') :: rest =>
    if k = k' then (k, v) :: rest
    else if k < k' then (k, v) :: (k', v') :: rest
    else (k', v') :: insertMember k v rest

def object (members : List (String × Json)) : Json :=
  .obj (members.foldl (fun acc (k, v) => insertMember k v acc) [])

def get? (j : Json) (k : String) : Option Json :=
  match j with
  | .obj ms => ms.lookup k
  | _ => none

def field? (j : Json) (k : String) : Option Json :=
  match j.get? k with
  | some .null => none
  | v => v

def asInt? : Json → Option Int
  | .num (.int n) => some n
  | _ => none

def asFloat? : Json → Option Binary64
  | .num (.float x) => some x
  | .num (.int n) => some (Binary64.ofInt n)
  | _ => none

def asStr? : Json → Option String
  | .str s => some s
  | _ => none

def asBool? : Json → Option Bool
  | .bool b => some b
  | _ => none

def asArr? : Json → Option (List Json)
  | .arr xs => some xs
  | _ => none

def asObj? : Json → Option (List (String × Json))
  | .obj ms => some ms
  | _ => none

def int (n : Int) : Json := .num (.int n)

def opt {α : Type} (f : α → Json) : Option α → Json
  | some a => f a
  | none => .null

end Json

end ClusterScheduler
