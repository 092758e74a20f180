import ClusterScheduler.Json.Read
import ClusterScheduler.Word

/-!
# Reading records of a known shape

A `Shape` describes the records that the scheduler reads: integers of given widths, doubles,
flags, strings, optional values, sequences, pairs, string maps, names from a fixed list and
records with fields. A shape is read either straight from text (`Shape.readText`), where values
are checked in the order they appear and a failure gets the place where reading stopped, or
from a JSON value (`Shape.readValue`), where members are checked in key order and failures have
no place. Both give the value checked against the shape, with missing fields given their
default.

The rules of records: a member whose key is not a field is skipped (only its form is checked), a
field given twice fails, and after the closing brace the first missing field in declaration
order without a default fails, a missing optional field being `null`. A record may also be
written as an array of its fields in declaration order.
-/

namespace ClusterScheduler

namespace Json

/-- The shape of a value to read. A record field carries its name, its shape and its default
(`none` when the field is required). -/
inductive Shape where
  | i64 | i32 | u32 | usize | f64 | bool | string
  | option (s : Shape)
  | seq (s : Shape)
  | pair (a b : Shape)
  | strMap (v : Shape)
  | names (variants : List String)
  | record (name : String) (fields : List (String × Shape × Option Json))
  deriving Inhabited

namespace Shape

def expecting : Shape → String
  | .i64 => "i64"
  | .i32 => "i32"
  | .u32 => "u32"
  | .usize => "usize"
  | .f64 => "f64"
  | .bool => "a boolean"
  | .string => "a string"
  | .option _ => "option"
  | .seq _ => "a sequence"
  | .pair _ _ => "a tuple of size 2"
  | .strMap _ => "a map"
  | .names _ => "variant identifier"
  | .record n _ => "struct " ++ n

def word? : Shape → Option Word
  | .i64 => some Word.i64
  | .i32 => some Word.i32
  | .u32 => some Word.u32
  | .usize => some Word.u64
  | _ => none

def unexpectedNumber : Number → Unexpected
  | .int n => if 0 ≤ n then .unsigned n.toNat else .signed n
  | .float x => .float x

def acceptNumber (s : Shape) (n : Number) : Except Problem Json :=
  match s, n with
  | .f64, .int k => .ok (.num (.float (Binary64.ofInt k)))
  | .f64, .float x => .ok (.num (.float x))
  | s, .int k =>
    match s.word? with
    | some w => if w.holds k then .ok (.int k) else .error (.invalidValue (unexpectedNumber n) s.expecting)
    | none => .error (.invalidType (unexpectedNumber n) s.expecting)
  | s, .float x => .error (.invalidType (.float x) s.expecting)

def missing (field : String) (s : Shape) (default : Option Json) : Except Problem Json :=
  match default, s with
  | some d, _ => .ok d
  | none, .option _ => .ok .null
  | none, _ => .error (.missingField field)

/-! ## From a JSON value -/

def unexpectedValue : Json → Unexpected
  | .null => .unit
  | .bool b => .bool b
  | .num n => unexpectedNumber n
  | .str s => .str s
  | .arr _ => .seq
  | .obj _ => .map

mutual

def readValue (fuel : Nat) (s : Shape) (v : Json) : Except Problem Json :=
  match fuel with
  | 0 => .error (.malformed .recursionLimit)
  | fuel + 1 =>
    match s, v with
    | .option _, .null => .ok .null
    | .option inner, v => readValue fuel inner v
    | .bool, .bool b => .ok (.bool b)
    | .string, .str t => .ok (.str t)
    | s, .num n =>
      match s with
      | .i64 | .i32 | .u32 | .usize | .f64 | .bool | .string | .seq _ | .pair _ _ | .strMap _
      | .record _ _ => acceptNumber s n
      | _ => .error (.invalidType (unexpectedNumber n) "string or map")
    | .seq inner, .arr items => (items.mapM (readValue fuel inner)).map .arr
    | .pair a b, .arr items =>
      match items with
      | [] => .error (.invalidLength 0 "a tuple of size 2")
      | [x] => do let _ ← readValue fuel a x; .error (.invalidLength 1 "a tuple of size 2")
      | [x, y] => do pure (.arr [← readValue fuel a x, ← readValue fuel b y])
      | x :: y :: _ => do
        let _ ← readValue fuel a x
        let _ ← readValue fuel b y
        .error (.invalidLength items.length "fewer elements in array")
    | .strMap inner, .obj ms => do
      let ms ← ms.mapM fun (k, x) => do pure (k, ← readValue fuel inner x)
      pure (.obj ms)
    | .names vs, .str t => if vs.contains t then .ok (.str t) else .error (.unknownVariant t vs)
    | .names vs, .obj ms =>
      match ms with
      | [(t, x)] =>
        if vs.contains t then
          match x with
          | .null => .ok (.str t)
          | x => .error (.invalidType (unexpectedValue x) "unit")
        else .error (.unknownVariant t vs)
      | _ => .error (.invalidValue .map "map with a single key")
    | .names _, v => .error (.invalidType (unexpectedValue v) "string or map")
    | .record _ fields, .obj ms => do
      let vals ← readFields fuel fields ms
      pure (.obj vals)
    | .record name fields, .arr items => do
      let vals ← readPositional fuel name fields.length 0 fields items
      if vals.2 < items.length then
        .error (.invalidLength items.length "fewer elements in array")
      else pure (.obj vals.1)
    | s, v => .error (.invalidType (unexpectedValue v) s.expecting)

def readFields (fuel : Nat) (fields : List (String × Shape × Option Json))
    (ms : List (String × Json)) : Except Problem (List (String × Json)) := do
  -- members are visited in key order, then missing fields are filled in declaration order
  let found ← ms.filterMapM fun (k, x) =>
    match fields.lookup k with
    | some (s, _) => do pure (some (k, ← readValue fuel s x))
    | none => pure none
  fields.mapM fun (name, s, d) =>
    match found.lookup name with
    | some x => pure (name, x)
    | none => do pure (name, ← missing name s d)

/-- Reads the fields of a record from the items of an array, in declaration order; gives the
fields and the number of items used. A missing item takes the field's default; a missing item
of a field without one fails with the field's index. -/
def readPositional (fuel : Nat) (name : String) (count : Nat) (index : Nat)
    (fields : List (String × Shape × Option Json)) (items : List Json) :
    Except Problem (List (String × Json) × Nat) :=
  match fields, items with
  | [], _ => .ok ([], 0)
  | (f, _, d) :: rest, [] =>
    match d with
    | some x => do
      let (vals, n) ← readPositional fuel name count (index + 1) rest []
      pure ((f, x) :: vals, n)
    | none => .error (.invalidLength index s!"struct {name} with {count} elements")
  | (f, s, _) :: rest, x :: more => do
    let v ← readValue fuel s x
    let (vals, n) ← readPositional fuel name count (index + 1) rest more
    pure ((f, v) :: vals, n + 1)

end

/-! ## From text -/

/-- Fails with a value of the wrong kind found in the text, read whole first when it is a
scalar; the failure is placed where reading stopped. -/
def foundInstead {α : Type} (expected : String) : Reading α := do
  match ← peek with
  | some 110 => eat; literal [117, 108, 108]; throw { problem := .invalidType .unit expected }
  | some 116 => eat; literal [114, 117, 101]; throw { problem := .invalidType (.bool true) expected }
  | some 102 =>
    eat; literal [97, 108, 115, 101]; throw { problem := .invalidType (.bool false) expected }
  | some 45 => eat; let n ← number false; throw { problem := .invalidType (unexpectedNumber n) expected }
  | some 34 => eat; let t ← stringBody; throw { problem := .invalidType (.str t) expected }
  | some 91 => throw { problem := .invalidType .seq expected }
  | some 123 => throw { problem := .invalidType .map expected }
  | some b =>
    if isDigit b then do let n ← number true; throw { problem := .invalidType (unexpectedNumber n) expected }
    else syntaxAhead .expectedValue
  | none => syntaxAhead .expectedValue

def check {α : Type} (r : Except Problem α) : Reading α :=
  match r with
  | .ok a => pure a
  | .error p => throw { problem := p }

def thenClose {α : Type} (body : Reading α) (close : Reading Unit) : Reading α := fun c =>
  match body c with
  | .ok a c' =>
    match close c' with
    | .ok _ c'' => .ok a c''
    | .error e c'' => .error e c''
  | .error e c' =>
    match close c' with
    | .ok _ c'' => .error e c''
    | .error _ c'' => .error e c''

def readName (vs : List String) : Reading Json := placed do
  match ← skipSpace with
  | some 34 =>
    eat
    let t ← stringBody
    check (if vs.contains t then .ok (.str t) else .error (.unknownVariant t vs))
  | none => syntaxAhead .eofValue
  | some _ => foundInstead "variant identifier"

mutual

def readText (fuel : Nat) (s : Shape) : Reading Json :=
  match fuel with
  | 0 => syntaxAhead .recursionLimit
  | fuel + 1 =>
    match s with
    | .option inner => do
      match ← skipSpace with
      | some 110 => eat; literal [117, 108, 108]; pure .null
      | _ => readText fuel inner
    | .names vs => do
      match ← skipSpace with
      | some 34 => readName vs
      | some 123 => do
        enter
        let v ← (do
          let v ← readName vs
          colon
          placed do
            match ← skipSpace with
            | some 110 => eat; literal [117, 108, 108]
            | none => syntaxAhead .eofValue
            | some _ => foundInstead "unit"
          pure v)
        leave
        match ← skipSpace with
        | some 125 => eat; pure v
        | some _ => syntaxHere .expectedValue
        | none => syntaxHere .eofObject
      | some _ => syntaxAhead .expectedValue
      | none => syntaxAhead .eofValue
    | s => placed do
      match ← skipSpace with
      | none => syntaxAhead .eofValue
      | some b =>
        if b == 45 || isDigit b then
          match s with
          | .i64 | .i32 | .u32 | .usize | .f64 => do
            if b == 45 then eat
            let n ← number (b != 45)
            check (acceptNumber s n)
          | _ => foundInstead s.expecting
        else if b == 116 || b == 102 then
          match s with
          | .bool => do
            eat
            if b == 116 then do literal [114, 117, 101]; pure (.bool true)
            else do literal [97, 108, 115, 101]; pure (.bool false)
          | _ => foundInstead s.expecting
        else if b == 34 then
          match s with
          | .string => do eat; pure (.str (← stringBody))
          | _ => foundInstead s.expecting
        else if b == 91 then
          match s with
          | .seq inner => do
            enter
            thenClose (do let xs ← readItems fuel inner true [] (← get).bytes.size; leave; pure (.arr xs))
              endSeq
          | .pair a b => do
            enter
            thenClose (do
                if !(← nextItem true) then check (.error (.invalidLength 0 "a tuple of size 2"))
                let x ← readText fuel a
                if !(← nextItem false) then check (.error (.invalidLength 1 "a tuple of size 2"))
                let y ← readText fuel b
                leave
                pure (.arr [x, y]))
              endSeq
          | .record name fields => do
            enter
            thenClose (do
                let vals ← readSeqFields fuel name fields.length true fields
                leave
                pure (.obj vals))
              endSeq
          | _ => foundInstead s.expecting
        else if b == 123 then
          match s with
          | .strMap inner => do
            enter
            thenClose (do
                let ms ← readMembers fuel inner true [] (← get).bytes.size
                leave
                pure (object ms))
              endMap
          | .record _ fields => do
            enter
            thenClose (do
                let found ← readKeyed fuel fields true [] (← get).bytes.size
                leave
                let vals ← check (fields.mapM fun (name, s, d) =>
                  match found.lookup name with
                  | some x => .ok (name, x)
                  | none => do pure (name, ← missing name s d))
                pure (.obj vals))
              endMap
          | _ => foundInstead s.expecting
        else foundInstead s.expecting
termination_by (fuel, 0)

def readItems (fuel : Nat) (s : Shape) (first : Bool) (acc : List Json) (steps : Nat) :
    Reading (List Json) :=
  match steps with
  | 0 => pure acc.reverse
  | steps + 1 => do
    if ← nextItem first then
      let x ← readText fuel s
      readItems fuel s false (x :: acc) steps
    else pure acc.reverse
termination_by (fuel, steps + 1)

def readMembers (fuel : Nat) (s : Shape) (first : Bool) (acc : List (String × Json))
    (steps : Nat) : Reading (List (String × Json)) :=
  match steps with
  | 0 => pure acc.reverse
  | steps + 1 => do
    match ← nextKey first with
    | none => pure acc.reverse
    | some k =>
      colon
      let x ← readText fuel s
      readMembers fuel s false ((k, x) :: acc) steps
termination_by (fuel, steps + 1)

def readKeyed (fuel : Nat) (fields : List (String × Shape × Option Json)) (first : Bool)
    (acc : List (String × Json)) (steps : Nat) : Reading (List (String × Json)) :=
  match steps with
  | 0 => pure acc
  | steps + 1 => do
    match ← nextKey first with
    | none => pure acc
    | some k =>
      match fields.lookup k with
      | some (s, _) =>
        if (acc.lookup k).isSome then check (.error (.duplicateField k))
        else do
          colon
          let x ← readText fuel s
          readKeyed fuel fields false ((k, x) :: acc) steps
      | none => do
        colon
        skipValue
        readKeyed fuel fields false acc steps
termination_by (fuel, steps + 1)

def readSeqFields (fuel : Nat) (name : String) (count : Nat) (first : Bool)
    (fields : List (String × Shape × Option Json)) : Reading (List (String × Json)) :=
  match fields with
  | [] => pure []
  | (f, s, d) :: rest => do
    if ← nextItem first then
      let x ← readText fuel s
      let more ← readSeqFields fuel name count false rest
      pure ((f, x) :: more)
    else
      match d with
      | some x => do
        let more ← readSeqFields fuel name count first rest
        pure ((f, x) :: more)
      | none =>
        check (.error (.invalidLength (count - (rest.length + 1)) s!"struct {name} with {count} elements"))
termination_by (fuel, fields.length + 1)

end

def readDocument (s : Shape) (text : String) : Except ReadError Json :=
  match (do let v ← readText 200 s; finish; pure v : Reading Json).run (Cursor.start text) with
  | .ok v _ => .ok v
  | .error e _ => .error e

def decode (s : Shape) (v : Json) : Except ReadError Json :=
  (readValue 200 s v).mapError fun p => { problem := p }

end Shape

end Json

end ClusterScheduler
