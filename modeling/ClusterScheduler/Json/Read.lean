import ClusterScheduler.Json.Value
import ClusterScheduler.Binary64.Text
import ClusterScheduler.Text.Printable

/-!
# Reading JSON text

The reader walks the UTF-8 bytes of a text with a cursor. Each failure is a `Problem` and, when
it comes from the text, the line and column where it was found: the column counts the bytes of
the line read so far, and a problem found by looking at the next byte counts that byte too.

Numbers are read as the JSON writer of the scheduler's tools reads them: digits are gathered in
a 64-bit significand (digits past its capacity are dropped and only shift the exponent), an
integer literal within the 64-bit ranges stays an integer, and anything else becomes a double by
scaling the significand with the double nearest to the power of ten, each step rounded. Nesting
is limited to 127 open brackets.
-/

namespace ClusterScheduler

namespace Json

/-- Errors found in the text itself. -/
inductive SyntaxCode where
  | eofList | eofObject | eofString | eofValue
  | expectedColon | expectedListCommaOrEnd | expectedObjectCommaOrEnd
  | expectedIdent | expectedValue
  | invalidEscape | invalidNumber | numberOutOfRange | invalidCodePoint
  | controlChar | keyMustBeString | loneLeadingSurrogate
  | trailingComma | trailingCharacters | unexpectedEndOfHexEscape | recursionLimit
  deriving DecidableEq, Repr

def SyntaxCode.text : SyntaxCode → String
  | .eofList => "EOF while parsing a list"
  | .eofObject => "EOF while parsing an object"
  | .eofString => "EOF while parsing a string"
  | .eofValue => "EOF while parsing a value"
  | .expectedColon => "expected `:`"
  | .expectedListCommaOrEnd => "expected `,` or `]`"
  | .expectedObjectCommaOrEnd => "expected `,` or `\x7d`"
  | .expectedIdent => "expected ident"
  | .expectedValue => "expected value"
  | .invalidEscape => "invalid escape"
  | .invalidNumber => "invalid number"
  | .numberOutOfRange => "number out of range"
  | .invalidCodePoint => "invalid unicode code point"
  | .controlChar => "control character (\\u0000-\\u001F) found while parsing a string"
  | .keyMustBeString => "key must be a string"
  | .loneLeadingSurrogate => "lone leading surrogate in hex escape"
  | .trailingComma => "trailing comma"
  | .trailingCharacters => "trailing characters"
  | .unexpectedEndOfHexEscape => "unexpected end of hex escape"
  | .recursionLimit => "recursion limit exceeded"

/-- A value met where another kind was expected, as a message names it. -/
inductive Unexpected where
  | bool (b : Bool)
  | unsigned (n : Nat)
  | signed (n : Int)
  | float (x : Binary64)
  | str (s : String)
  | unit
  | seq
  | map

def Unexpected.text : Unexpected → String
  | .bool b => s!"boolean `{b}`"
  | .unsigned n => s!"integer `{n}`"
  | .signed n => s!"integer `{n}`"
  | .float x =>
    let shown := x.messageText
    s!"floating point `{shown}`"
  | .str s => "string " ++ Text.quote s
  | .unit => "null"
  | .seq => "sequence"
  | .map => "map"

/-- Why reading a document failed. -/
inductive Problem where
  | malformed (code : SyntaxCode)
  | invalidType (found : Unexpected) (expected : String)
  | invalidValue (found : Unexpected) (expected : String)
  | invalidLength (n : Nat) (expected : String)
  | missingField (name : String)
  | duplicateField (name : String)
  | unknownVariant (name : String) (variants : List String)

def backquoted (names : List String) : String :=
  ", ".intercalate (names.map fun n => "`" ++ n ++ "`")

def Problem.text : Problem → String
  | .malformed c => c.text
  | .invalidType u e => s!"invalid type: {u.text}, expected {e}"
  | .invalidValue u e => s!"invalid value: {u.text}, expected {e}"
  | .invalidLength n e => s!"invalid length {n}, expected {e}"
  | .missingField n => "missing field `" ++ n ++ "`"
  | .duplicateField n => "duplicate field `" ++ n ++ "`"
  | .unknownVariant n vs =>
    let expected := match vs with
      | [] => "there are no variants"
      | [v] => "expected `" ++ v ++ "`"
      | [v, w] => "expected `" ++ v ++ "` or `" ++ w ++ "`"
      | _ => "expected one of " ++ backquoted vs
    "unknown variant `" ++ n ++ "`, " ++ expected

/-- A problem, with the line and column of the text where it was found, if it came from one. -/
structure ReadError where
  problem : Problem
  place : Option (Nat × Nat) := none

def ReadError.message (e : ReadError) : String :=
  match e.place with
  | some (l, c) => e.problem.text ++ s!" at line {l} column {c}"
  | none => e.problem.text

/-- A position in the bytes of a text, with the nesting depth still allowed. -/
structure Cursor where
  bytes : ByteArray
  pos : Nat
  depth : Nat

abbrev Reading := EStateM ReadError Cursor

/-- The line and column of byte index `i`: lines count from 1, columns count the bytes before
`i` on its line. -/
def placeOf (bytes : ByteArray) (i : Nat) : Nat × Nat :=
  let before := (bytes.extract 0 i).toList
  let lineStart := match (before.zipIdx.filter fun (b, _) => b == 10).getLast? with
    | some (_, j) => j + 1
    | none => 0
  (1 + (before.take lineStart).count 10, i - lineStart)

def failHere {α : Type} (p : Problem) : Reading α := do
  let c ← get
  throw { problem := p, place := some (placeOf c.bytes c.pos) }

def failAhead {α : Type} (p : Problem) : Reading α := do
  let c ← get
  throw { problem := p, place := some (placeOf c.bytes (min c.bytes.size (c.pos + 1))) }

def syntaxHere {α : Type} (code : SyntaxCode) : Reading α := failHere (.malformed code)

def syntaxAhead {α : Type} (code : SyntaxCode) : Reading α := failAhead (.malformed code)

def placed {α : Type} (r : Reading α) : Reading α := fun c =>
  match r c with
  | .error e c' =>
    .error (if e.place.isSome then e else { e with place := some (placeOf c'.bytes c'.pos) }) c'
  | .ok a c' => .ok a c'

def peek : Reading (Option UInt8) := do
  let c ← get
  pure (if h : c.pos < c.bytes.size then some c.bytes[c.pos] else none)

def eat : Reading Unit := modify fun c => { c with pos := c.pos + 1 }

def next : Reading (Option UInt8) := do
  let b ← peek
  if b.isSome then eat
  pure b

def isSpace (b : UInt8) : Bool := b == 32 || b == 10 || b == 9 || b == 13

def skipSpace : Reading (Option UInt8) := do
  let c ← get
  let rec go (i : Nat) (fuel : Nat) : Nat :=
    match fuel with
    | 0 => i
    | fuel + 1 =>
      if h : i < c.bytes.size then (if isSpace c.bytes[i] then go (i + 1) fuel else i) else i
  set { c with pos := go c.pos c.bytes.size }
  peek

def literal : List UInt8 → Reading Unit
  | [] => pure ()
  | b :: rest => do
    match ← next with
    | none => syntaxHere .eofValue
    | some b' => if b' == b then literal rest else syntaxHere .expectedIdent

def hexValue (b : UInt8) : Option Nat :=
  if 48 ≤ b && b ≤ 57 then some (b.toNat - 48)
  else if 97 ≤ b && b ≤ 102 then some (b.toNat - 87)
  else if 65 ≤ b && b ≤ 70 then some (b.toNat - 55)
  else none

def hexEscape : Reading Nat := do
  let c ← get
  if c.pos + 4 ≤ c.bytes.size then
    let ds := (c.bytes.extract c.pos (c.pos + 4)).toList
    set { c with pos := c.pos + 4 }
    match ds.mapM hexValue with
    | some [a, b, d, e] => pure (((a * 16 + b) * 16 + d) * 16 + e)
    | _ => syntaxHere .invalidEscape
  else
    set { c with pos := c.bytes.size }
    syntaxHere .eofString

def utf8 (n : Nat) : List UInt8 := (String.singleton (Char.ofNat n)).toUTF8.toList

def unicodeEscape : Reading (List UInt8) := do
  let n ← hexEscape
  if 0xDC00 ≤ n ∧ n ≤ 0xDFFF then syntaxHere .loneLeadingSurrogate
  else if n < 0xD800 ∨ 0xDBFF < n then pure (utf8 n)
  else
    match ← peek with
    | none => syntaxHere .eofString
    | some b =>
      eat
      if b != 92 then syntaxHere .unexpectedEndOfHexEscape
      else
        match ← peek with
        | none => syntaxHere .eofString
        | some u =>
          eat
          if u != 117 then syntaxHere .unexpectedEndOfHexEscape
          else
            let n2 ← hexEscape
            if n2 < 0xDC00 ∨ 0xDFFF < n2 then syntaxHere .loneLeadingSurrogate
            else pure (utf8 (((n - 0xD800) * 1024 + (n2 - 0xDC00)) + 0x10000))

def escape : Reading (List UInt8) := do
  match ← next with
  | none => syntaxHere .eofString
  | some b =>
    if b == 34 then pure [34]
    else if b == 92 then pure [92]
    else if b == 47 then pure [47]
    else if b == 98 then pure [8]
    else if b == 102 then pure [12]
    else if b == 110 then pure [10]
    else if b == 114 then pure [13]
    else if b == 116 then pure [9]
    else if b == 117 then unicodeEscape
    else syntaxHere .invalidEscape

def stringBody : Reading String := do
  let c ← get
  let rec go (acc : Array UInt8) (fuel : Nat) : Reading String :=
    match fuel with
    | 0 => syntaxHere .eofString
    | fuel + 1 => do
      match ← next with
      | none => syntaxHere .eofString
      | some b =>
        if b == 34 then pure (String.fromUTF8? ⟨acc⟩ |>.getD "")
        else if b == 92 then do
          let bs ← escape
          go (acc ++ bs.toArray) fuel
        else if b < 32 then syntaxHere .controlChar
        else go (acc.push b) fuel
  go #[] (c.bytes.size + 1)

/-- Skips the rest of a string (the opening quote already read), checking its escapes; a
control character is reported where it stands. -/
def skipStringBody : Reading Unit := do
  let c ← get
  let rec go (fuel : Nat) : Reading Unit :=
    match fuel with
    | 0 => syntaxHere .eofString
    | fuel + 1 => do
      match ← peek with
      | none => syntaxHere .eofString
      | some b =>
        if b < 32 then syntaxHere .controlChar
        else do
          eat
          if b == 34 then pure ()
          else if b == 92 then do
            match ← next with
            | none => syntaxHere .eofString
            | some e =>
              if e == 117 then do let _ ← hexEscape; go fuel
              else if e == 34 || e == 92 || e == 47 || e == 98 || e == 102 || e == 110 ||
                  e == 114 || e == 116 then go fuel
              else syntaxHere .invalidEscape
          else go fuel
  go (c.bytes.size + 1)

def isDigit (b : UInt8) : Bool := 48 ≤ b && b ≤ 57

def digitRun : Reading (List Nat) := do
  let c ← get
  let rec go (i : Nat) (acc : List Nat) (fuel : Nat) : Nat × List Nat :=
    match fuel with
    | 0 => (i, acc)
    | fuel + 1 =>
      if h : i < c.bytes.size then
        (if isDigit c.bytes[i] then go (i + 1) ((c.bytes[i] - 48).toNat :: acc) fuel else (i, acc))
      else (i, acc)
  let (i, ds) := go c.pos [] c.bytes.size
  set { c with pos := i }
  pure ds.reverse

def u64Max : Nat := 18446744073709551615

/-- Gathers digits into a 64-bit significand; digits that would overflow it are dropped and
counted. -/
def gather (sig : Nat) (ds : List Nat) : Nat × Nat × Bool :=
  match ds with
  | [] => (sig, 0, false)
  | d :: rest =>
    if sig * 10 + d > u64Max then (sig, ds.length, true)
    else gather (sig * 10 + d) rest

def pow10 (k : Nat) : Binary64 := (Binary64.ofRatio false (Nat.pow 10 k) 1).getD Binary64.zero

def mulD (x y : Binary64) : Option Binary64 :=
  let (a, b) := x.ratio
  let (c, d) := y.ratio
  Binary64.ofRatio (x.neg != y.neg) (a * c) (b * d)

def divD (x y : Binary64) : Binary64 :=
  let (a, b) := x.ratio
  let (c, d) := y.ratio
  (Binary64.ofRatio (x.neg != y.neg) (a * d) (b * c)).getD Binary64.zero

/-- `sig · 10^exp` as a double: the significand rounded, then scaled by the nearest double of
the power of ten (in steps of `1e308` below that), each step rounded. `none` past the largest
double. -/
def fromParts (positive : Bool) (sig : Nat) (exp : Int) : Option Binary64 :=
  let f := (Binary64.ofRatio false sig 1).getD Binary64.zero
  let rec scale (f : Binary64) (exp : Int) (fuel : Nat) : Option Binary64 :=
    match fuel with
    | 0 => some f
    | fuel + 1 =>
      if exp.natAbs ≤ 308 then
        if 0 ≤ exp then mulD f (pow10 exp.toNat) else some (divD f (pow10 exp.natAbs))
      else if f.isZero then some f
      else if 0 ≤ exp then none
      else scale (divD f (pow10 308)) (exp + 308) fuel
  (scale f exp 20).map fun x => { x with neg := !positive }

def satAdd32 (a b : Int) : Int := max (-2147483648) (min 2147483647 (a + b))

def exponentPart (positive : Bool) (sig : Nat) (start : Int) : Reading Binary64 := do
  eat
  let positiveExp ← do
    match ← peek with
    | some 43 => eat; pure true
    | some 45 => eat; pure false
    | _ => pure true
  match ← next with
  | none => syntaxHere .eofValue
  | some b =>
    if !isDigit b then syntaxHere .invalidNumber
    else
      let first := (b - 48).toNat
      let c ← get
      let rec go (i : Nat) (e : Nat) (fuel : Nat) : Nat × Nat × Bool :=
        match fuel with
        | 0 => (i, e, false)
        | fuel + 1 =>
          if h : i < c.bytes.size then
            if isDigit c.bytes[i] then
              let d := (c.bytes[i] - 48).toNat
              if e * 10 + d > 2147483647 then (i + 1, e, true) else go (i + 1) (e * 10 + d) fuel
            else (i, e, false)
          else (i, e, false)
      let (i, e, overflow) := go c.pos first c.bytes.size
      set { c with pos := i }
      if overflow then
        if sig ≠ 0 ∧ positiveExp then syntaxHere .numberOutOfRange
        else
          let _ ← digitRun
          pure { neg := !positive, mant := 0, exp := Binary64.minExp }
      else
        let total := if positiveExp then satAdd32 start e else satAdd32 start (-(e : Int))
        match fromParts positive sig total with
        | some x => pure x
        | none => syntaxHere .numberOutOfRange

def fractionPart (positive : Bool) (sig : Nat) (start : Int) : Reading Binary64 := do
  eat
  let ds ← digitRun
  let (sig', dropped, _) := gather sig ds
  let exp : Int := start - ((ds.length - dropped : Nat) : Int)
  if ds.isEmpty then
    match ← peek with
    | some _ => syntaxAhead .invalidNumber
    | none => syntaxAhead .eofValue
  else
    match ← peek with
    | some 101 | some 69 => exponentPart positive sig' exp
    | _ =>
      match fromParts positive sig' exp with
      | some x => pure x
      | none => syntaxHere .numberOutOfRange

def number (positive : Bool) : Reading Number := do
  match ← next with
  | none => syntaxHere .eofValue
  | some b =>
    if b == 48 then
      match ← peek with
      | some d => if isDigit d then syntaxAhead .invalidNumber else afterInt 0 0
      | none => afterInt 0 0
    else if isDigit b then
      let ds ← digitRun
      let (sig, dropped, _) := gather (b - 48).toNat ds
      afterInt sig dropped
    else syntaxHere .invalidNumber
where
  /-- What follows the integer digits: a fraction, an exponent, or the end of the number. -/
  afterInt (sig : Nat) (dropped : Nat) : Reading Number := do
    match ← peek with
    | some 46 => return .float (← fractionPart positive sig dropped)
    | some 101 | some 69 => return .float (← exponentPart positive sig dropped)
    | _ =>
      if dropped > 0 then
        match fromParts positive sig dropped with
        | some x => pure (.float x)
        | none => syntaxHere .numberOutOfRange
      else if positive then pure (.int sig)
      else if sig = 0 ∨ 9223372036854775808 < sig then
        pure (.float ((Binary64.ofRatio true sig 1).getD Binary64.zero))
      else pure (.int (-(sig : Int)))

def skipNumber : Reading Unit := do
  let b ← next
  match b with
  | some 48 =>
    match ← peek with
    | some d => if isDigit d then syntaxAhead .invalidNumber else rest
    | none => rest
  | some d => if isDigit d then do let _ ← digitRun; rest else syntaxHere .invalidNumber
  | none => syntaxHere .invalidNumber
where
  /-- Skips a fraction and an exponent part. -/
  rest : Reading Unit := do
    if (← peek) == some 46 then
      eat
      let ds ← digitRun
      if ds.isEmpty then syntaxAhead .invalidNumber
    match ← peek with
    | some 101 | some 69 =>
      eat
      match ← peek with
      | some 43 | some 45 => eat
      | _ => pure ()
      match ← next with
      | some d => if isDigit d then do let _ ← digitRun; pure () else syntaxHere .invalidNumber
      | none => syntaxHere .invalidNumber
    | _ => pure ()

def enter : Reading Unit := do
  let c ← get
  if c.depth ≤ 1 then syntaxAhead .recursionLimit
  else set { c with depth := c.depth - 1, pos := c.pos + 1 }

def leave : Reading Unit := modify fun c => { c with depth := c.depth + 1 }

def endSeq : Reading Unit := do
  match ← skipSpace with
  | some 93 => eat
  | some 44 =>
    eat
    match ← skipSpace with
    | some 93 => syntaxAhead .trailingComma
    | _ => syntaxAhead .trailingCharacters
  | some _ => syntaxAhead .trailingCharacters
  | none => syntaxAhead .eofList

def endMap : Reading Unit := do
  match ← skipSpace with
  | some 125 => eat
  | some 44 => syntaxAhead .trailingComma
  | some _ => syntaxAhead .trailingCharacters
  | none => syntaxAhead .eofObject

def nextItem (first : Bool) : Reading Bool := do
  let b ← skipSpace
  let b ← match b with
    | some 93 => return false
    | some b =>
      if b == 44 && !first then do eat; skipSpace
      else if first then pure (some b) else syntaxAhead .expectedListCommaOrEnd
    | none => syntaxAhead .eofList
  match b with
  | some 93 => syntaxAhead .trailingComma
  | some _ => pure true
  | none => syntaxAhead .eofValue

def nextKey (first : Bool) : Reading (Option String) := do
  let b ← skipSpace
  let b ← match b with
    | some 125 => return none
    | some b =>
      if b == 44 && !first then do eat; skipSpace
      else if first then pure (some b) else syntaxAhead .expectedObjectCommaOrEnd
    | none => syntaxAhead .eofObject
  match b with
  | some 34 => eat; return some (← stringBody)
  | some 125 => syntaxAhead .trailingComma
  | some _ => syntaxAhead .keyMustBeString
  | none => syntaxAhead .eofValue

def colon : Reading Unit := do
  match ← skipSpace with
  | some 58 => eat
  | some _ => syntaxAhead .expectedColon
  | none => syntaxAhead .eofObject

mutual

def value (fuel : Nat) : Reading Json :=
  match fuel with
  | 0 => syntaxAhead .recursionLimit
  | fuel + 1 => placed do
    match ← skipSpace with
    | none => syntaxAhead .eofValue
    | some b =>
      if b == 110 then do eat; literal [117, 108, 108]; pure .null
      else if b == 116 then do eat; literal [114, 117, 101]; pure (.bool true)
      else if b == 102 then do eat; literal [97, 108, 115, 101]; pure (.bool false)
      else if b == 45 then do eat; pure (.num (← number false))
      else if isDigit b then do pure (.num (← number true))
      else if b == 34 then do eat; pure (.str (← stringBody))
      else if b == 91 then do
        enter
        let items ← items fuel true [] (← get).bytes.size
        leave
        endSeq
        pure (.arr items)
      else if b == 123 then do
        enter
        let ms ← members fuel true [] (← get).bytes.size
        leave
        endMap
        pure (object ms)
      else syntaxAhead .expectedValue

def items (fuel : Nat) (first : Bool) (acc : List Json) (steps : Nat) : Reading (List Json) :=
  match steps with
  | 0 => pure acc.reverse
  | steps + 1 => do
    if ← nextItem first then
      let v ← value fuel
      items fuel false (v :: acc) steps
    else pure acc.reverse

def members (fuel : Nat) (first : Bool) (acc : List (String × Json)) (steps : Nat) :
    Reading (List (String × Json)) :=
  match steps with
  | 0 => pure acc.reverse
  | steps + 1 => do
    match ← nextKey first with
    | none => pure acc.reverse
    | some k =>
      colon
      let v ← value fuel
      members fuel false ((k, v) :: acc) steps

end

def skipScalarOrOpen : Reading (Option UInt8) := do
  match ← skipSpace with
  | none => syntaxAhead .eofValue
  | some b =>
    if b == 110 then do eat; literal [117, 108, 108]; pure none
    else if b == 116 then do eat; literal [114, 117, 101]; pure none
    else if b == 102 then do eat; literal [97, 108, 115, 101]; pure none
    else if b == 45 then do eat; skipNumber; pure none
    else if isDigit b then do skipNumber; pure none
    else if b == 34 then do eat; skipStringBody; pure none
    else if b == 91 || b == 123 then do eat; pure (some b)
    else syntaxAhead .expectedValue

/-- After a value inside container `frame` (the outer ones on `outer`): closes the containers
that end here, and gives the container in which a value follows next with its outer ones, or
`none` when the outermost container closed. -/
def closeFrames (frame : UInt8) (outer : List UInt8) (acceptComma : Bool) (fuel : Nat) :
    Reading (Option (UInt8 × List UInt8)) :=
  match fuel with
  | 0 => pure none
  | fuel + 1 => do
    let other : Reading (Option (UInt8 × List UInt8)) :=
      if acceptComma then
        syntaxAhead (if frame == 91 then .expectedListCommaOrEnd else .expectedObjectCommaOrEnd)
      else pure (some (frame, outer))
    let close : Reading (Option (UInt8 × List UInt8)) := do
      eat
      match outer with
      | [] => pure none
      | f :: rest => closeFrames f rest true fuel
    match ← skipSpace with
    | some 44 => if acceptComma then do eat; pure (some (frame, outer)) else other
    | some 93 => if frame == 91 then close else other
    | some 125 => if frame == 123 then close else other
    | some _ => other
    | none => syntaxAhead (if frame == 91 then .eofList else .eofObject)

def skipValue : Reading Unit := do
  let c ← get
  go none [] (c.bytes.size + 1)
where
  /-- Reads one value or opening inside `enclosing`, the containers around it on `outer`. -/
  go (enclosing : Option UInt8) (outer : List UInt8) (fuel : Nat) : Reading Unit :=
    match fuel with
    | 0 => pure ()
    | fuel + 1 => do
      let opened ← skipScalarOrOpen
      let (outer, frame, acceptComma) := match opened with
        | some f => (enclosing.toList ++ outer, some f, false)
        | none => match enclosing with
          | some f => (outer, some f, true)
          | none => match outer with
            | f :: rest => (rest, some f, true)
            | [] => (outer, none, true)
      match frame with
      | none => pure ()
      | some frame =>
        match ← closeFrames frame outer acceptComma (← get).bytes.size with
        | none => pure ()
        | some (frame, outer) =>
          if frame == 123 then
            match ← skipSpace with
            | some 34 => eat
            | some _ => syntaxAhead .keyMustBeString
            | none => syntaxAhead .eofObject
            skipStringBody
            match ← skipSpace with
            | some 58 => eat
            | some _ => syntaxAhead .expectedColon
            | none => syntaxAhead .eofObject
          go (some frame) outer fuel

def Cursor.start (text : String) : Cursor := ⟨text.toUTF8, 0, 128⟩

def finish : Reading Unit := do
  match ← skipSpace with
  | none => pure ()
  | some _ => syntaxAhead .trailingCharacters

def parse (text : String) : Except ReadError Json :=
  match (do let v ← value 200; finish; pure v : Reading Json).run (Cursor.start text) with
  | .ok v _ => .ok v
  | .error e _ => .error e

end Json

end ClusterScheduler
