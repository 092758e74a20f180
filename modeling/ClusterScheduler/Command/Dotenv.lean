import ClusterScheduler.Text.Basic
import ClusterScheduler.Text.Alphanumeric

/-!
# Environment files

An environment file sets variables that the environment does not set already, one
`KEY=value` per line. Keys start with an ASCII letter or `_` and go on with letters, digits, `_`
and `.`; a line may start with `export`. Values may be single quoted (kept as written), double
quoted (with the escapes `\\`, `\'`, `\"`, `\$`, `\ ` and `\n`) or bare, may refer to variables
as `$NAME` or `${NAME}` (names of letters and digits, the environment first, then the lines
before), and may be followed by blanks and a `#` comment. A quoted value may span lines; inside
single quotes too a backslash keeps the next character from closing the quote for that purpose.
Blanks around a line are dropped.
The first malformed line stops reading; the lines before it stay applied.
-/

namespace ClusterScheduler

namespace Dotenv

/-- Where a physical line leaves the reading of a value. -/
inductive Scan where
  | complete | blank | escape | weakOpen | weakOpenEscape | strongOpen | strongOpenEscape | comment
  deriving DecidableEq, Repr

/-- Scans a physical line from a state; gives the index of the last character scanned (of the
`#` of a comment) and the state at the end. -/
def scanLine (st : Scan) (cs : List Char) : Nat × Scan :=
  let rec go (st : Scan) (pos : Nat) (last : Nat) : List Char → Nat × Scan
    | [] => (last, st)
    | c :: rest =>
      let next : Scan := match st with
        | .blank =>
          if c = '#' then .comment
          else if c = '\\' then .escape
          else if c = '"' then .weakOpen
          else if c = '\'' then .strongOpen
          else .complete
        | .escape => .complete
        | .complete =>
          if Text.isBlank c && c ≠ '\n' && c ≠ '\r' then .blank
          else if c = '\\' then .escape
          else if c = '"' then .weakOpen
          else if c = '\'' then .strongOpen
          else .complete
        | .weakOpen => if c = '\\' then .weakOpenEscape else if c = '"' then .complete else .weakOpen
        | .weakOpenEscape => .weakOpen
        | .strongOpen =>
          if c = '\\' then .strongOpenEscape else if c = '\'' then .complete else .strongOpen
        | .strongOpenEscape => .strongOpen
        | .comment => .comment
      if next = .comment then (pos, .comment) else go next (pos + 1) pos rest
  go st 0 0 cs

def physicalLines (cs : List Char) : List (List Char) :=
  let (lines, cur) := cs.foldl (fun (acc, cur) c =>
    if c = '\n' then (acc ++ [cur ++ [c]], []) else (acc, cur ++ [c])) ([], [])
  if cur.isEmpty then lines else lines ++ [cur]

def dropNewline (cs : List Char) : List Char :=
  if cs.getLast? = some '\n' then
    let cs := cs.dropLast
    if cs.getLast? = some '\r' then cs.dropLast else cs
  else cs

/-- Joins physical lines into logical ones: a line inside quotes goes on with the next; a
comment after blanks is cut off; a line starting with `#` is empty. A text ending inside
quotes ends with a failure. -/
def logicalLines : Scan → List Char → List (List Char) → List (Option (List Char))
  | .complete, _, [] => []
  | _, _, [] => [none]
  | st, buf, l :: rest =>
    let start := buf.length
    let buf := buf ++ l
    if (Text.trimStart buf).head? = some '#' then some [] :: logicalLines .complete [] rest
    else
      match scanLine st l with
      | (_, .complete) => some (dropNewline buf) :: logicalLines .complete [] rest
      | (pos, .comment) => some (buf.take (start + pos)) :: logicalLines .complete [] rest
      | (_, st) => logicalLines st buf rest

/-- Variables: the environment's, then those set by earlier lines (`none` for a line that sets
an empty value without one). -/
structure Scope where
  env : List (String × String)
  earlier : List (String × Option String)

def Scope.resolve (s : Scope) (name : String) : String :=
  match s.env.lookup name with
  | some v => v
  | none => ((s.earlier.lookup name).bind id).getD ""

/-- How a reference is being read. -/
inductive Ref where
  | none | bare | braced
  deriving DecidableEq

/-- The reading state of a value. -/
structure ValueState where
  strong : Bool := false
  weak : Bool := false
  escaped : Bool := false
  expectingEnd : Bool := false
  ref : Ref := .none
  name : List Char := []
  out : List Char := []

/-- Reads one character of a value; `none` for a malformed value, `some (.inl s)` to go on and
`some (.inr s)` at a comment, which ends the value. A bare reference's name is a run of letters
and digits. -/
def valueStep (sc : Scope) (s : ValueState) (c : Char) : Option (ValueState ⊕ ValueState) :=
  let flush (s : ValueState) : ValueState :=
    { s with out := s.out ++ (sc.resolve (String.ofList s.name)).toList, name := [] }
  if s.expectingEnd then
    if c = ' ' ∨ c = '\t' then some (.inl s)
    else if c = '#' then some (.inr s)
    else none
  else if s.escaped then
    if c = '\\' ∨ c = '\'' ∨ c = '"' ∨ c = '$' ∨ c = ' ' then some (.inl { s with out := s.out ++ [c], escaped := false })
    else if c = 'n' then some (.inl { s with out := s.out ++ ['\n'], escaped := false })
    else none
  else if s.strong then
    if c = '\'' then some (.inl { s with strong := false }) else some (.inl { s with out := s.out ++ [c] })
  else if s.ref ≠ .none then
    if Text.isAlphanumeric c then some (.inl { s with name := s.name ++ [c] })
    else if s.ref = .bare then
      if c = '{' ∧ s.name.isEmpty then some (.inl { s with ref := .braced })
      else
        let s := flush s
        if c = '$' then some (.inl { s with ref := .bare })
        else some (.inl { s with ref := .none, out := s.out ++ [c] })
    else
      if c = '}' then some (.inl { flush s with ref := .none })
      else some (.inl { s with name := s.name ++ [c] })
  else if c = '$' then some (.inl { s with ref := .bare })
  else if s.weak then
    if c = '"' then some (.inl { s with weak := false })
    else if c = '\\' then some (.inl { s with escaped := true })
    else some (.inl { s with out := s.out ++ [c] })
  else if c = '\'' then some (.inl { s with strong := true })
  else if c = '"' then some (.inl { s with weak := true })
  else if c = '\\' then some (.inl { s with escaped := true })
  else if c = ' ' ∨ c = '\t' then some (.inl { s with expectingEnd := true })
  else some (.inl { s with out := s.out ++ [c] })

def readValue (sc : Scope) (cs : List Char) : Option String :=
  let rec go (s : ValueState) : List Char → Option ValueState
    | [] => some s
    | c :: rest =>
      match valueStep sc s c with
      | none => none
      | some (.inr s) => some s
      | some (.inl s) => go s rest
  match go {} cs with
  | none => none
  | some s =>
    if s.ref = .braced ∨ s.strong ∨ s.weak then none
    else some (String.ofList (s.out ++ (sc.resolve (String.ofList s.name)).toList))

def readKey (cs : List Char) : Option (String × List Char) :=
  match cs with
  | c :: _ =>
    if c.isAlpha ∨ c = '_' then
      let key := cs.takeWhile fun c => c.isAlphanum ∨ c = '_' ∨ c = '.'
      some (String.ofList key, cs.drop key.length)
    else none
  | [] => none

def expectEquals : List Char → Option (List Char)
  | '=' :: rest => some rest
  | _ => none

/-- Reads a logical line: `none` for a malformed line, `some none` for a line that sets
nothing, and `some (some (key, value))` otherwise. -/
def readLine (sc : Scope) (line : List Char) : Option (Option (String × Option String × String)) :=
  let line := Text.trim line
  if line.isEmpty ∨ line.head? = some '#' then some none
  else do
    let (key, rest) ← readKey line
    let rest := Text.trimStart rest
    let (key, rest) ← if key = "export" then
        match expectEquals rest with
        | some r => some (key, r)
        | none => do
          let (key, rest) ← readKey rest
          let rest ← expectEquals (Text.trimStart rest)
          some (key, rest)
      else do
        let r ← expectEquals rest
        some (key, r)
    let rest := Text.trimStart rest
    if rest.isEmpty ∨ rest.head? = some '#' then some (some (key, none, ""))
    else
      let v ← readValue sc rest
      some (some (key, some v, v))

/-- Why applying an environment file stopped the program. -/
inductive Stop where
  /-- A value holds a NUL character, which no variable can hold. -/
  | nulValue (key value : String)
  deriving DecidableEq, Repr

/-- Applies the lines of an environment file to an environment: each variable it sets is added
unless the environment has it already. -/
def apply (text : String) (env : List (String × String)) : Except Stop (List (String × String)) :=
  let cs := match text.toList with
    | '\uFEFF' :: rest => rest
    | cs => cs
  let rec go (sc : Scope) : List (Option (List Char)) → Except Stop (List (String × String))
    | [] => .ok sc.env
    | none :: _ => .ok sc.env
    | some line :: rest =>
      match readLine sc line with
      | none => .ok sc.env
      | some none => go sc rest
      | some (some (k, stored, v)) =>
        let earlier := (k, stored) :: sc.earlier
        if (sc.env.lookup k).isSome then go { sc with earlier } rest
        else if v.toList.contains '\x00' then .error (.nulValue k v)
        else go { env := sc.env ++ [(k, v)], earlier } rest
  go ⟨env, []⟩ (logicalLines .complete [] (physicalLines cs))

/-- The variable names a file can refer to or set: every maximal run of letters, digits, `_` and
`.`, and every maximal run of letters and digits. -/
def names (text : String) : List String :=
  let runs (keep : Char → Bool) : List String :=
    ((text.toList.splitBy fun a b => keep a == keep b).filter fun r =>
      r.all keep).map String.ofList
  (runs (fun c => c.isAlphanum || c = '_' || c = '.') ++ runs Text.isAlphanumeric).eraseDups

end Dotenv

end ClusterScheduler
