/-!
# Text as lists of characters

Blank characters are those of the Unicode `White_Space` property. Trimming, splitting into words
and splitting into lines follow that class; splitting at a given character keeps empty pieces.
Everything works on lists of characters. Beside them stand the case changes that keyword
matching uses, membership in character classes stored as range tables, and plain text tables.
-/

namespace ClusterScheduler

namespace Text

def isBlank (c : Char) : Bool :=
  let n := c.toNat
  (0x09 ≤ n && n ≤ 0x0D) || n == 0x20 || n == 0x85 || n == 0xA0 || n == 0x1680 ||
    (0x2000 ≤ n && n ≤ 0x200A) || n == 0x2028 || n == 0x2029 || n == 0x202F || n == 0x205F ||
    n == 0x3000

def trimStart (cs : List Char) : List Char := cs.dropWhile isBlank

def trim (cs : List Char) : List Char := (trimStart cs.reverse).reverse |> trimStart

def trimChar (c : Char) (cs : List Char) : List Char :=
  ((cs.dropWhile (· == c)).reverse.dropWhile (· == c)).reverse

/-- The pieces between occurrences of `sep`; empty pieces are kept, so there is one piece more
than there are separators. -/
def splitOn (sep : Char) (cs : List Char) : List (List Char) := cs.splitOn sep

def splitOnce (sep : Char) : List Char → Option (List Char × List Char)
  | [] => none
  | c :: rest =>
    if c = sep then some ([], rest)
    else (splitOnce sep rest).map fun (a, b) => (c :: a, b)

def words (cs : List Char) : List (List Char) :=
  (cs.splitBy fun a b => isBlank a == isBlank b).filter fun w => !(w.all isBlank)

/-- The lines of a text: pieces between line feeds, a carriage return before a line feed
dropped, and no empty last line after a final line feed. -/
def lines (cs : List Char) : List (List Char) :=
  let pieces := cs.splitOn '\n'
  let pieces := if cs.getLast? = some '\n' then pieces.dropLast else pieces
  let pieces := if cs.isEmpty then [] else pieces
  pieces.zipIdx.map fun (p, i) =>
    if i + 1 < pieces.length || cs.getLast? = some '\n' then
      (if p.getLast? = some '\r' then p.dropLast else p)
    else p

/-! ## Letter case for keyword matching

Keywords are matched after a change of case. Only characters whose case mapping is made of
ASCII letters can turn a word into an ASCII keyword, so the mappings here are exact for that
purpose: ASCII letters, and for upper case also `ß`, dotless `ı`, long `ſ` and the Latin
ligatures `ﬀ ﬁ ﬂ ﬃ ﬄ ﬅ ﬆ`. Every other character is kept, and a word holding one matches no
keyword either way.
-/

def upperChar (c : Char) : List Char :=
  if 'a' ≤ c ∧ c ≤ 'z' then [Char.ofNat (c.toNat - 32)]
  else match c.toNat with
    | 0xDF => ['S', 'S']
    | 0x131 => ['I']
    | 0x17F => ['S']
    | 0xFB00 => ['F', 'F']
    | 0xFB01 => ['F', 'I']
    | 0xFB02 => ['F', 'L']
    | 0xFB03 => ['F', 'F', 'I']
    | 0xFB04 => ['F', 'F', 'L']
    | 0xFB05 => ['S', 'T']
    | 0xFB06 => ['S', 'T']
    | _ => [c]

def upper (cs : List Char) : List Char := cs.flatMap upperChar

def lowerAscii (cs : List Char) : List Char :=
  cs.map fun c => if 'A' ≤ c ∧ c ≤ 'Z' then Char.ofNat (c.toNat + 32) else c

def eqIgnoreAsciiCase (a b : List Char) : Bool := lowerAscii a == lowerAscii b

/-! ## Character classes as range tables

A class of characters given by a standard is stored as a sorted array of disjoint inclusive
ranges of code points; membership is a binary search.
-/

def inRangesBetween (rs : Array (Nat × Nat)) (n : Nat) (lo hi : Nat) : Bool :=
  if _h : lo < hi then
    let mid := (lo + hi) / 2
    let (a, b) := rs.getD mid (0, 0)
    if n < a then inRangesBetween rs n lo mid
    else if b < n then inRangesBetween rs n (mid + 1) hi
    else true
  else false
termination_by hi - lo
decreasing_by all_goals omega

def inRanges (rs : Array (Nat × Nat)) (n : Nat) : Bool := inRangesBetween rs n 0 rs.size

/-! ## Plain text tables

A table is printed with no border and no rule. A cell's text is cut into lines, and a row is
as many printed lines as its tallest cell (at least one); a cell shows its `i`-th line on the
`i`-th of them, or nothing. Each cell has one space of padding on both sides and is filled with
spaces to the width of its column (its longest line), except in the last column, which is never
filled. Every printed line ends with a newline. Widths count characters; the cells of filled
columns hold ASCII text only, so characters and display columns agree.
-/

def cellLines (c : String) : List String := (lines c.toList).map String.ofList

def cellWidth (c : String) : Nat := (cellLines c).foldl (fun w l => max w l.length) 0

def columnWidths (rows : List (List String)) (n : Nat) : List Nat :=
  (List.range n).map fun i => rows.foldl (fun w r => max w (cellWidth (r.getD i ""))) 0

def tableRow (widths : List Nat) (cells : List String) : String :=
  let n := cells.length
  let split := cells.map cellLines
  let height := split.foldl (fun h ls => max h ls.length) 1
  String.join ((List.range height).map fun k =>
    let parts := split.zipIdx.map fun (ls, i) =>
      let text := ls.getD k ""
      let fill := if i + 1 = n then 0 else widths.getD i 0 - text.length
      " " ++ text ++ String.ofList (List.replicate fill ' ') ++ " "
    String.join parts ++ "\n")

def table (rows : List (List String)) : String :=
  let n := rows.foldl (fun m r => max m r.length) 0
  let widths := columnWidths rows n
  String.join (rows.map (tableRow widths))

end Text

end ClusterScheduler
