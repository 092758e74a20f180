import ClusterScheduler.Json.Value
import ClusterScheduler.Binary64.Text

/-!
# Compact JSON text

No blank between tokens, members in key order, integers in decimal, doubles in their shortest
form (`Binary64.jsonText`). In strings a quote and a backslash are escaped, the controls with a
short escape (`\b \f \n \r \t`) get it, the other controls are written `\u00xx`; every other
character is written as it is.
-/

namespace ClusterScheduler

def Number.text : Number → String
  | .int n => toString n
  | .float x => x.jsonText

namespace Json

def hex2 (n : Nat) : List Char :=
  let d (k : Nat) : Char := if k < 10 then Char.ofNat (48 + k) else Char.ofNat (87 + k)
  [d (n / 16 % 16), d (n % 16)]

def pushEscaped (acc : String) (c : Char) : String :=
  match c with
  | '"' => acc ++ "\\\""
  | '\\' => acc ++ "\\\\"
  | '\n' => acc ++ "\\n"
  | '\r' => acc ++ "\\r"
  | '\t' => acc ++ "\\t"
  | _ =>
    if c.toNat = 8 then acc ++ "\\b"
    else if c.toNat = 12 then acc ++ "\\f"
    else if c.toNat < 0x20 then acc ++ String.ofList ('\\' :: 'u' :: '0' :: '0' :: hex2 c.toNat)
    else acc.push c

def pushString (acc : String) (s : String) : String :=
  (s.toList.foldl pushEscaped (acc.push '"')).push '"'

mutual

def pushValue (acc : String) : Json → String
  | .null => acc ++ "null"
  | .bool b => acc ++ (if b then "true" else "false")
  | .num n => acc ++ n.text
  | .str s => pushString acc s
  | .arr items => (pushItems (acc.push '[') true items).push ']'
  | .obj members => (pushMembers (acc.push '{') true members).push '}'

def pushItems (acc : String) (first : Bool) : List Json → String
  | [] => acc
  | j :: rest => pushItems (pushValue (if first then acc else acc.push ',') j) false rest

def pushMembers (acc : String) (first : Bool) : List (String × Json) → String
  | [] => acc
  | (k, v) :: rest =>
    let acc := pushString (if first then acc else acc.push ',') k
    pushMembers (pushValue (acc.push ':') v) false rest

end

def compact (j : Json) : String := pushValue "" j

end Json

end ClusterScheduler
