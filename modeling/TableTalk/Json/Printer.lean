import TableTalk.Decimal.Text
import TableTalk.Json.Basic
/-!
# JSON text

`Json.compact` writes a value without blanks, `Json.pretty` with one member or item a line and two
spaces for each level. A character is escaped only if it must be, and a double always shows a
fraction or an exponent; one that is no number is written as `null`.
-/

namespace TableTalk.Json

def escapeChar (c : Char) : String :=
  if c == '"' then "\\\""
  else if c == '\\' then "\\\\"
  else if c == '\x08' then "\\b"
  else if c == '\x0c' then "\\f"
  else if c == '\n' then "\\n"
  else if c == '\r' then "\\r"
  else if c == '\t' then "\\t"
  else if c.toNat < 0x20 then
    "\\u00" ++ (if c.toNat < 0x10 then "0" else "1") ++
      String.ofList (Nat.toDigits 16 (c.toNat % 16))
  else c.toString

def quote (s : String) : String := "\"" ++ String.join (s.toList.map escapeChar) ++ "\""

def doubleText (x : Float) : String := if x.isFinite then Decimal.marked x else "null"

mutual

def compact : Json → String
  | null => "null"
  | bool b => if b then "true" else "false"
  | int n => toString n
  | double x => doubleText x
  | str s => quote s
  | arr items => "[" ++ compactItems items ++ "]"
  | obj members => "\x7b" ++ compactMembers members ++ "\x7d"

def compactItems : List Json → String
  | [] => ""
  | [v] => v.compact
  | v :: vs => v.compact ++ "," ++ compactItems vs

def compactMembers : List (String × Json) → String
  | [] => ""
  | [(k, v)] => quote k ++ ":" ++ v.compact
  | (k, v) :: ms => quote k ++ ":" ++ v.compact ++ "," ++ compactMembers ms

end

def lineBreak (level : Nat) : String := "\n" ++ String.ofList (List.replicate (2 * level) ' ')

mutual

/-- The text of a value at a level of nesting. -/
def prettyAt (level : Nat) : Json → String
  | arr [] => "[]"
  | arr items => "[" ++ prettyItems (level + 1) items ++ lineBreak level ++ "]"
  | obj [] => "\x7b\x7d"
  | obj members => "\x7b" ++ prettyMembers (level + 1) members ++ lineBreak level ++ "\x7d"
  | null => "null"
  | bool b => if b then "true" else "false"
  | int n => toString n
  | double x => doubleText x
  | str s => quote s

def prettyItems (level : Nat) : List Json → String
  | [] => ""
  | [v] => lineBreak level ++ v.prettyAt level
  | v :: vs => lineBreak level ++ v.prettyAt level ++ "," ++ prettyItems level vs

def prettyMembers (level : Nat) : List (String × Json) → String
  | [] => ""
  | [(k, v)] => lineBreak level ++ quote k ++ ": " ++ v.prettyAt level
  | (k, v) :: ms =>
    lineBreak level ++ quote k ++ ": " ++ v.prettyAt level ++ "," ++ prettyMembers level ms

end

def pretty (v : Json) : String := v.prettyAt 0

end TableTalk.Json
