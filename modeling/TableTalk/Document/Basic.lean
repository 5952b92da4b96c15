import TableTalk.Document.Spelling
/-!
# Documents

A document is what a store makes of a JSON text: numbers and strings keep their spelling, and an
object may have a name twice. `Document.compact` writes it without blanks. Spellings that JSON does
not know are mended: a point gets its digits, a hexadecimal number becomes decimal, and escapes
become those of JSON.
-/

namespace TableTalk

inductive Document where
  | null
  | bool (b : Bool)
  /-- A decimal as written. -/
  | number (spelling : List Char)
  /-- Hexadecimal digits behind a sign and their mark. -/
  | hexadecimal (negative : Bool) (digits : List Char)
  /-- What stands between the quotes of a string. -/
  | text (spelling : List Char)
  | arr (items : List Document)
  | obj (members : List (List Char × Document))

namespace Document

/-- Hexadecimal digits as a number of 64 bits. -/
def word? (digits : List Char) : Option Nat :=
  let ds := digits.dropWhile (· == '0')
  if ds.length ≤ 16 then some (ds.foldl (fun n d => 16 * n + Spelling.hexDigit d) 0) else none

/-- A decimal with a digit behind each point. -/
def pointed : List Char → List Char
  | [] => []
  | '.' :: rest =>
    if rest.head?.any Char.isDigit then '.' :: pointed rest else '.' :: '0' :: pointed rest
  | c :: rest => c :: pointed rest

/-- A decimal with digits on both sides of its point. -/
def mended : List Char → List Char
  | '-' :: '.' :: rest => '-' :: '0' :: pointed ('.' :: rest)
  | '.' :: rest => '0' :: pointed ('.' :: rest)
  | cs => pointed cs

def quoted (spelling : List Char) : List Char := '"' :: Spelling.strict spelling ++ ['"']

def signed (negative : Bool) (cs : List Char) : List Char := if negative then '-' :: cs else cs

mutual

def compactChars : Document → List Char
  | null => "null".toList
  | bool b => (if b then "true" else "false").toList
  | number s => mended s
  | hexadecimal negative digits =>
    signed negative (match word? digits with
      | some n => Nat.toDigits 10 n
      | none => "9.0e999".toList)
  | text s => quoted s
  | arr items => '[' :: itemChars items ++ [']']
  | obj members => '\x7b' :: memberChars members ++ ['\x7d']

def itemChars : List Document → List Char
  | [] => []
  | [d] => d.compactChars
  | d :: rest => d.compactChars ++ ',' :: itemChars rest

def memberChars : List (List Char × Document) → List Char
  | [] => []
  | [(n, d)] => quoted n ++ ':' :: d.compactChars
  | (n, d) :: rest => quoted n ++ ':' :: d.compactChars ++ ',' :: memberChars rest

end

/-- The document as text. -/
def compact (d : Document) : String := String.ofList d.compactChars

end Document

end TableTalk
