/-!
# Strings as spelled in documents

A document keeps what stands between the quotes of a string, escapes and all. `codes` gives the code
points that a spelling stands for. They may be halves of a surrogate pair, which are no characters,
so a spelling is more than a text. A line end behind a backslash stands for nothing, and for U+0000
at the end of a string. `strict` spells the same string with the escapes of JSON only.
-/

namespace TableTalk.Spelling

/-- The code of an escape that stands for nothing. -/
def unknown : Nat := 0x99999

def hexDigit (c : Char) : Nat := (c.toNat + 9 * (c.toNat / 64 % 2)) % 16

/-- Four hexadecimal digits as a number. -/
def unit (a b c d : Char) : Nat :=
  4096 * hexDigit a + 256 * hexDigit b + 16 * hexDigit c + hexDigit d

/-- The code point of two halves of a pair. -/
def pair? (high low : Nat) : Option Nat :=
  if 0xD800 ≤ high ∧ high < 0xDC00 ∧ 0xDC00 ≤ low ∧ low < 0xE000 then
    some (0x10000 + (high - 0xD800) * 1024 + (low - 0xDC00))
  else none

/-- The code of an escape of one letter. -/
def letter? : Char → Option Nat
  | 'b' => some 8
  | 'f' => some 12
  | 'n' => some 10
  | 'r' => some 13
  | 't' => some 9
  | 'v' => some 11
  | '0' => some 0
  | '\'' => some '\''.toNat
  | '"' => some '"'.toNat
  | '/' => some '/'.toNat
  | '\\' => some '\\'.toNat
  | _ => none

/-- Line ends that may stand behind a backslash. -/
def lineEnd (c : Char) : Bool := c == '\n' || c == '\r' || c == '\u2028' || c == '\u2029'

/-- What follows a line end behind a backslash. -/
def continued? : List Char → Option (List Char)
  | '\\' :: '\r' :: '\n' :: rest => some rest
  | '\\' :: c :: rest => if lineEnd c then some rest else none
  | _ => none

theorem length_lt_of_continued? {cs rest : List Char} (h : continued? cs = some rest) :
    rest.length < cs.length := by
  unfold continued? at h
  split at h
  · cases h
    simp only [List.length_cons]
    omega
  · split at h
    · cases h
      simp only [List.length_cons]
      omega
    · cases h
  · cases h

/-- The code points that a spelling stands for. -/
def codes (cs : List Char) : List Nat :=
  match (continued? cs).attach with
  | some ⟨[], _⟩ => [0]
  | some ⟨rest, _⟩ => codes rest
  | none =>
    match cs with
    | [] => []
    | '\\' :: 'u' :: a :: b :: c :: d :: rest =>
      match rest with
      | '\\' :: 'u' :: e :: f :: g :: h :: rest =>
        match pair? (unit a b c d) (unit e f g h) with
        | some n => n :: codes rest
        | none => unit a b c d :: codes ('\\' :: 'u' :: e :: f :: g :: h :: rest)
      | rest => unit a b c d :: codes rest
    | '\\' :: 'x' :: a :: b :: rest => (16 * hexDigit a + hexDigit b) :: codes rest
    | '\\' :: c :: rest =>
      match letter? c with
      | some n => n :: codes rest
      | none => [unknown]
    | ['\\'] => [unknown]
    | c :: rest => c.toNat :: codes rest
termination_by cs.length
decreasing_by
  · exact length_lt_of_continued? (by assumption)
  all_goals
    simp only [List.length_cons]
    omega

/-- The same string with the escapes of JSON only. -/
def strict : List Char → List Char
  | [] => []
  | '"' :: rest => '\\' :: '"' :: strict rest
  | '\\' :: '\'' :: rest => '\'' :: strict rest
  | '\\' :: 'v' :: rest => "\\u0009".toList ++ strict rest
  | '\\' :: '0' :: rest => "\\u0000".toList ++ strict rest
  | '\\' :: 'x' :: a :: b :: rest => '\\' :: 'u' :: '0' :: '0' :: a :: b :: strict rest
  | '\\' :: '\r' :: '\n' :: rest => strict rest
  | '\\' :: c :: rest => if lineEnd c then strict rest else '\\' :: c :: strict rest
  | c :: rest => c :: strict rest

end TableTalk.Spelling
