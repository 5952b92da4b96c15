/-!
# Blank characters and trimming

A character is blank when it has the Unicode property `White_Space`. Trimming works on lists of
characters, and the versions on strings are wrappers: `trim` takes blanks off both ends, `isBlank`
says that nothing else is there.
-/

namespace TableTalk.Text

/-- The twenty-five characters with the property `White_Space`. -/
def blank (c : Char) : Bool :=
  let n := c.toNat
  (9 ≤ n && n ≤ 13) || n == 0x20 || n == 0x85 || n == 0xA0 || n == 0x1680
    || (0x2000 ≤ n && n ≤ 0x200A) || n == 0x2028 || n == 0x2029 || n == 0x202F
    || n == 0x205F || n == 0x3000

/-- Drops the longest run of elements at the end that satisfy `p`. -/
def dropWhileEnd {α : Type _} (p : α → Bool) (cs : List α) : List α :=
  (cs.reverse.dropWhile p).reverse

def trimStart (cs : List Char) : List Char := cs.dropWhile blank

def trimEnd (cs : List Char) : List Char := dropWhileEnd blank cs

def trimChars (cs : List Char) : List Char := trimEnd (trimStart cs)

def trim (s : String) : String := String.ofList (trimChars s.toList)

/-- Nothing but blank characters. -/
def isBlank (s : String) : Bool := s.toList.all blank

/-- The characters of `A` to `Z` are replaced by those of `a` to `z`, all others are kept. -/
def lowerAscii (s : String) : String := String.ofList (s.toList.map Char.toLower)

/-- Equality up to the case of the letters `A` to `Z`. -/
def sameAscii (s t : String) : Bool := lowerAscii s == lowerAscii t

/-- The rest of `cs` behind `p`, if `cs` starts with `p`. -/
def behind? (p cs : List Char) : Option (List Char) :=
  match p, cs with
  | [], cs => some cs
  | _ :: _, [] => none
  | a :: p, c :: cs => if a == c then behind? p cs else none

theorem behind?_append (p cs : List Char) : behind? p (p ++ cs) = some cs := by
  induction p with
  | nil => rfl
  | cons a p ih => simp [behind?, ih]

theorem eq_append_of_behind? {p cs rest : List Char} (h : behind? p cs = some rest) :
    cs = p ++ rest := by
  induction p generalizing cs with
  | nil => simpa [behind?] using h
  | cons a p ih =>
    cases cs with
    | nil => simp [behind?] at h
    | cons c cs =>
      simp only [behind?, beq_iff_eq] at h
      split at h
      · next hac => rw [hac, ih h]; rfl
      · cases h

end TableTalk.Text
