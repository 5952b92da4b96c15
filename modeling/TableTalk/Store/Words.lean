import TableTalk.Store.OwnTable
/-!
# Words of a text

`fts3tokenize` lists the words of a text: runs of letters and digits, to which every character
beyond ASCII belongs, in small letters and with the bytes in front of them and up to their ends.
-/

namespace TableTalk.Words

structure Word where
  spelling : String
  start : Nat
  stop : Nat
deriving DecidableEq, Repr

def wordChar (c : Char) : Bool := c.isAlphanum || 128 ≤ c.toNat

/-- The words of a text behind some characters of a word. -/
def scan (start place : Nat) (word : List Char) : List Char → List Word
  | [] => if word.isEmpty then [] else [⟨Text.lowerAscii (String.ofList word), start, place⟩]
  | c :: cs =>
    let next := place + c.utf8Size
    if wordChar c then scan start next (word ++ [c]) cs
    else if word.isEmpty then scan next next [] cs
    else ⟨Text.lowerAscii (String.ofList word), start, place⟩ :: scan next next [] cs

def columns : List Column :=
  ["input", "token", "start", "end", "position"].map fun n => ⟨n, none⟩

/-- The words of the text that is asked for. -/
def records (asked : Nat → Option Cell) : Except Fault (List Record) :=
  match asked 0 with
  | none => .error .noText
  | some c =>
    .ok ((scan 0 0 [] c.shown.toList).mapIdx fun i w =>
      ⟨i + 1, [.text c.shown, .text w.spelling, .int w.start, .int w.stop, .int i]⟩)

/-- The table of the words. -/
def table : OwnTable :=
  ⟨columns, [], fun asked => asked.filter (· = 0), fun asked _ => records asked, fun _ => false⟩

end TableTalk.Words
