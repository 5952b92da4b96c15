import Mathlib.Data.List.TakeWhile
import Mathlib.Tactic.ByContra
import Mathlib.Tactic.SplitIfs
import TableTalk.Calendar.Reading

/-!
# Texts of one meaning

The outline of a text is what is left of it without blanks and the characters of numbers. A pattern
has an outline too, that of its literal characters, and it reads texts of its own outline only
(`Reading.outline_of_pattern?`). A text with an offset has more behind its second colon than any
pattern has there (`Reading.outline_of_zoned?`), and patterns of one outline differ by a fraction
that may be missing (`Reading.eq_or_fraction`). So all readers that take a text give the same
timestamp (`Reading.agree`), whatever any of them finds is what the text spells
(`Timestamp.readChars?_eq_some_iff`), and the order in which they are tried does not matter
(`Timestamp.read?_unambiguous`).
-/

namespace TableTalk

namespace Reading

open Decimal

/-- Neither blank nor a digit, a sign or a point. -/
def isMark (c : Char) : Bool := !(Text.blank c || c.isDigit || c == '-' || c == '+' || c == '.')

def outline (cs : List Char) : List Char := cs.filter isMark

def Item.outline : Item → List Char
  | .literal c => Reading.outline [c]
  | _ => []

def Pattern.outline (p : Pattern) : List Char := p.flatMap Item.outline

section Outlines

variable {cs rest : List Char} {n w : Nat}

theorem outline_append (cs ds : List Char) : outline (cs ++ ds) = outline cs ++ outline ds :=
  List.filter_append cs ds

theorem outline_eq_nil (h : ∀ c ∈ cs, isMark c = false) : outline cs = [] :=
  List.filter_eq_nil_iff.2 fun c hc => by simp [h c hc]

theorem outline_trimStart (cs : List Char) : outline (Text.trimStart cs) = outline cs := by
  have hblanks : outline (cs.takeWhile Text.blank) = [] := outline_eq_nil fun c hc => by
    simp [isMark, List.mem_takeWhile_imp hc]
  conv_rhs => rw [← List.takeWhile_append_dropWhile (p := Text.blank) (l := cs)]
  rw [outline_append, hblanks]
  rfl

/-- What is left of a text behind digits. -/
def Behind (cs rest : List Char) : Prop := ∃ ds, cs = ds ++ rest ∧ ∀ c ∈ ds, c.isDigit = true

theorem Behind.outline_eq (h : Behind cs rest) : outline cs = outline rest := by
  obtain ⟨ds, rfl, hds⟩ := h
  have hdigits : outline ds = [] := outline_eq_nil fun c hc => by simp [isMark, hds c hc]
  rw [outline_append, hdigits]
  rfl

theorem behind_spanDigits (cs : List Char) : Behind cs (spanDigits cs).2 :=
  ⟨_, List.takeWhile_append_dropWhile.symm, fun _ hc => List.mem_takeWhile_imp hc⟩

theorem behind_take (w : Nat) (cs : List Char) :
    Behind cs (cs.drop ((spanDigits cs).1.take w).length) := by
  have hprefix : (spanDigits cs).1.take w <+: cs :=
    (List.take_prefix _ _).trans (List.takeWhile_prefix _)
  exact ⟨_, (List.prefix_iff_eq_append.1 hprefix).symm,
    fun _ hc => List.mem_takeWhile_imp (List.mem_of_mem_take hc)⟩

theorem behind_digits? (h : digits? w cs = some (n, rest)) : Behind cs rest := by
  unfold digits? at h
  split at h
  · cases h
  · cases h
    exact behind_take w cs

theorem behind_exactDigits? (h : exactDigits? w cs = some (n, rest)) : Behind cs rest := by
  simp only [exactDigits?] at h
  split at h
  · next hlength =>
    cases h
    exact hlength ▸ behind_take w cs
  · cases h

theorem behind_allDigits? (h : allDigits? cs = some (n, rest)) : Behind cs rest := by
  have hspan := behind_spanDigits cs
  unfold allDigits? at h
  split at h
  · cases h
  · next hds =>
    cases h
    rwa [hds] at hspan

theorem behind_nano? (h : nano? cs = some (n, rest)) : Behind cs rest := by
  have hspan := behind_spanDigits cs
  unfold nano? at h
  split at h
  · cases h
  · next hds =>
    cases h
    rwa [hds] at hspan

theorem outline_two? (h : two? cs = some (n, rest)) : outline cs = outline rest :=
  (outline_trimStart cs).symm.trans (behind_digits? h).outline_eq

theorem outline_year? {y : Int} (h : year? cs = some (y, rest)) : outline cs = outline rest := by
  unfold year? at h
  split at h
  all_goals
    obtain ⟨⟨n, tail⟩, hread, hrest⟩ := Option.map_eq_some_iff.1 h
    cases hrest
  · exact (behind_allDigits? hread).outline_eq
  · exact (behind_allDigits? hread).outline_eq
  · exact (behind_digits? hread).outline_eq

theorem outline_behind? {c : Char} (h : Text.behind? [c] cs = some rest) :
    outline cs = outline [c] ++ outline rest := by
  rw [Text.eq_append_of_behind? h, outline_append]

/-- Digits of full width and the character behind them, whatever is read then. -/
theorem outline_of_joined {α : Type} {c : Char} {k : Nat × List Char → List Char → Option α}
    {a : α} (h : ((exactDigits? w cs).bind fun x => (Text.behind? [c] x.2).bind (k x)) = some a) :
    ∃ x rest, outline cs = outline [c] ++ outline rest ∧ k x rest = some a := by
  obtain ⟨x, hdigits, h⟩ := Option.bind_eq_some_iff.1 h
  obtain ⟨rest, hbehind, h⟩ := Option.bind_eq_some_iff.1 h
  exact ⟨x, rest, (behind_exactDigits? hdigits).outline_eq.trans (outline_behind? hbehind), h⟩

/-- What an item reads has the outline of the item. -/
theorem outline_of_item? {f g : Fields} {i : Item} (h : item? f cs i = some (g, rest)) :
    outline cs = i.outline ++ outline rest := by
  have hnumber : ∀ k : Nat → Fields, (two? cs).map (fun x => (k x.1, x.2)) = some (g, rest) →
      outline cs = outline rest := fun k h => by
    obtain ⟨⟨n, tail⟩, hread, hrest⟩ := Option.map_eq_some_iff.1 h
    cases hrest
    exact outline_two? hread
  cases i with
  | literal c =>
    obtain ⟨tail, hread, hrest⟩ := Option.map_eq_some_iff.1 h
    cases hrest
    exact outline_behind? hread
  | blanks =>
    cases h
    exact (outline_trimStart cs).symm
  | year =>
    obtain ⟨⟨n, tail⟩, hread, hrest⟩ := Option.map_eq_some_iff.1 h
    cases hrest
    exact (outline_trimStart cs).symm.trans (outline_year? hread)
  | month => exact hnumber (fun n => { f with month := n }) h
  | day => exact hnumber (fun n => { f with day := n }) h
  | hour => exact hnumber (fun n => { f with hour := n }) h
  | minute => exact hnumber (fun n => { f with minute := n }) h
  | second => exact hnumber (fun n => { f with second := n }) h
  | fraction =>
    simp only [item?] at h
    split at h
    · obtain ⟨⟨n, tail⟩, hread, hrest⟩ := Option.map_eq_some_iff.1 h
      cases hrest
      exact (behind_nano? hread).outline_eq
    · cases h
      rfl

theorem outline_of_items? {p : Pattern} {f g : Fields} (h : items? f cs p = some (g, rest)) :
    outline cs = p.outline ++ outline rest := by
  induction p generalizing f cs with
  | nil =>
    cases h
    rfl
  | cons i p ih =>
    obtain ⟨⟨f', tail⟩, hitem, hitems⟩ := Option.bind_eq_some_iff.1 h
    rw [outline_of_item? hitem, ih hitems, ← List.append_assoc]
    rfl

end Outlines

theorem items?_append : ∀ {p : Pattern} {f : Fields} {cs : List Char} (q : Pattern),
    items? f cs (p ++ q) = (items? f cs p).bind fun (f, cs) => items? f cs q
  | [], _, _, _ => rfl
  | i :: p, f, cs, q => by
    rw [List.cons_append, items?, items?, Option.bind_assoc]
    exact congrArg _ (funext fun _ => items?_append q)

section Forms

variable {cs : List Char} {p q : Pattern} {t u : Timestamp}

theorem items?_of_pattern? (h : pattern? p cs = some t) :
    ∃ f, items? {} cs p = some (f, []) ∧ f.timestamp? = some t := by
  unfold pattern? at h
  split at h
  · next f hitems => exact ⟨f, hitems, h⟩
  · cases h

/-- A pattern reads texts of its own outline only. -/
theorem outline_of_pattern? (h : pattern? p cs = some t) : outline cs = p.outline := by
  obtain ⟨f, hitems, -⟩ := items?_of_pattern? h
  exact (outline_of_items? hitems).trans (List.append_nil _)

/-- What is read without a fraction is read the same where there may be one. -/
theorem pattern?_fraction (h : pattern? p cs = some t) :
    pattern? (p ++ [.fraction]) cs = some t := by
  obtain ⟨f, hitems, hfields⟩ := items?_of_pattern? h
  have hfraction : items? {} cs (p ++ [.fraction]) = some (f, []) := by
    rw [items?_append, hitems]
    rfl
  rw [pattern?, hfraction]
  exact hfields

/-- Universal time is marked by a letter, and hours and minutes are joined by a colon. -/
theorem outline_of_offset? {m : Int} (h : offset? cs = some m) : outline cs ≠ [] := by
  unfold offset? at h
  split at h
  · decide
  · decide
  · next c tail _ _ =>
    dsimp only at h
    -- the three ways to read the sign go on alike
    split_ifs at h
    all_goals
      obtain ⟨sign, -, h⟩ := Option.bind_eq_some_iff.1 h
      obtain ⟨hours, rest, hcolon, -⟩ := outline_of_joined h
      rw [← List.singleton_append, outline_append, hcolon]
      exact List.append_ne_nil_of_right_ne_nil _ (List.cons_ne_nil _ _)
  · cases h

/-- A text with an offset has more behind its second colon. -/
theorem outline_of_zoned? (h : zoned? cs = some t) :
    ∃ sep ∈ [['T'], ['t'], []], ∃ zone, zone ≠ [] ∧ outline cs = sep ++ [':', ':'] ++ zone := by
  unfold zoned? at h
  dsimp only at h
  obtain ⟨year, cs₁, hyear, h⟩ := outline_of_joined h
  obtain ⟨month, cs₂, hmonth, h⟩ := outline_of_joined h
  obtain ⟨⟨day, cs₃⟩, hday, h⟩ := Option.bind_eq_some_iff.1 h
  have hdate : outline cs = outline cs₃ :=
    hyear.trans (hmonth.trans (behind_exactDigits? hday).outline_eq)
  cases cs₃ with
  | nil => cases h
  | cons c cs₄ =>
    dsimp only at h
    split_ifs at h with hsep
    · obtain ⟨_, ⟨⟩, h⟩ := Option.bind_eq_some_iff.1 h
      obtain ⟨hour, cs₅, hhour, h⟩ := outline_of_joined h
      obtain ⟨minute, cs₆, hminute, h⟩ := outline_of_joined h
      obtain ⟨⟨second, cs₇⟩, hsecond, h⟩ := Option.bind_eq_some_iff.1 h
      have hclock : outline cs₄ = [':', ':'] ++ outline cs₇ := by
        rw [hhour, hminute, (behind_exactDigits? hsecond).outline_eq]
        rfl
      have hzone : outline cs₇ ≠ [] := by
        dsimp only at h
        split at h
        · obtain ⟨nano, hnano, h⟩ := Option.bind_eq_some_iff.1 h
          obtain ⟨offset, hoffset, -⟩ := Option.bind_eq_some_iff.1 h
          exact (behind_nano? hnano).outline_eq.trans_ne (outline_of_offset? hoffset)
        · obtain ⟨_, ⟨⟩, h⟩ := Option.bind_eq_some_iff.1 h
          obtain ⟨offset, hoffset, -⟩ := Option.bind_eq_some_iff.1 h
          exact outline_of_offset? hoffset
      refine ⟨outline [c], ?_, outline cs₇, hzone, ?_⟩
      · rcases hsep with rfl | rfl | rfl <;> decide
      · rw [hdate, ← List.singleton_append, outline_append, hclock, List.append_assoc]
    · cases h

/-- The patterns of a date with a time of day and that of a date alone. -/
def forms : List Pattern := patterns ++ [dateItems]

theorem mem_readers_iff {read : List Char → Option Timestamp} :
    read ∈ readers ↔ read = zoned? ∨ ∃ p ∈ forms, read = pattern? p := by
  have hreaders : readers = zoned? :: forms.map pattern? := rfl
  simp only [hreaders, List.mem_cons, List.mem_map, eq_comm]

/-- The second colon of a pattern is its last mark. -/
theorem outline_of_prefix : ∀ p ∈ forms, ∀ sep ∈ [['T'], ['t'], []],
    sep ++ [':', ':'] <+: p.outline → p.outline = sep ++ [':', ':'] := by
  decide

/-- Patterns of one outline differ at most by a fraction at the end. -/
theorem eq_or_fraction : ∀ p ∈ forms, ∀ q ∈ forms, Pattern.outline p = Pattern.outline q →
    q = p ∨ q = p ++ [.fraction] ∨ p = q ++ [.fraction] := by
  decide

theorem pattern?_agree (hp : p ∈ forms) (hq : q ∈ forms) (ht : pattern? p cs = some t)
    (hu : pattern? q cs = some u) : t = u := by
  have houtline := (outline_of_pattern? ht).symm.trans (outline_of_pattern? hu)
  rcases eq_or_fraction p hp q hq houtline with rfl | rfl | rfl
  · exact Option.some.inj (ht.symm.trans hu)
  · exact Option.some.inj ((pattern?_fraction ht).symm.trans hu)
  · exact Option.some.inj (ht.symm.trans (pattern?_fraction hu))

theorem pattern?_of_zoned? (ht : zoned? cs = some t) (hp : p ∈ forms) : pattern? p cs = none := by
  obtain ⟨sep, hsep, zone, hzone, hcs⟩ := outline_of_zoned? ht
  by_contra hsome
  obtain ⟨u, hu⟩ := Option.ne_none_iff_exists'.1 hsome
  have hforms := hcs.symm.trans (outline_of_pattern? hu)
  have hprefix := outline_of_prefix p hp sep hsep ⟨zone, hforms⟩
  exact hzone (List.append_right_eq_self.1 (hforms.trans hprefix))

theorem agree {read read' : List Char → Option Timestamp} (hread : read ∈ readers)
    (hread' : read' ∈ readers) (ht : read cs = some t) (hu : read' cs = some u) : t = u := by
  have hzoned : ∀ {p}, p ∈ forms → ∀ {t u}, zoned? cs = some t → pattern? p cs = some u → False :=
    fun hp t u ht hu => by simp [pattern?_of_zoned? ht hp] at hu
  rcases mem_readers_iff.1 hread with rfl | ⟨p, hp, rfl⟩ <;>
    rcases mem_readers_iff.1 hread' with rfl | ⟨q, hq, rfl⟩
  · exact Option.some.inj (ht.symm.trans hu)
  · exact (hzoned hq ht hu).elim
  · exact (hzoned hp hu ht).elim
  · exact pattern?_agree hp hq ht hu

/-- No reader is idle. -/
theorem exists_text {read : List Char → Option Timestamp} (hread : read ∈ readers) :
    ∃ cs t, read cs = some t := by
  have htakes : ∀ text : String, (read text.toList).isSome → ∃ cs t, read cs = some t :=
    fun text h => ⟨text.toList, Option.isSome_iff_exists.1 h⟩
  simp only [readers, patterns, List.map_cons, List.map_nil, List.cons_append, List.nil_append,
    List.mem_cons, List.not_mem_nil, or_false] at hread
  rcases hread with rfl | rfl | rfl | rfl | rfl | rfl | rfl | rfl
  · exact htakes "2024-03-05T08:15:30+02:00" (by decide)
  · exact htakes "2024-03-05T08:15:30.25" (by decide)
  · exact htakes "2024-03-05T08:15:30" (by decide)
  · exact htakes "2024-03-05 08:15:30.25" (by decide)
  · exact htakes "2024-03-05 08:15:30" (by decide)
  · exact htakes "2024-03-05T08:15" (by decide)
  · exact htakes "2024-03-05 08:15" (by decide)
  · exact htakes "2024-03-05" (by decide)

end Forms

end Reading

/-- If all that is found is the same, it does not matter what is tried first. -/
theorem findSome?_eq_some_iff_of_agree {α β : Type} {f : α → Option β} {l : List α} {x : β}
    (h : ∀ a ∈ l, ∀ b ∈ l, ∀ x y, f a = some x → f b = some y → x = y) :
    l.findSome? f = some x ↔ ∃ a ∈ l, f a = some x := by
  refine ⟨List.exists_of_findSome?_eq_some, fun ⟨a, ha, hx⟩ => ?_⟩
  have hsome : (l.findSome? f).isSome := List.findSome?_isSome_iff.2 ⟨a, ha, hx ▸ rfl⟩
  obtain ⟨y, hfound⟩ := Option.isSome_iff_exists.1 hsome
  obtain ⟨b, hb, hy⟩ := List.exists_of_findSome?_eq_some hfound
  rw [hfound, h a ha b hb x y hx hy]

namespace Timestamp

/-- What any reader finds in a text is the timestamp that the text spells. -/
theorem readChars?_eq_some_iff {cs : List Char} {t : Timestamp} :
    readChars? cs = some t ↔ ∃ read ∈ Reading.readers, read (Text.trimChars cs) = some t :=
  findSome?_eq_some_iff_of_agree fun _ hread _ hread' _ _ => Reading.agree hread hread'

/-- Each reader takes some texts, and the readers that take a text give the same timestamp, so they
can be tried in any order. -/
theorem read?_unambiguous :
    (∀ read ∈ Reading.readers, ∃ cs t, read cs = some t) ∧
    (∀ cs, ∀ read ∈ Reading.readers, ∀ read' ∈ Reading.readers, ∀ t u,
      read cs = some t → read' cs = some u → t = u) ∧
    ∀ readers : List (List Char → Option Timestamp), readers.Perm Reading.readers → ∀ s : String,
      readers.findSome? (fun read => read (Text.trimChars s.toList)) = read? s := by
  refine ⟨fun _ => Reading.exists_text, fun cs _ hread _ hread' _ _ => Reading.agree hread hread',
    fun readers hperm s => ?_⟩
  have hmem : ∀ {read}, read ∈ readers ↔ read ∈ Reading.readers := hperm.mem_iff
  refine Option.ext fun t => ?_
  rw [read?, readChars?_eq_some_iff, findSome?_eq_some_iff_of_agree fun _ hread _ hread' _ _ =>
    Reading.agree (hmem.1 hread) (hmem.1 hread')]
  simp only [hmem]

/-- With seconds and no fraction, the reader that comes first from the end of the readers is not the
one from their front. -/
theorem read?_unambiguous_seconds :
    (∃ t u, Reading.pattern? Reading.patterns[2] "2024-3-05  8:15:30".toList = some t ∧
      Reading.pattern? Reading.patterns[3] "2024-3-05  8:15:30".toList = some u ∧ t = u) ∧
    Reading.readers.reverse.findSome? (fun read =>
      read (Text.trimChars " 2024-3-05  8:15:30 ".toList)) = read? " 2024-3-05  8:15:30 " ∧
    read? " 2024-3-05  8:15:30 " = of? 2024 3 5 8 15 30 0 := by
  obtain ⟨-, hagree, horder⟩ := read?_unambiguous
  obtain ⟨t, ht⟩ := Option.isSome_iff_exists.1 (show (Reading.pattern? Reading.patterns[2]
    "2024-3-05  8:15:30".toList).isSome by decide)
  obtain ⟨u, hu⟩ := Option.isSome_iff_exists.1 (show (Reading.pattern? Reading.patterns[3]
    "2024-3-05  8:15:30".toList).isSome by decide)
  have heq : t = u := hagree _ _ (by simp [Reading.readers, Reading.patterns]) _
    (by simp [Reading.readers, Reading.patterns]) t u ht hu
  exact ⟨⟨t, u, ht, hu, heq⟩, horder _ (List.reverse_perm _) _, by decide⟩

end Timestamp

end TableTalk
