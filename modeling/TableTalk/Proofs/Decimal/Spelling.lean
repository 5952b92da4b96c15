import TableTalk.Decimal.Text
import TableTalk.Table.Profile
import Mathlib.Data.List.TakeWhile
import Mathlib.Tactic.SplitIfs

/-!
# Decimals in a text

What is read of a decimal at the start of a text does not depend on what follows it (`scan?_cut`).
So a text that spells a decimal between ASCII blanks spells the same one between any blanks
(`readNumber?_of_numericText?`), and the text of a whole number spells that number
(`numericText?_toString`).
-/

namespace TableTalk.Decimal

theorem spanDigits_append {ds tail : List Char} (hds : ∀ c ∈ ds, c.isDigit = true)
    (htail : ∀ c ∈ tail.head?, c.isDigit = false) : spanDigits (ds ++ tail) = (ds, tail) := by
  have htake : tail.takeWhile Char.isDigit = [] := by
    cases tail with
    | nil => rfl
    | cons c cs => rw [List.takeWhile_cons_of_neg (by simpa using htail c rfl)]
  have hdrop : tail.dropWhile Char.isDigit = tail := by
    cases tail with
    | nil => rfl
    | cons c cs => rw [List.dropWhile_cons_of_neg (by simpa using htail c rfl)]
  rw [spanDigits, List.takeWhile_append_of_pos hds, List.dropWhile_append_of_pos hds, htake, hdrop,
    List.append_nil]

theorem exists_spanDigits (cs : List Char) : ∃ ds tail, cs = ds ++ tail ∧
    (∀ c ∈ ds, c.isDigit = true) ∧ ∀ c ∈ tail.head?, c.isDigit = false := by
  refine ⟨cs.takeWhile Char.isDigit, cs.dropWhile Char.isDigit,
    List.takeWhile_append_dropWhile.symm, fun c hc => List.mem_takeWhile_imp hc, fun c hc => ?_⟩
  have h := List.head?_dropWhile_not Char.isDigit cs
  rw [Option.mem_def.1 hc] at h
  simpa using h

/-- The point of a decimal and the digits behind it. -/
def pointChars : Option (List Char) → List Char
  | none => []
  | some ds => '.' :: ds

/-- Digits, with a point or without, that go as far as they can. -/
structure Digits (whole : List Char) (fraction : Option (List Char)) (tail : List Char) : Prop where
  before : ∀ c ∈ whole, c.isDigit = true
  behind : ∀ ds ∈ fraction, ∀ c ∈ ds, c.isDigit = true
  ends : ∀ c ∈ tail.head?, c.isDigit = false
  point : fraction = none → ∀ c ∈ tail.head?, c ≠ '.'

theorem exists_digits (cs : List Char) : ∃ whole fraction tail,
    cs = whole ++ (pointChars fraction ++ tail) ∧ Digits whole fraction tail := by
  obtain ⟨whole, rest, rfl, hwhole, hrest⟩ := exists_spanDigits cs
  by_cases hpoint : ∀ c ∈ rest.head?, c ≠ '.'
  · exact ⟨whole, none, rest, rfl, hwhole, nofun, hrest, fun _ => hpoint⟩
  · obtain ⟨behind, rfl⟩ : ∃ behind, rest = '.' :: behind := by
      cases rest with
      | nil => exact absurd nofun hpoint
      | cons c cs =>
        refine ⟨cs, ?_⟩
        simp only [List.head?_cons, Option.mem_def, Option.some.injEq, forall_eq', not_not]
          at hpoint
        rw [hpoint]
    obtain ⟨ds, tail, rfl, hds, htail⟩ := exists_spanDigits behind
    refine ⟨whole, some ds, tail, rfl, hwhole, ?_, htail, nofun⟩
    rintro _ ⟨⟩
    exact hds

theorem scan?_append {whole tail : List Char} {fraction : Option (List Char)}
    (h : Digits whole fraction tail) :
    scan? (whole ++ (pointChars fraction ++ tail)) =
      if whole.isEmpty && (fraction.getD []).isEmpty then none
      else match scanExponent? tail with
        | some (e, rest) => some (⟨whole, fraction, e, true⟩, rest)
        | none => some (⟨whole, fraction, 0, false⟩, tail) := by
  cases fraction with
  | none =>
    have hspan := spanDigits_append h.before h.ends
    rw [scan?]
    simp only [pointChars, List.nil_append, hspan]
    cases tail with
    | nil => rfl
    | cons c cs =>
      have hc := h.point rfl c rfl
      split
      · rename_i heq
        exact absurd (List.cons.inj heq).1 hc
      · rfl
  | some ds =>
    have hspan : spanDigits (whole ++ '.' :: (ds ++ tail)) = (whole, '.' :: (ds ++ tail)) :=
      spanDigits_append h.before (by rintro _ ⟨⟩; decide)
    have hbehind := spanDigits_append (h.behind ds rfl) h.ends
    rw [scan?]
    rcases hexponent : scanExponent? tail with - | ⟨e, rest⟩ <;>
      simp only [pointChars, List.cons_append, hspan, hbehind, hexponent]

/-- The characters of a decimal without an exponent. -/
def IsDecimal (c : Char) : Prop := c.isDigit = true ∨ c = '.'

theorem ne_sign_of_isDecimal {c : Char} (h : IsDecimal c) : c ≠ '-' ∧ c ≠ '+' := by
  constructor <;> rintro rfl <;> rcases h with h | h <;> cases h

theorem takeSign_of_head {cs : List Char} (h : ∀ c ∈ cs.head?, c ≠ '-' ∧ c ≠ '+') :
    takeSign cs = (false, cs) := by
  fun_cases takeSign cs with
  | case1 cs => exact absurd rfl (h '-' rfl).1
  | case2 cs => exact absurd rfl (h '+' rfl).2
  | case3 => rfl

/-- The sign of a number as it is written. -/
theorem exists_sign (cs : List Char) : ∃ sign, cs = sign ++ (takeSign cs).2 ∧
    (∀ c ∈ sign, c = '-' ∨ c = '+') ∧ ∀ tail : List Char, (∀ c ∈ tail.head?, c ≠ '-' ∧ c ≠ '+') →
      takeSign (sign ++ tail) = ((takeSign cs).1, tail) := by
  fun_cases takeSign cs with
  | case1 cs => exact ⟨['-'], rfl, by simp, fun _ _ => rfl⟩
  | case2 cs => exact ⟨['+'], rfl, by simp, fun _ _ => rfl⟩
  | case3 cs => exact ⟨[], rfl, nofun, fun _ => takeSign_of_head⟩

/-- An exponent is the same in front of all that does not go on with a digit. -/
theorem scanExponent?_cut {cs rest : List Char} {e : Int} (h : scanExponent? cs = some (e, rest)) :
    ∃ c part, cs = c :: part ++ rest ∧ (c = 'e' ∨ c = 'E') ∧
      (∀ d ∈ part, d.isDigit = true ∨ d = '-' ∨ d = '+') ∧
      (∃ d ∈ part.getLast?, d.isDigit = true) ∧
      ∀ tail : List Char, (∀ d ∈ tail.head?, d.isDigit = false) →
        scanExponent? (c :: part ++ tail) = some (e, tail) := by
  cases cs with
  | nil => cases h
  | cons c cs =>
    rw [scanExponent?] at h
    split at h
    · rename_i hc
      obtain ⟨sign, hcs, hsigns, hsign⟩ := exists_sign cs
      obtain ⟨ds, tail, htail, hds, hend⟩ := exists_spanDigits (takeSign cs).2
      simp only [htail, spanDigits_append hds hend] at h
      cases ds with
      | nil => cases h
      | cons d ds =>
        simp only [Option.some.injEq, Prod.mk.injEq] at h
        obtain ⟨rfl, rfl⟩ := h
        have hd := ne_sign_of_isDecimal (.inl (hds d List.mem_cons_self))
        refine ⟨c, sign ++ d :: ds, ?_, by simpa using hc, ?_, ?_, fun tail' htail' => ?_⟩
        · rw [List.cons_append, List.append_assoc, ← htail, ← hcs]
        · exact List.forall_mem_append.2
            ⟨fun b hb => .inr (hsigns b hb), fun b hb => .inl (hds b hb)⟩
        · refine ⟨(d :: ds).getLast nofun, ?_, hds _ (List.getLast_mem _)⟩
          rw [List.getLast?_append, List.getLast?_eq_some_getLast (List.cons_ne_nil d ds)]
          rfl
        · rw [List.cons_append, scanExponent?, if_pos hc, List.append_assoc]
          simp only [hsign (d :: ds ++ tail') (by rintro _ ⟨⟩; exact hd),
            spanDigits_append hds htail']
    · cases h

theorem Digits.isDecimal {whole tail : List Char} {fraction : Option (List Char)}
    (h : Digits whole fraction tail) : ∀ c ∈ whole ++ pointChars fraction, IsDecimal c := by
  intro c hc
  rcases List.mem_append.1 hc with hc | hc
  · exact .inl (h.before c hc)
  · cases fraction with
    | none => cases hc
    | some ds =>
      rcases List.mem_cons.1 hc with rfl | hc
      · exact .inr rfl
      · exact .inl (h.behind ds rfl c hc)

/-- A decimal as it stands in a text, without what follows. -/
structure Numeral.Spelled (n : Numeral) (body : List Char) : Prop where
  scan : scan? body = some (n, [])
  head : ∃ c ∈ body.head?, IsDecimal c
  last : ∃ c ∈ body.getLast?, IsDecimal c
  unmarked : n.marked = false → n.exponent = 0

/-- What is read of a decimal does not depend on what follows it. -/
theorem scan?_cut {cs rest : List Char} {n : Numeral} (h : scan? cs = some (n, rest)) :
    ∃ body, cs = body ++ rest ∧ n.Spelled body := by
  obtain ⟨whole, fraction, tail, rfl, hdigits⟩ := exists_digits cs
  have hdecimal := hdigits.isDecimal
  rw [scan?_append hdigits] at h
  split at h
  · cases h
  · rename_i hempty
    have hne : whole ++ pointChars fraction ≠ [] := by
      intro hnil
      obtain ⟨rfl, hpoint⟩ := List.append_eq_nil_iff.1 hnil
      cases fraction with
      | none => exact hempty rfl
      | some ds => cases hpoint
    have hhead := hdecimal _ (List.head_mem hne)
    split at h
    · rename_i e rest' hexponent
      cases h
      obtain ⟨c, part, rfl, -, -, ⟨d, hd, hlast⟩, hpart⟩ := scanExponent?_cut hexponent
      have hpart := hpart [] nofun
      rw [List.append_nil] at hpart
      have hdigits' : Digits whole fraction (c :: part) :=
        ⟨hdigits.before, hdigits.behind, hdigits.ends, hdigits.point⟩
      refine ⟨whole ++ (pointChars fraction ++ (c :: part)), by simp, ?_, ?_, ?_, nofun⟩
      · rw [scan?_append hdigits', if_neg hempty, hpart]
      · refine ⟨_, ?_, hhead⟩
        rw [← List.append_assoc, List.head?_append, List.head?_eq_some_head hne]
        rfl
      · refine ⟨d, ?_, .inl hlast⟩
        rw [show whole ++ (pointChars fraction ++ c :: part) =
          whole ++ (pointChars fraction ++ [c]) ++ part by simp, List.getLast?_append, hd]
        rfl
    · cases h
      have hdigits' : Digits whole fraction [] := ⟨hdigits.before, hdigits.behind, nofun, nofun⟩
      refine ⟨whole ++ pointChars fraction, by simp, ?_, ⟨_, ?_, hhead⟩,
        ⟨_, ?_, hdecimal _ (List.getLast_mem hne)⟩, fun _ => rfl⟩
      · have hscan := scan?_append hdigits'
        rw [if_neg hempty, List.append_nil] at hscan
        exact hscan
      · rw [List.head?_eq_some_head hne]
        rfl
      · rw [List.getLast?_eq_some_getLast hne]
        rfl

theorem toNat_le_of_isDecimal {c : Char} (h : IsDecimal c) : 46 ≤ c.toNat ∧ c.toNat ≤ 57 := by
  rcases h with h | rfl
  · have := Char.isDigit_iff_toNat.1 h
    have h0 : '0'.toNat = 48 := rfl
    have h9 : '9'.toNat = 57 := rfl
    omega
  · decide

theorem not_blank_of_isDecimal {c : Char} (h : IsDecimal c) : Text.blank c = false := by
  have := toNat_le_of_isDecimal h
  simp only [Text.blank, Bool.or_eq_false_iff, Bool.and_eq_false_iff, decide_eq_false_iff_not,
    beq_eq_false_iff_ne]
  omega

theorem blank_of_asciiBlank {c : Char} (h : asciiBlank c = true) : Text.blank c = true := by
  simp only [asciiBlank, Bool.or_eq_true, beq_iff_eq] at h
  rcases h with rfl | h
  · decide
  · simp only [Text.blank, h, Bool.true_or]

theorem toLower_of_isDecimal {c : Char} (h : IsDecimal c) : c.toLower = c := by
  have hlow := toNat_le_of_isDecimal h
  refine dif_neg ?_
  rintro ⟨hA, -⟩
  have : 'A'.toNat ≤ c.toNat := hA
  have hA' : 'A'.toNat = 65 := rfl
  omega

/-- The names of the special numbers start with letters. -/
theorem special?_of_isDecimal {cs : List Char} (h : ∃ c ∈ cs.head?, IsDecimal c) :
    special? cs = none := by
  obtain ⟨c, hc, hdecimal⟩ := h
  cases cs with
  | nil => cases hc
  | cons d rest =>
    cases hc
    have hlow := toNat_le_of_isDecimal hdecimal
    have hne : ∀ (name : String) (d : Char) (ds : List Char), name.toList = d :: ds →
        57 < d.toNat → (String.ofList ((c :: rest).map Char.toLower) == name) = false := by
      intro name d ds hname hd
      rw [beq_eq_false_iff_ne]
      rintro rfl
      rw [String.toList_ofList, List.map_cons, toLower_of_isDecimal hdecimal] at hname
      rw [← (List.cons.inj hname).1] at hd
      omega
    simp only [special?, hne "inf" 'i' ['n', 'f'] rfl (by decide),
      hne "infinity" 'i' ['n', 'f', 'i', 'n', 'i', 't', 'y'] rfl (by decide),
      hne "nan" 'n' ['a', 'n'] rfl (by decide), Bool.or_self, Bool.false_eq_true, if_false]

theorem dropWhile_append_of_head {p : Char → Bool} {front core : List Char}
    (hfront : ∀ c ∈ front, p c = true) (hhead : ∃ c ∈ core.head?, p c = false) :
    (front ++ core).dropWhile p = core := by
  obtain ⟨c, hc, hp⟩ := hhead
  cases core with
  | nil => cases hc
  | cons d ds =>
    cases hc
    rw [List.dropWhile_append_of_pos hfront, List.dropWhile_cons_of_neg (by simp [hp])]

theorem trimChars_append {front core back : List Char} (hfront : ∀ c ∈ front, Text.blank c = true)
    (hback : ∀ c ∈ back, Text.blank c = true) (hhead : ∃ c ∈ core.head?, Text.blank c = false)
    (hlast : ∃ c ∈ core.getLast?, Text.blank c = false) :
    Text.trimChars (front ++ (core ++ back)) = core := by
  have hstart : ∃ c ∈ (core ++ back).head?, Text.blank c = false := by
    obtain ⟨c, hc, hblank⟩ := hhead
    refine ⟨c, ?_, hblank⟩
    rw [List.head?_append, hc]
    rfl
  rw [Text.trimChars, Text.trimStart, dropWhile_append_of_head hfront hstart, Text.trimEnd,
    Text.dropWhileEnd, List.reverse_append, dropWhile_append_of_head, List.reverse_reverse]
  · exact fun c hc => hback c (List.mem_reverse.1 hc)
  · rwa [List.head?_reverse]

/-- A text that spells a decimal for a column of numbers spells it for every reader. -/
theorem readNumber?_of_numericText? {cs : List Char} {negative : Bool} {n : Numeral}
    (h : numericText? cs = some (negative, n)) :
    readNumber? (Text.trimChars cs) = some (signed negative n.value) ∧
      (n.marked = false → n.exponent = 0) := by
  obtain ⟨front, rest, hcs, hfront, hrest⟩ : ∃ front rest, cs = front ++ rest ∧
      (∀ c ∈ front, asciiBlank c = true) ∧ rest = cs.dropWhile asciiBlank :=
    ⟨cs.takeWhile asciiBlank, _, List.takeWhile_append_dropWhile.symm,
      fun c hc => List.mem_takeWhile_imp hc, rfl⟩
  rw [numericText?, ← hrest] at h
  obtain ⟨sign, hsign, hsigns, htake⟩ := exists_sign rest
  simp only at h
  split at h
  · rename_i n' back hscan
    split at h
    · rename_i hback
      cases h
      obtain ⟨body, hbody, hspelled⟩ := scan?_cut hscan
      obtain ⟨c, hc, hdecimal⟩ := hspelled.head
      obtain ⟨d, hd, hdecimal'⟩ := hspelled.last
      have hcore : Text.trimChars cs = sign ++ body := by
        rw [hcs, hsign, hbody, ← List.append_assoc sign]
        refine trimChars_append (fun c hc => blank_of_asciiBlank (hfront c hc))
          (fun c hc => blank_of_asciiBlank (List.all_eq_true.1 hback c hc)) ?_ ?_
        · cases sign with
          | nil => exact ⟨c, hc, not_blank_of_isDecimal hdecimal⟩
          | cons s sign =>
            refine ⟨s, rfl, ?_⟩
            rcases hsigns s List.mem_cons_self with rfl | rfl <;> decide
        · refine ⟨d, ?_, not_blank_of_isDecimal hdecimal'⟩
          rw [List.getLast?_append, hd]
          rfl
      refine ⟨?_, hspelled.unmarked⟩
      have htake' := htake body fun c' hc' => by
        rw [hc] at hc'
        cases hc'
        exact ne_sign_of_isDecimal hdecimal
      rw [hcore, readNumber?, htake']
      simp only [special?_of_isDecimal hspelled.head, hspelled.scan]
    · cases h
  · cases h

theorem digitsValue_toDigits (n : Nat) : digitsValue (Nat.toDigits 10 n) = n := by
  rw [digitsValue]
  have h := Nat.ofDigitChars_ten_toDigits (n := n)
  rw [Nat.ofDigitChars_eq_foldl] at h
  exact h

/-- A whole number in digits. -/
def Numeral.ofNat (n : Nat) : Numeral := ⟨Nat.toDigits 10 n, none, 0, false⟩

theorem scan?_toDigits (n : Nat) : scan? (Nat.toDigits 10 n) = some (.ofNat n, []) := by
  have hdigits : Digits (Nat.toDigits 10 n) none [] :=
    ⟨fun c hc => Nat.isDigit_of_mem_toDigits (by decide) (by decide) hc, nofun, nofun, nofun⟩
  have h := scan?_append hdigits
  simp only [pointChars, List.append_nil] at h
  rw [h, if_neg]
  · rfl
  · simp [Nat.toDigits_ne_nil]

theorem not_asciiBlank_of_isDecimal {c : Char} (h : IsDecimal c) : asciiBlank c = false := by
  rw [Bool.eq_false_iff]
  intro hb
  have hblank := not_blank_of_isDecimal h
  rw [blank_of_asciiBlank hb] at hblank
  cases hblank

/-- A decimal that makes up the rest of a text behind a sign. -/
theorem numericText?_of_scan (negative : Bool) {ds : List Char} {n : Numeral}
    (hhead : ∃ c ∈ ds.head?, IsDecimal c) (hscan : scan? ds = some (n, [])) :
    numericText? (signChars negative ++ ds) = some (negative, n) := by
  cases negative with
  | true =>
    have hspan : ('-' :: ds).dropWhile asciiBlank = '-' :: ds :=
      List.dropWhile_cons_of_neg (by decide)
    simp only [numericText?, signChars, if_true, List.cons_append, List.nil_append, hspan, takeSign,
      hscan, List.all_nil]
  | false =>
    obtain ⟨c, hc, hdecimal⟩ := hhead
    have hspan : ([] ++ ds).dropWhile asciiBlank = ds :=
      dropWhile_append_of_head nofun ⟨c, hc, not_asciiBlank_of_isDecimal hdecimal⟩
    rw [List.nil_append] at hspan
    have htake : takeSign ds = (false, ds) := takeSign_of_head fun d hd => by
      rw [hc] at hd
      cases hd
      exact ne_sign_of_isDecimal hdecimal
    simp only [numericText?, signChars, Bool.false_eq_true, if_false, List.nil_append, hspan,
      htake, hscan, List.all_nil, if_true]

theorem numericText?_toDigits (negative : Bool) (n : Nat) :
    numericText? (signChars negative ++ Nat.toDigits 10 n) = some (negative, .ofNat n) := by
  have hhead : ∃ c ∈ (Nat.toDigits 10 n).head?, IsDecimal c := by
    refine ⟨(Nat.toDigits 10 n).head Nat.toDigits_ne_nil, List.head?_eq_some_head _, .inl ?_⟩
    exact Nat.isDigit_of_mem_toDigits (by decide) (by decide) (List.head_mem _)
  exact numericText?_of_scan negative hhead (scan?_toDigits n)

/-- Digits, with a point behind the first of them or without, spell a number. -/
theorem numericText?_digits {whole : List Char} {fraction : Option (List Char)}
    (h : Digits whole fraction []) (hwhole : whole ≠ []) :
    numericText? (whole ++ pointChars fraction) = some (false, ⟨whole, fraction, 0, false⟩) := by
  have hscan := scan?_append h
  rw [if_neg (by simp [hwhole]), List.append_nil] at hscan
  have hhead : ∃ c ∈ (whole ++ pointChars fraction).head?, IsDecimal c := by
    refine ⟨whole.head hwhole, ?_, .inl (h.before _ (List.head_mem hwhole))⟩
    rw [List.head?_append, List.head?_eq_some_head hwhole]
    rfl
  exact numericText?_of_scan false hhead hscan

/-- The text of a whole number spells it, whatever its sign. -/
theorem numericText?_toString (n : Int) : numericText? (toString n).toList =
    some (decide (n < 0), .ofNat n.natAbs) := by
  have htext : (toString n).toList = signChars (decide (n < 0)) ++ Nat.toDigits 10 n.natAbs := by
    rw [Int.toString_eq_repr, Int.repr_eq_if]
    split_ifs with h
    · rw [Nat.toList_repr, decide_eq_false (by omega), show n.toNat = n.natAbs by omega]
      rfl
    · rw [String.toList_append, Nat.toList_repr, decide_eq_true (by omega),
        show (-n).toNat = n.natAbs by omega]
      rfl
  rw [htext, numericText?_toDigits]

end TableTalk.Decimal
