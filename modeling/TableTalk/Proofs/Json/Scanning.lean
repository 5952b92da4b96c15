import TableTalk.Json.Parser
import TableTalk.Proofs.Decimal.Spelling

/-!
# Where scanners stop

A scanner takes a part off the start of a text. It takes the same part whatever stands behind it, if
that cannot belong to the part: a string ends with its quote (`Json.stringBody?_cut`), and a number in
front of what continues no number (`Json.number?_cut`).
-/

namespace TableTalk.Json

open Decimal

/-- A text that does not continue a number in front of it. -/
def Stops (tail : List Char) : Prop :=
  ∀ c ∈ tail.head?, c.isDigit = false ∧ c ≠ '.' ∧ c ≠ 'e' ∧ c ≠ 'E'

/-- The characters of numbers. -/
def Numeric (c : Char) : Prop := c.isDigit = true ∨ c ∈ ['.', 'e', 'E', '-', '+']

section Numbers

variable {cs rest : List Char}

theorem exponentPart?_cut {e : Option Int} (h : exponentPart? cs = some (e, rest)) :
    ∃ x, cs = x ++ rest ∧ (∀ c ∈ x.head?, c = 'e' ∨ c = 'E') ∧ (∀ c ∈ x, Numeric c) ∧
      ∀ tail, Stops tail → exponentPart? (x ++ tail) = some (e, tail) := by
  have hnone : ∀ tail, Stops tail → exponentPart? tail = some (none, tail) := fun tail htail => by
    cases tail with
    | nil => rfl
    | cons c tail =>
      obtain ⟨-, -, he, hE⟩ := htail c rfl
      simp [exponentPart?, he, hE]
  cases cs with
  | nil =>
    cases h
    exact ⟨[], rfl, nofun, nofun, hnone⟩
  | cons c cs =>
    rw [exponentPart?] at h
    split at h
    · split at h
      · rename_i e' rest' hscan
        cases h
        obtain ⟨d, x, hcs, hd, hchars, -, hx⟩ := scanExponent?_cut hscan
        refine ⟨d :: x, hcs, by rintro _ ⟨⟩; exact hd, ?_, fun tail htail => ?_⟩
        · refine List.forall_mem_cons.2 ⟨.inr ?_, fun b hb => ?_⟩
          · rcases hd with rfl | rfl <;> decide
          · rcases hchars b hb with hb | rfl | rfl
            · exact .inl hb
            all_goals exact .inr (by decide)
        · have hscan := hx tail fun c hc => (htail c hc).1
          rw [List.cons_append] at hscan ⊢
          rw [exponentPart?, if_pos (by simpa using hd), hscan]
      · cases h
    · cases h
      exact ⟨[], rfl, nofun, nofun, hnone⟩

theorem fractionPart?_cut {f : Option (List Char)} (h : fractionPart? cs = some (f, rest)) :
    ∃ x, cs = x ++ rest ∧ (∀ c ∈ x.head?, c = '.') ∧ (∀ c ∈ x, Numeric c) ∧
      ∀ tail : List Char, (∀ c ∈ tail.head?, c.isDigit = false ∧ c ≠ '.') →
        fractionPart? (x ++ tail) = some (f, tail) := by
  unfold fractionPart? at h
  split at h
  · rename_i cs
    obtain ⟨ds, tail, rfl, hds, hend⟩ := exists_spanDigits cs
    rw [spanDigits_append hds hend] at h
    cases ds with
    | nil => cases h
    | cons d ds =>
      cases h
      refine ⟨'.' :: d :: ds, rfl, by rintro _ ⟨⟩; rfl,
        List.forall_mem_cons.2 ⟨.inr (by decide), fun c hc => .inl (hds c hc)⟩, fun tail' htail' => ?_⟩
      rw [List.cons_append, fractionPart?, spanDigits_append hds fun c hc => (htail' c hc).1]
  · cases h
    refine ⟨[], rfl, nofun, nofun, fun tail htail => ?_⟩
    cases tail with
    | nil => rfl
    | cons c tail =>
      obtain ⟨-, hc⟩ := htail c rfl
      rw [List.nil_append, fractionPart?]
      rintro _ ⟨⟩
      exact hc rfl

/-- A number behind its sign. -/
def unsigned? (negative : Bool) (cs : List Char) : Option (Literal × List Char) :=
  match spanDigits cs with
  | ([], _) => none
  | ('0' :: _ :: _, _) => none
  | (whole, rest) => do
    let (fraction, rest) ← fractionPart? rest
    let (exponent, rest) ← exponentPart? rest
    some (⟨negative, whole, fraction, exponent⟩, rest)

theorem literal?_minus (cs : List Char) : literal? ('-' :: cs) = unsigned? true cs := rfl

theorem literal?_of_head (h : ∀ c ∈ cs.head?, c ≠ '-') : literal? cs = unsigned? false cs := by
  unfold literal? unsigned?
  split
  rename_i negative tail hsign
  split at hsign
  · exact absurd rfl (h '-' rfl)
  · cases hsign
    rfl

theorem unsigned?_eq {negative : Bool} {whole tail : List Char}
    (hwhole : ∀ c ∈ whole, c.isDigit = true) (htail : ∀ c ∈ tail.head?, c.isDigit = false)
    (hne : whole ≠ []) (hzero : ∀ d ds, whole ≠ '0' :: d :: ds) :
    unsigned? negative (whole ++ tail) = (fractionPart? tail).bind fun f =>
      (exponentPart? f.2).bind fun e => some (⟨negative, whole, f.1, e.1⟩, e.2) := by
  rw [unsigned?, spanDigits_append hwhole htail]
  split
  · rename_i heq
    exact absurd (Prod.mk.inj heq).1 hne
  · rename_i heq
    exact absurd (Prod.mk.inj heq).1 (hzero _ _)
  · rename_i heq
    obtain ⟨rfl, rfl⟩ := Prod.mk.inj heq
    rfl

theorem unsigned?_cut {negative : Bool} {l : Literal} (h : unsigned? negative cs = some (l, rest)) :
    ∃ x, cs = x ++ rest ∧ (∃ c ∈ x.head?, c.isDigit = true) ∧ (∀ c ∈ x, Numeric c) ∧
      ∀ tail, Stops tail → unsigned? negative (x ++ tail) = some (l, tail) := by
  obtain ⟨whole, tail, rfl, hwhole, htail⟩ := exists_spanDigits cs
  have hne : whole ≠ [] := by
    rintro rfl
    rw [unsigned?, spanDigits_append hwhole htail] at h
    cases h
  have hzero : ∀ d ds, whole ≠ '0' :: d :: ds := by
    rintro d ds rfl
    rw [unsigned?, spanDigits_append hwhole htail] at h
    cases h
  rw [unsigned?_eq hwhole htail hne hzero] at h
  obtain ⟨⟨f, behind⟩, hf, h⟩ := Option.bind_eq_some_iff.1 h
  obtain ⟨⟨e, rest'⟩, he, h⟩ := Option.bind_eq_some_iff.1 h
  cases h
  obtain ⟨point, rfl, hpoint, hpointChars, hpointed⟩ := fractionPart?_cut hf
  obtain ⟨power, rfl, hpower, hpowerChars, hpowered⟩ := exponentPart?_cut he
  refine ⟨whole ++ (point ++ power), by simp, ?_, ?_, fun tail' htail' => ?_⟩
  · obtain ⟨c, cs, rfl⟩ := List.exists_cons_of_ne_nil hne
    exact ⟨c, rfl, hwhole c List.mem_cons_self⟩
  · exact List.forall_mem_append.2 ⟨fun c hc => .inl (hwhole c hc),
      List.forall_mem_append.2 ⟨hpointChars, hpowerChars⟩⟩
  · -- each part stands in front of one that it cannot go on with
    have hstop : ∀ c ∈ (power ++ tail').head?, c.isDigit = false ∧ c ≠ '.' := fun c hc => by
      cases power with
      | nil => exact ⟨(htail' c hc).1, (htail' c hc).2.1⟩
      | cons d power =>
        cases hc
        rcases hpower c rfl with rfl | rfl <;> decide
    have hdigit : ∀ c ∈ (point ++ (power ++ tail')).head?, c.isDigit = false := fun c hc => by
      cases point with
      | nil => exact (hstop c hc).1
      | cons d point =>
        cases hc
        rw [hpoint c rfl]
        decide
    rw [List.append_assoc, List.append_assoc, unsigned?_eq hwhole hdigit hne hzero,
      hpointed _ hstop, Option.bind_some, hpowered _ htail']
    rfl

/-- A number is the same in front of all that does not continue it. -/
theorem number?_cut {v : Json} (h : number? cs = some (v, rest)) :
    ∃ x, cs = x ++ rest ∧ (∃ c ∈ x.head?, c.isDigit = true ∨ c = '-') ∧ (∀ c ∈ x, Numeric c) ∧
      ∀ tail, Stops tail → number? (x ++ tail) = some (v, tail) := by
  obtain ⟨⟨l, rest'⟩, hl, h⟩ := Option.bind_eq_some_iff.1 h
  obtain ⟨w, hw, h⟩ := Option.bind_eq_some_iff.1 h
  cases h
  have hnumber : ∀ {cs tail : List Char}, literal? cs = some (l, tail) →
      number? cs = some (v, tail) := fun h => by
    rw [number?, h]
    simp only [Option.bind_eq_bind, Option.bind_some, hw]
  by_cases hminus : ∃ ds, cs = '-' :: ds
  · obtain ⟨ds, rfl⟩ := hminus
    rw [literal?_minus] at hl
    obtain ⟨x, rfl, -, hchars, hx⟩ := unsigned?_cut hl
    exact ⟨'-' :: x, rfl, ⟨'-', rfl, .inr rfl⟩, List.forall_mem_cons.2 ⟨.inr (by decide), hchars⟩,
      fun tail htail => hnumber (hx tail htail)⟩
  · have hhead : ∀ c ∈ cs.head?, c ≠ '-' := by
      rintro c hc rfl
      exact hminus (List.head?_eq_some_iff.1 hc)
    rw [literal?_of_head hhead] at hl
    obtain ⟨x, rfl, ⟨c, hc, hdigit⟩, hchars, hx⟩ := unsigned?_cut hl
    refine ⟨x, rfl, ⟨c, hc, .inl hdigit⟩, hchars, fun tail htail => hnumber ?_⟩
    rw [literal?_of_head, hx tail htail]
    obtain ⟨y, rfl⟩ := List.head?_eq_some_iff.1 hc
    rintro _ ⟨⟩ rfl
    cases hdigit

end Numbers

/-- A string ends with its quote, whatever stands behind it. -/
theorem stringBody?_cut {cs s rest : List Char} (h : stringBody? cs = some (s, rest)) :
    ∃ x, cs = x ++ rest ∧ ∀ tail, stringBody? (x ++ tail) = some (s, tail) := by
  fun_induction stringBody? cs generalizing s rest with
  | case1 => cases h
  | case2 =>
    cases h
    exact ⟨['"'], rfl, fun _ => rfl⟩
  | case3 a b c d cs ihPair ih =>
    obtain ⟨u, hu, h⟩ := Option.bind_eq_some_iff.1 h
    split at h
    · rename_i hhigh
      -- a half of a pair has the other half behind it
      split at h
      · rename_i a' b' c' d' cs _
        obtain ⟨low, hlow, h⟩ := Option.bind_eq_some_iff.1 h
        obtain ⟨ch, hch, h⟩ := Option.bind_eq_some_iff.1 h
        obtain ⟨⟨t, rest'⟩, ht, h⟩ := Option.bind_eq_some_iff.1 h
        cases h
        obtain ⟨x, rfl, hx⟩ := ihPair ht
        refine ⟨'\\' :: 'u' :: a :: b :: c :: d :: '\\' :: 'u' :: a' :: b' :: c' :: d' :: x, rfl,
          fun tail => ?_⟩
        simp [stringBody?, hu, hhigh, hlow, hch, hx tail]
      · cases h
    · rename_i hhigh
      split at h
      · cases h
      · rename_i hlow
        obtain ⟨⟨t, rest'⟩, ht, h⟩ := Option.bind_eq_some_iff.1 h
        cases h
        obtain ⟨x, rfl, hx⟩ := ih ht
        refine ⟨'\\' :: 'u' :: a :: b :: c :: d :: x, rfl, fun tail => ?_⟩
        simp [stringBody?, hu, hhigh, hlow, hx tail]
  | case4 e cs hshort ih =>
    obtain ⟨ch, hch, h⟩ := Option.bind_eq_some_iff.1 h
    obtain ⟨⟨t, rest'⟩, ht, h⟩ := Option.bind_eq_some_iff.1 h
    cases h
    obtain ⟨x, rfl, hx⟩ := ih ht
    have hu : e ≠ 'u' := by
      rintro rfl
      cases hch
    refine ⟨'\\' :: e :: x, rfl, fun tail => ?_⟩
    rw [List.cons_append, List.cons_append, stringBody?, hch]
    · simp [hx tail]
    · exact fun _ _ _ _ _ he _ => hu he
  | case5 => cases h
  | case6 c cs hquote _ _ hplain ih =>
    obtain ⟨⟨t, rest'⟩, ht, h⟩ := Option.bind_eq_some_iff.1 h
    cases h
    obtain ⟨x, rfl, hx⟩ := ih ht
    have hslash : c ≠ '\\' := by
      rintro rfl
      exact hplain rfl
    refine ⟨c :: x, rfl, fun tail => ?_⟩
    rw [List.cons_append, stringBody?, if_neg hplain]
    · simp [hx tail]
    · exact hquote
    · exact fun _ _ _ _ _ hc _ => hslash hc
    · exact fun _ _ hc _ => hslash hc

end TableTalk.Json
