import TableTalk.Store.Function
import Mathlib.Data.List.TakeWhile
import Mathlib.Tactic.SplitIfs

/-!
# What a pattern matches

A percent sign of a pattern stands for any characters, an underscore for one, and any other sign for
itself, where letters stand for both cases (`Fits`). The search goes along the text once for each
sign and gives up early, but it finds a match exactly if there is one (`Cell.fit_eq_whole_iff`).
Between percent signs a pattern looks for a part of the text that it fits (`Fits.between_iff`).
-/

namespace TableTalk

/-- Characters that a pattern stands for. -/
inductive Fits : List Char → List Char → Prop
  | nil : Fits [] []
  | done {ps cs : List Char} (h : Fits ps cs) : Fits ('%' :: ps) cs
  | more {ps cs : List Char} (c : Char) (h : Fits ('%' :: ps) cs) : Fits ('%' :: ps) (c :: cs)
  | any {ps cs : List Char} (c : Char) (h : Fits ps cs) : Fits ('_' :: ps) (c :: cs)
  | one {p c : Char} {ps cs : List Char} (hp : p ≠ '%') (hc : p.toLower = c.toLower)
      (h : Fits ps cs) : Fits (p :: ps) (c :: cs)

namespace Fits

variable {p c : Char} {ps qs cs : List Char}

theorem nil_iff : Fits [] cs ↔ cs = [] := by
  constructor
  · rintro ⟨⟩
    rfl
  · rintro rfl
    exact nil

/-- What is behind a percent sign fits an end of the text. -/
theorem percent_iff : Fits ('%' :: ps) cs ↔ ∃ ds, ds <:+ cs ∧ Fits ps ds := by
  constructor
  · intro h
    induction cs with
    | nil =>
      cases h with
      | done h => exact ⟨[], List.suffix_rfl, h⟩
    | cons c cs ih =>
      cases h with
      | done h => exact ⟨_, List.suffix_rfl, h⟩
      | more _ h =>
        obtain ⟨ds, hds, h⟩ := ih h
        exact ⟨ds, hds.trans (List.suffix_cons c cs), h⟩
      | one hp => exact absurd rfl hp
  · rintro ⟨ds, ⟨as, rfl⟩, h⟩
    induction as with
    | nil => exact done h
    | cons a as ih => exact more a ih

theorem cons_iff (hp : p ≠ '%') :
    Fits (p :: ps) cs ↔ ∃ c ds, cs = c :: ds ∧ (p = '_' ∨ p.toLower = c.toLower) ∧ Fits ps ds := by
  constructor
  · rintro (_ | _ | _ | ⟨c, h⟩ | ⟨_, hc, h⟩)
    · exact absurd rfl hp
    · exact absurd rfl hp
    · exact ⟨c, _, rfl, .inl rfl, h⟩
    · exact ⟨_, _, rfl, .inr hc, h⟩
  · rintro ⟨c, ds, rfl, rfl | hc, h⟩
    · exact any c h
    · exact one hp hc h

theorem append_iff : ∀ {ps cs : List Char},
    Fits (ps ++ qs) cs ↔ ∃ as bs, cs = as ++ bs ∧ Fits ps as ∧ Fits qs bs
  | [], cs => by
    constructor
    · exact fun h => ⟨[], cs, rfl, nil, h⟩
    · rintro ⟨as, bs, rfl, has, h⟩
      rw [nil_iff.1 has]
      exact h
  | p :: ps, cs => by
    rw [List.cons_append]
    by_cases hp : p = '%'
    · rw [hp, percent_iff]
      constructor
      · rintro ⟨_, ⟨front, rfl⟩, h⟩
        obtain ⟨as, bs, rfl, hp, hq⟩ := append_iff.1 h
        exact ⟨front ++ as, bs, (List.append_assoc ..).symm,
          percent_iff.2 ⟨as, List.suffix_append front as, hp⟩, hq⟩
      · rintro ⟨_, bs, rfl, h, hq⟩
        obtain ⟨as, ⟨front, rfl⟩, hp⟩ := percent_iff.1 h
        rw [List.append_assoc]
        exact ⟨as ++ bs, List.suffix_append front _, append_iff.2 ⟨as, bs, rfl, hp, hq⟩⟩
    · simp only [cons_iff hp, append_iff]
      constructor
      · rintro ⟨c, _, rfl, hc, as, bs, rfl, hps, hqs⟩
        exact ⟨c :: as, bs, rfl, ⟨c, as, rfl, hc, hps⟩, hqs⟩
      · rintro ⟨_, bs, rfl, ⟨c, as, rfl, hc, hps⟩, hqs⟩
        exact ⟨c, as ++ bs, rfl, hc, as, bs, rfl, hps, hqs⟩

/-- Between percent signs a pattern fits a part of the text. -/
theorem between_iff : Fits ('%' :: (ps ++ ['%'])) cs ↔
    ∃ front part back, cs = front ++ part ++ back ∧ Fits ps part := by
  have hall : ∀ ds, Fits ['%'] ds := fun ds => percent_iff.2 ⟨[], List.nil_suffix, nil⟩
  rw [percent_iff]
  constructor
  · rintro ⟨_, ⟨front, rfl⟩, h⟩
    obtain ⟨part, back, rfl, h, -⟩ := append_iff.1 h
    exact ⟨front, part, back, (List.append_assoc ..).symm, h⟩
  · rintro ⟨front, part, back, rfl, h⟩
    rw [List.append_assoc]
    exact ⟨part ++ back, List.suffix_append front _, append_iff.2 ⟨part, back, rfl, h, hall back⟩⟩

theorem of_map_eq : ∀ {ps cs : List Char}, ps.map Char.toLower = cs.map Char.toLower → Fits ps cs
  | [], [], _ => nil
  | p :: ps, c :: cs, h => by
    obtain ⟨hc, h⟩ := List.cons.inj h
    by_cases hp : p = '%'
    · rw [hp]
      exact more c (done (of_map_eq h))
    · exact one hp hc (of_map_eq h)

/-- A pattern without percent signs and underscores stands for nothing else. -/
theorem plain_iff : ∀ {ps cs : List Char}, '%' ∉ ps → '_' ∉ ps →
    (Fits ps cs ↔ ps.map Char.toLower = cs.map Char.toLower)
  | [], cs, _, _ => by simp [nil_iff, eq_comm]
  | p :: ps, cs, hpercent, hany => by
    refine ⟨fun h => ?_, of_map_eq⟩
    have hp : p ≠ '%' := fun he => hpercent (he ▸ List.mem_cons_self)
    obtain ⟨c, ds, rfl, hc, h⟩ := (cons_iff hp).1 h
    have hc := hc.resolve_left fun he => hany (he ▸ List.mem_cons_self)
    have ih := (plain_iff (fun hm => hpercent (List.mem_cons_of_mem p hm))
      fun hm => hany (List.mem_cons_of_mem p hm)).1 h
    rw [List.map_cons, List.map_cons, hc, ih]

end Fits

/-- Only the letters `A` to `Z` have a small form of their own. -/
theorem Text.toNat_toLower (c : Char) :
    c.toLower.toNat = if 65 ≤ c.toNat ∧ c.toNat ≤ 90 then c.toNat + 32 else c.toNat := by
  have hletter : 'A'.val ≤ c.val ∧ c.val ≤ 'Z'.val ↔ 65 ≤ c.toNat ∧ c.toNat ≤ 90 := by
    rw [UInt32.le_iff_toNat_le, UInt32.le_iff_toNat_le]
    exact Iff.rfl
  by_cases h : 65 ≤ c.toNat ∧ c.toNat ≤ 90
  · have hdiff : ('a'.val - 'A'.val).toNat = 32 := rfl
    have hsum : c.toLower.toNat = (c.val + ('a'.val - 'A'.val)).toNat :=
      congrArg Char.toNat (dif_pos (hletter.2 h))
    have hval : c.val.toNat = c.toNat := rfl
    rw [hsum, if_pos h, UInt32.toNat_add, hdiff, hval]
    omega
  · rw [if_neg h]
    exact congrArg Char.toNat (dif_neg (mt hletter.1 h))

theorem Text.toLower_toLower (c : Char) : c.toLower.toLower = c.toLower := by
  rw [← Char.toNat_inj, toNat_toLower, toNat_toLower]
  split_ifs <;> omega

theorem Text.toLower_eq_iff {p c : Char} (hp : p.toNat < 65 ∨ p.toNat = 95) :
    c.toLower = p ↔ c = p := by
  rw [← Char.toNat_inj, ← Char.toNat_inj, toNat_toLower]
  split_ifs <;> omega

theorem Fits.lower_iff : ∀ {ps cs : List Char},
    Fits (ps.map Char.toLower) (cs.map Char.toLower) ↔ Fits ps cs
  | [], cs => by rw [List.map_nil, nil_iff, nil_iff, List.map_eq_nil_iff]
  | p :: ps, cs => by
    have hpercent := Text.toLower_eq_iff (p := '%') (c := p) (.inl (by decide))
    have hany := Text.toLower_eq_iff (p := '_') (c := p) (.inr rfl)
    rw [List.map_cons]
    by_cases hp : p = '%'
    · rw [hpercent.2 hp, hp, percent_iff, percent_iff]
      constructor
      · rintro ⟨ds, hds, h⟩
        obtain ⟨ds', hds', rfl⟩ := List.suffix_map_iff.1 hds
        exact ⟨ds', hds', lower_iff.1 h⟩
      · rintro ⟨ds, hds, h⟩
        exact ⟨_, hds.map Char.toLower, lower_iff.2 h⟩
    · rw [cons_iff hp, cons_iff (mt hpercent.1 hp), hany]
      constructor
      · rintro ⟨c, ds, hcs, hc, h⟩
        obtain ⟨d, ds, rfl, rfl, rfl⟩ := List.map_eq_cons_iff.1 hcs
        rw [Text.toLower_toLower, Text.toLower_toLower] at hc
        exact ⟨d, ds, rfl, hc, lower_iff.1 h⟩
      · rintro ⟨c, ds, rfl, hc, h⟩
        refine ⟨_, _, List.map_cons, ?_, lower_iff.2 h⟩
        rwa [Text.toLower_toLower, Text.toLower_toLower]

namespace Cell

/-- What an outcome of the search says of a pattern and a text. -/
def Fit.Says (ps cs : List Char) : Fit → Prop
  | whole => Fits ps cs
  | off => ¬Fits ps cs
  -- the text ran out, so a percent sign in front would look at its ends in vain
  | spent => ∀ ds, ds <:+ cs → ¬Fits ps ds

variable {p c : Char} {ps cs : List Char}

theorem Fit.Says.fits_iff {f : Fit} (h : f.Says ps cs) : Fits ps cs ↔ f = whole := by
  cases f with
  | whole => exact iff_of_true h rfl
  | off => exact iff_of_false h nofun
  | spent => exact iff_of_false (h cs List.suffix_rfl) nofun

/-- A percent sign fits in front of all that has an end that fits behind it. -/
theorem Fit.Says.percent {f : Fit} (h : f.Says ps (c :: cs)) (hf : f ≠ off) :
    f.Says ('%' :: ps) (c :: cs) := by
  cases f with
  | whole => exact .done h
  | off => exact absurd rfl hf
  | spent =>
    intro ds hds hfits
    obtain ⟨es, hes, hfits⟩ := Fits.percent_iff.1 hfits
    exact h es (hes.trans hds) hfits

/-- Where what is behind a percent sign is off, the sign has to stand for the next character. -/
theorem Fit.Says.skip {f : Fit} (hoff : ¬Fits ps (c :: cs)) (h : f.Says ('%' :: ps) cs) :
    f.Says ('%' :: ps) (c :: cs) := by
  have hskip : Fits ('%' :: ps) (c :: cs) → Fits ('%' :: ps) cs := by
    rintro (_ | h | ⟨_, h⟩ | _ | hp)
    · exact absurd h hoff
    · exact h
    · exact absurd rfl hp
  cases f with
  | whole => exact .more c h
  | off => exact mt hskip h
  | spent =>
    intro ds hds hfits
    rcases List.suffix_cons_iff.1 hds with rfl | hds
    · exact h cs List.suffix_rfl (hskip hfits)
    · exact h ds hds hfits

theorem Fit.Says.step {f : Fit} (hp : p ≠ '%') (hc : p = '_' ∨ p.toLower = c.toLower)
    (h : f.Says ps cs) : f.Says (p :: ps) (c :: cs) := by
  have hrest : ∀ {d ds}, Fits (p :: ps) (d :: ds) → Fits ps ds := fun hfits => by
    obtain ⟨_, _, ⟨⟩, -, hfits⟩ := (Fits.cons_iff hp).1 hfits
    exact hfits
  cases f with
  | whole => exact (Fits.cons_iff hp).2 ⟨c, cs, rfl, hc, h⟩
  | off => exact mt hrest h
  | spent =>
    intro ds hds hfits
    obtain ⟨d, es, rfl, -, hes⟩ := (Fits.cons_iff hp).1 hfits
    rcases List.suffix_cons_iff.1 hds with hds | hds
    · cases hds
      exact h cs List.suffix_rfl hes
    · exact h es ((List.suffix_cons d es).trans hds) hes

theorem says_fit (ps cs : List Char) : (fit ps cs).Says ps cs := by
  induction ps, cs using fit.induct with
  | case1 =>
    rw [fit]
    exact Fits.nil
  | case2 c cs =>
    rw [fit]
    exact fun h => nomatch h
  | case3 p ps hp ih =>
    rw [fit, if_pos hp, hp.1]
    exact .done (ih.fits_iff.2 hp.2)
  | case4 p ps hp ih =>
    rw [fit, if_neg hp]
    intro ds hds hfits
    rw [List.suffix_nil.1 hds] at hfits
    refine hp ?_
    rcases hfits with _ | hfits | _ | _ | _
    exact ⟨rfl, ih.fits_iff.1 hfits⟩
  -- behind a percent sign only `off` lets the search go on with the next character
  | case5 ps c cs hoff ih ih' =>
    rw [fit, if_pos rfl, hoff]
    rw [hoff] at ih
    exact ih'.skip ih
  | case6 ps c cs hoff ih =>
    have hfit : fit ('%' :: ps) (c :: cs) = fit ps (c :: cs) := by
      rw [fit, if_pos rfl]
      split
      · exact absurd ‹_› hoff
      · rfl
    rw [hfit]
    exact ih.percent hoff
  | case7 p ps c cs hp hc ih =>
    rw [fit, if_neg hp, if_pos hc]
    exact ih.step hp hc
  | case8 p ps c cs hp hc =>
    rw [fit, if_neg hp, if_neg hc]
    intro hfits
    obtain ⟨_, _, ⟨⟩, hc', -⟩ := (Fits.cons_iff hp).1 hfits
    exact hc hc'

theorem fit_eq_whole_iff : fit ps cs = .whole ↔ Fits ps cs := (says_fit ps cs).fits_iff.symm

theorem cut_of_notMem (h : '\x00' ∉ cs) : cut cs = cs :=
  List.takeWhile_eq_self_iff.2 fun _ hc => bne_iff_ne.2 fun he => h (he ▸ hc)

/-- A text is like a pattern, in small letters, exactly if the pattern fits it. -/
theorem like_lower_iff {s p : String} (hs : '\x00' ∉ s.toList) (hp : '\x00' ∉ p.toList) :
    (text s).lower.like (text p).lower = some true ↔ Fits p.toList s.toList := by
  have hlower : ∀ {s : String}, '\x00' ∉ s.toList →
      cut (Text.lowerAscii s).toList = s.toList.map Char.toLower := fun {s} hs => by
    rw [Text.lowerAscii, String.toList_ofList]
    refine cut_of_notMem fun hmem => hs ?_
    obtain ⟨c, hc, hzero⟩ := List.mem_map.1 hmem
    rw [Text.toLower_eq_iff (.inl (by decide))] at hzero
    exact hzero ▸ hc
  have hlike : (text s).lower.like (text p).lower = some (decide (fit
      (cut (Text.lowerAscii p).toList) (cut (Text.lowerAscii s).toList) = .whole)) := rfl
  rw [hlike, hlower hs, hlower hp, Option.some.injEq, decide_eq_true_iff, fit_eq_whole_iff,
    Fits.lower_iff]

end Cell

end TableTalk
