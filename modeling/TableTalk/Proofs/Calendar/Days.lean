import TableTalk.Proofs.Calendar.Order

/-!
# Counting days

The number of a date counts the days of the calendar: the day behind a date has the next number
(`Date.dayNumber_next`), the one in front of it the number before (`Date.dayNumber_previous`), and
dates are in the order of their numbers (`Date.before_iff`). So going back by some days is a
subtraction (`Date.dayNumber_back`), and it leaves the calendar where the number falls below that of
the first day (`Date.back?_isSome`).
-/

namespace TableTalk

namespace Date

def yearLength (year : Int) : Nat := if leapYear year then 366 else 365

/-- The number of the first day of a year. -/
def yearStart (year : Int) : Int :=
  365 * (year - 1) + (year - 1) / 4 - (year - 1) / 100 + (year - 1) / 400

theorem yearStart_succ (year : Int) : yearStart (year + 1) = yearStart year + yearLength year := by
  unfold yearStart yearLength leapYear
  simp only [Bool.and_eq_true, Bool.or_eq_true, beq_iff_eq, bne_iff_ne]
  split_ifs with h <;> omega

theorem yearStart_mono {y z : Int} (h : y ≤ z) : yearStart y ≤ yearStart z := by
  unfold yearStart
  omega

theorem daysBeforeMonth_succ (year : Int) {m : Nat} (hm : 1 ≤ m) :
    daysBeforeMonth year (m + 1) = daysBeforeMonth year m + daysInMonth year m := by
  obtain ⟨m, rfl⟩ := Nat.exists_eq_add_of_le' hm
  simp [daysBeforeMonth, List.range_succ]

theorem daysBeforeMonth_lt (year : Int) {m n : Nat} (hm : 1 ≤ m) (hmn : m < n) :
    daysBeforeMonth year m + daysInMonth year m ≤ daysBeforeMonth year n := by
  induction n, hmn using Nat.le_induction with
  | base => exact (daysBeforeMonth_succ year hm).ge
  | succ n hn ih =>
    have := daysBeforeMonth_succ year (Nat.one_le_of_lt hn)
    omega

theorem daysBeforeMonth_end (year : Int) : daysBeforeMonth year 13 = yearLength year := by
  unfold daysBeforeMonth yearLength daysInMonth
  cases leapYear year <;> rfl

variable {d e : Date}

theorem dayNumber_eq (d : Date) :
    d.dayNumber = yearStart d.year + daysBeforeMonth d.year d.month + d.day - 1 := rfl

/-- A day is one of its year. -/
theorem dayNumber_bounds (d : Date) :
    yearStart d.year ≤ d.dayNumber ∧ d.dayNumber < yearStart (d.year + 1) := by
  obtain ⟨-, -, hfirst, hlast, hday, hdays⟩ := d.valid
  have hmonth := daysBeforeMonth_lt d.year hfirst (Nat.lt_succ_of_le hlast)
  rw [daysBeforeMonth_end] at hmonth
  rw [dayNumber_eq, yearStart_succ]
  omega

theorem dayNumber_lt (h : d.Before e) : d.dayNumber < e.dayNumber := by
  rcases h with hyear | ⟨hyear, hmonth | ⟨hmonth, hday⟩⟩
  · have hmono := yearStart_mono (Int.add_one_le_of_lt hyear)
    have hd := d.dayNumber_bounds
    have he := e.dayNumber_bounds
    omega
  · obtain ⟨-, -, hfirst, -, -, hdays⟩ := d.valid
    obtain ⟨-, -, -, -, hday, -⟩ := e.valid
    have hmonths := daysBeforeMonth_lt d.year hfirst hmonth
    rw [dayNumber_eq, dayNumber_eq, ← hyear]
    omega
  · rw [dayNumber_eq, dayNumber_eq, ← hyear, ← hmonth]
    omega

theorem eq_of_fields (hyear : d.year = e.year) (hmonth : d.month = e.month)
    (hday : d.day = e.day) : d = e := by
  cases d
  cases e
  subst hyear hmonth hday
  rfl

theorem before_trichotomy (d e : Date) : d.Before e ∨ d = e ∨ e.Before d := by
  by_cases h : d.year = e.year ∧ d.month = e.month ∧ d.day = e.day
  · exact .inr (.inl (eq_of_fields h.1 h.2.1 h.2.2))
  · unfold Before
    omega

/-- Dates are in the order of their numbers. -/
theorem before_iff : d.Before e ↔ d.dayNumber < e.dayNumber := by
  refine ⟨dayNumber_lt, fun h => ?_⟩
  rcases before_trichotomy d e with hbefore | rfl | hafter
  · exact hbefore
  · omega
  · have := dayNumber_lt hafter
    omega

theorem dayNumber_inj : d.dayNumber = e.dayNumber ↔ d = e := by
  refine ⟨fun h => ?_, fun h => h ▸ rfl⟩
  rcases before_trichotomy d e with hbefore | heq | hafter
  · have := dayNumber_lt hbefore
    omega
  · exact heq
  · have := dayNumber_lt hafter
    omega

theorem of?_eq_some {year : Int} {month day : Nat} :
    of? year month day = some d ↔ d.year = year ∧ d.month = month ∧ d.day = day := by
  unfold of?
  split_ifs with hvalid
  · rw [Option.some.injEq]
    constructor
    · rintro rfl
      exact ⟨rfl, rfl, rfl⟩
    · rintro ⟨hyear, hmonth, hday⟩
      exact eq_of_fields hyear.symm hmonth.symm hday.symm
  · refine iff_of_false nofun ?_
    rintro ⟨rfl, rfl, rfl⟩
    exact hvalid d.valid

theorem dayNumber_next (h : d.next? = some e) : e.dayNumber = d.dayNumber + 1 := by
  obtain ⟨-, -, hfirst, hlast, -, hdays⟩ := d.valid
  unfold next? at h
  rw [dayNumber_eq, dayNumber_eq]
  split_ifs at h with hday hmonth
  all_goals
    obtain ⟨hyear', hmonth', hday'⟩ := of?_eq_some.1 h
    rw [hyear', hmonth', hday']
  · omega
  · have := daysBeforeMonth_succ d.year hfirst
    omega
  · have hyears := yearStart_succ d.year
    have hend := daysBeforeMonth_end d.year
    have hbefore : daysBeforeMonth d.year 13 = _ :=
      daysBeforeMonth_succ d.year (m := 12) (by decide)
    have hm : d.month = 12 := by omega
    have hnone : daysBeforeMonth (d.year + 1) 1 = 0 := rfl
    rw [hm] at hday hdays ⊢
    omega

theorem dayNumber_previous (h : d.previous? = some e) : e.dayNumber = d.dayNumber - 1 := by
  obtain ⟨-, -, hfirst, hlast, hday1, -⟩ := d.valid
  unfold previous? at h
  rw [dayNumber_eq, dayNumber_eq]
  split_ifs at h with hday hmonth
  all_goals
    obtain ⟨hyear', hmonth', hday'⟩ := of?_eq_some.1 h
    rw [hyear', hmonth', hday']
  · omega
  · have hbefore := daysBeforeMonth_succ d.year (Nat.le_sub_one_of_lt hmonth)
    rw [Nat.sub_add_cancel hfirst] at hbefore
    omega
  · have hyears := yearStart_succ (d.year - 1)
    rw [Int.sub_add_cancel] at hyears
    have hend := daysBeforeMonth_end (d.year - 1)
    have hbefore : daysBeforeMonth (d.year - 1) 13 = _ :=
      daysBeforeMonth_succ (d.year - 1) (m := 12) (by decide)
    have hdecember : daysInMonth (d.year - 1) 12 = 31 := rfl
    have hnone : daysBeforeMonth d.year 1 = 0 := rfl
    have hm : d.month = 1 := by omega
    rw [hm]
    omega

/-- Going back by some days takes them from the number. -/
theorem dayNumber_back : ∀ {n : Nat} {d e : Date}, d.back? n = some e →
    e.dayNumber = d.dayNumber - n
  | 0, d, e, h => by
    cases h
    omega
  | n + 1, d, e, h => by
    obtain ⟨c, hc, hback⟩ := Option.bind_eq_some_iff.1 h
    have hfirst := dayNumber_previous hc
    have hrest := dayNumber_back hback
    omega

/-- The first day of the calendar. -/
def firstDay : Date := ⟨firstYear, 1, 1, by decide⟩

theorem of?_isSome {year : Int} {month day : Nat} :
    (of? year month day).isSome ↔ Valid year month day := by
  unfold of?
  split_ifs with h
  · exact iff_of_true rfl h
  · exact iff_of_false nofun h

theorem one_le_daysInMonth (year : Int) (month : Nat) : 1 ≤ daysInMonth year month := by
  unfold daysInMonth
  split
  · split_ifs <;> decide
  all_goals decide

theorem valid_first {month : Nat} (d : Date) (hfirst : 1 ≤ month) (hlast : month ≤ 12) :
    Valid d.year month 1 :=
  ⟨d.valid.1, d.valid.2.1, hfirst, hlast, le_refl 1, one_le_daysInMonth _ _⟩

theorem not_before_firstDay (d : Date) : ¬d.Before firstDay := by
  obtain ⟨hyear, -, hmonth, -, hday, -⟩ := d.valid
  unfold Before firstDay
  dsimp only
  omega

/-- Every day but the first has one in front of it. -/
theorem previous?_isSome (d : Date) : d.previous?.isSome ↔ firstDay.Before d := by
  obtain ⟨hyear, hyears, hmonth, hmonths, hday, hdays⟩ := d.valid
  unfold previous? Before firstDay
  dsimp only
  split_ifs with hd hm
  · exact iff_of_true (of?_isSome.2 ⟨hyear, hyears, hmonth, hmonths, by omega, by omega⟩) (by omega)
  · refine iff_of_true (of?_isSome.2 ⟨hyear, hyears, by omega, by omega, ?_, le_refl _⟩) (by omega)
    exact one_le_daysInMonth _ _
  · have hdecember : daysInMonth (d.year - 1) 12 = 31 := rfl
    rw [of?_isSome, Valid, hdecember]
    omega

/-- One can go back as far as there are days. -/
theorem back?_isSome : ∀ {n : Nat} {d : Date},
    (d.back? n).isSome ↔ firstDay.dayNumber + n ≤ d.dayNumber
  | 0, d => by
    have hfirst := d.not_before_firstDay
    rw [before_iff] at hfirst
    exact iff_of_true rfl (by omega)
  | n + 1, d => by
    have hprevious := previous?_isSome d
    rw [before_iff] at hprevious
    rw [back?]
    rcases hp : d.previous? with - | e <;> rw [hp] at hprevious
    · refine iff_of_false nofun fun h => ?_
      have hnone : false = true := hprevious.2 (by omega)
      cases hnone
    · have hback := back?_isSome (n := n) (d := e)
      have hnumber := dayNumber_previous hp
      rw [Option.bind_some, hback]
      omega

end Date

end TableTalk
