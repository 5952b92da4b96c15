import TableTalk.Proofs.Decimal.Rounding
import TableTalk.Proofs.Intent.Periods
import TableTalk.Proofs.Intent.Ranking

/-!
# Changes from period to period

A row of a comparison shows the total of its period and of the one behind it in the whole list, the
difference, and the difference in hundredths of the total behind (`Intent.execute_compared`). By
nothing and by zero there is no such quotient; one that is too large for a double is not shown
either, however the totals are.
-/

namespace TableTalk

open Sql Decimal

namespace Cell

/-- The change from one figure to another in hundredths of the first. -/
def percent (x y : Float) : Float := (x - y) / y * 100

/-- Two totals that are finite, as are their difference and its quotient by the one before. -/
structure Comparable (total before : Cell) : Prop where
  total_finite : total.Finite
  before_finite : before.Finite
  change : ∀ x y, total = real x → before = real y → (x - y).isFinite = true
  quotient : ∀ x y, total = real x → before = real y → (y == 0) = false →
    ((x - y) / y).isFinite = true

theorem comparable_real {x y : Float} (hx : x.isFinite = true) (hy : y.isFinite = true)
    (hchange : (x - y).isFinite = true) (hquotient : ((x - y) / y).isFinite = true) :
    Comparable (real x) (real y) := by
  refine ⟨?_, ?_, ?_, ?_⟩
  · rintro _ ⟨⟩
    exact hx
  · rintro _ ⟨⟩
    exact hy
  · rintro _ _ ⟨⟩ ⟨⟩
    exact hchange
  · rintro _ _ ⟨⟩ ⟨⟩ -
    exact hquotient

theorem toJson_real {x : Float} (h : x.isFinite = true) : (real x).toJson = .double x := by
  rw [toJson, Json.ofFloat, if_pos h]

theorem ofFloat_of_isFinite {x : Float} (h : x.isFinite = true) : ofFloat x = real x := by
  rw [ofFloat, if_neg]
  intro hnan
  rw [isFinite_of_isNaN hnan] at h
  cases h

theorem toJson_ofFloat (x : Float) : (ofFloat x).toJson = .ofFloat x := by
  rw [ofFloat]
  split_ifs with h
  · rw [Json.ofFloat, isFinite_of_isNaN h]
    rfl
  · rfl

theorem same_zero {y : Float} (h : y.isFinite = true) : (real y).same (int 0) = (y == 0) := by
  have hunfold : y.isFinite = y.toModel.unpack.isFinite := rfl
  rw [hunfold] at h
  rw [Bool.eq_iff_iff, beq_zero_iff, same_iff]
  have hcompare : (real y).compare (int 0) = (Exact.ofReal y).compare (.number 0 0) := rfl
  rw [hcompare, Exact.ofReal, Binary.ofDouble]
  rcases hu : y.toModel.unpack with s | _ | s | ⟨s, m, e, h0⟩
  · rw [hu] at h
    cases h
  · rw [hu] at h
    cases h
  · cases s <;> exact iff_of_true (by decide) ⟨_, rfl⟩
  · refine iff_of_false (fun heq => ?_) (by rintro ⟨_, ⟨⟩⟩)
    rw [Binary.ofUnpacked, Exact.compare_number, compare_eq_iff_eq] at heq
    cases s <;> simp [h0.ne', zpow_ne_zero] at heq

theorem rate_null (before : Cell) : (null : Cell).rate before = null := by
  rw [rate]
  split_ifs <;> cases before <;> rfl

/-- The change in hundredths as it is shown. -/
theorem toJson_rate {x y : Float} (hy : y.isFinite = true)
    (hquotient : (y == 0) = false → ((x - y) / y).isFinite = true) :
    ((real (x - y)).rate (real y)).toJson =
      if y == 0 then .null
      else if (percent x y).isFinite then .double (roundReal (percent x y) 2)
      else .null := by
  have hplaces : 2 ≤ 30 := by decide
  have hrounded : Json.ofFloat (roundReal (percent x y) 2) =
      if (percent x y).isFinite then .double (roundReal (percent x y) 2) else .null := by
    rw [Json.ofFloat, isFinite_roundReal _ hplaces]
  rw [rate, same_zero hy, ← hrounded]
  split_ifs with hzero
  · rfl
  · have hquotient := hquotient (Bool.eq_false_iff.2 hzero)
    have hdivide : (real (x - y)).divide (real y) = real ((x - y) / y) := by
      rw [← ofFloat_of_isFinite hquotient]
      exact if_neg hzero
    have htimes : (real ((x - y) / y)).times (int 100) = ofFloat (percent x y) := rfl
    rw [hdivide, htimes]
    by_cases hnan : (percent x y).isNaN = true
    · rw [ofFloat, if_pos hnan, Json.ofFloat, isFinite_roundReal _ hplaces, isFinite_of_isNaN hnan]
      rfl
    · rw [ofFloat, if_neg hnan, ← toJson_ofFloat]
      rfl

end Cell

open Cell

/-- What a row says of a total and the one before. -/
structure Row.Changes (row : Row) (total before : Cell) : Prop where
  change_eq_null : row.get? "change_value" = some .null ↔ total = .null ∨ before = .null
  change : ∀ x y, total = .real x → before = .real y →
    row.get? "change_value" = some (.double (x - y))
  percentage_eq_null : row.get? "percentage_change" = some .null ↔
    row.get? "change_value" = some .null ∨ (∃ y, before = .real y ∧ (y == 0) = true) ∨
      ∃ x y, total = .real x ∧ before = .real y ∧ (percent x y).isFinite = false
  percentage : ∀ x y, total = .real x → before = .real y → (y == 0) = false →
    (percent x y).isFinite = true →
      row.get? "percentage_change" = some (.double (roundReal (percent x y) 2))

/-- A total is a double, or nothing. -/
theorem Scope.total_cases (s : Scope) (metric date : String) (g : Grain) (kept : List Record)
    (o : Option Date) : s.total metric date g kept o = .null ∨
      ∃ x, s.total metric date g kept o = .real x := by
  simp only [total, AggregateFunction.apply, ofFloat]
  split_ifs
  · exact .inl rfl
  · exact .inl rfl
  · exact .inr ⟨_, rfl⟩

/-- What follows from a row for two totals that are comparable. -/
theorem Row.changes_of_get? {row : Row} {total before : Cell}
    (htotal : total = .null ∨ ∃ x, total = .real x)
    (hbefore : before = .null ∨ ∃ y, before = .real y)
    (hchange : row.get? "change_value" = some (total.minus before).toJson)
    (hrate : row.get? "percentage_change" = some ((total.minus before).rate before).toJson)
    (h : Comparable total before) : row.Changes total before := by
  have hnull : total = .null ∨ before = .null → row.Changes total before := by
    intro hnull
    have hminus : total.minus before = .null := by
      rcases hnull with rfl | rfl
      · rfl
      · exact minus_null total
    rw [hminus] at hchange hrate
    rw [rate_null] at hrate
    refine ⟨iff_of_true hchange hnull, ?_, iff_of_true hrate (.inl hchange), ?_⟩ <;>
    · rintro x y rfl rfl
      exact absurd hnull (by simp)
  rcases htotal with rfl | ⟨x, rfl⟩
  · exact hnull (.inl rfl)
  · rcases hbefore with rfl | ⟨y, rfl⟩
    · exact hnull (.inr rfl)
    · have hminus : (real x).minus (real y) = real (x - y) :=
        ofFloat_of_isFinite (h.change x y rfl rfl)
      rw [hminus] at hchange hrate
      rw [toJson_real (h.change x y rfl rfl)] at hchange
      rw [toJson_rate (h.before_finite y rfl) (h.quotient x y rfl rfl)] at hrate
      refine ⟨?_, ?_, ?_, ?_⟩
      · rw [hchange]
        simp
      · rintro _ _ ⟨⟩ ⟨⟩
        exact hchange
      · rw [hrate, hchange]
        cases hzero : y == 0 <;> cases hpercent : (percent x y).isFinite <;>
          simp [hzero, hpercent]
      · rintro _ _ ⟨⟩ ⟨⟩ hzero hpercent
        rw [hrate, hzero, hpercent]
        rfl

/-- Only one list has given days in order. -/
theorem Period.eq_of_mem_iff {xs ys : List (Option Date)} (hx : xs.Pairwise Precedes)
    (hy : ys.Pairwise Precedes) (h : ∀ o, o ∈ xs ↔ o ∈ ys) : xs = ys := by
  have hirrefl : ∀ o, ¬Precedes o o := by
    rintro (- | d) hlt
    · exact hlt
    · exact String.lt_irrefl _ hlt
  have hnodup : ∀ {zs : List (Option Date)}, zs.Pairwise Precedes → zs.Nodup := by
    refine fun hz => hz.imp ?_
    rintro o _ hlt rfl
    exact hirrefl o hlt
  refine List.Perm.eq_of_pairwise (fun o q _ _ hoq hqo => ?_) hx hy
    ((List.perm_ext_iff_of_nodup (hnodup hx) (hnodup hy)).2 h)
  rcases o with - | d <;> rcases q with - | e
  · rfl
  · exact hoq.elim
  · exact hqo.elim
  · exact absurd (String.lt_trans hoq hqo) (String.lt_irrefl _)

/-- The rows of a comparison by their place. -/
theorem Period.getElem?_rows {α : Type} {f : α → Period} {xs : List α} {n i : Nat} {row : Row} :
    (((beside (xs.map f)).take n).map Period.row)[i]? = some row ↔
      i < n ∧ ∃ o, xs[i]? = some o ∧ Period.row (f o, (xs[i + 1]?).map f) = row := by
  rw [List.getElem?_map, List.getElem?_take, getElem?_beside, List.getElem?_map, List.getElem?_map]
  split_ifs with h
  · simp [h, Option.map_eq_some_iff]
  · simp [h]

theorem length_beside {α : Type} : ∀ xs : List α, (beside xs).length = xs.length
  | [] => rfl
  | _ :: xs => congrArg (· + 1) (length_beside xs)

namespace Intent

variable {t : Target} {schema : Schema} {rows out : List Row} {fs : List Filter}
  {metric date : String} {period : ComparePeriod}

/-- The changes that a comparison shows, from the last period in the order of their texts to the
first: the period behind is the next one in the whole list, whether it is shown or not. -/
theorem execute_compared {c : Float} {r text : String} (hd : t.dialect = .directColumn)
    (h : (analyze (.compare metric date period) fs c r).compile t schema = .ok text)
    (hout : Store.executeOnce t.source.text rows text = .ok out) :
    ∃ (kept : List Record) (starts : List (Option Date)),
      (Analysis.compare metric date period).kept t schema fs rows = .ok kept ∧
      (∀ o, o ∈ starts ↔ ∃ x ∈ kept, (Scope.ofRows rows).start? date period.grain x = o) ∧
      starts.Pairwise Period.Precedes ∧ out.length = min compareCap starts.length ∧
      ∀ (i : Nat) (row : Row), out[i]? = some row → ∃ o, starts[i]? = some o ∧
        let total := (Scope.ofRows rows).total metric date period.grain kept
        let before := (starts[i + 1]?).elim .null total
        row.get? "date" = some (Period.label o).toJson ∧
        row.get? "current_value" = some (total o).toJson ∧
        row.get? "previous_value" = some before.toJson ∧
        (∀ next, out[i + 1]? = some next → row.get? "previous_value" = next.get? "current_value") ∧
        (Comparable (total o) before → row.Changes (total o) before) := by
  obtain ⟨_, _, _, _, ⟨⟩, -, rfl⟩ := exists_analyze h
  obtain ⟨kept, starts, hkept, hstarts, hsorted, rfl⟩ := execute_periods hd hout
  refine ⟨kept, starts, hkept, hstarts, hsorted, ?_, fun i row hrow => ?_⟩
  · rw [List.length_map, List.length_take, length_beside, List.length_map]
  · obtain ⟨hi, o, ho, rfl⟩ := Period.getElem?_rows.1 hrow
    obtain ⟨hdate, hcurrent, hprevious, hchange, hrate⟩ := Period.get?_row
      ((Scope.ofRows rows).period metric date period.grain kept o,
        (starts[i + 1]?).map ((Scope.ofRows rows).period metric date period.grain kept))
    have hbefore : ((starts[i + 1]?).map ((Scope.ofRows rows).period metric date period.grain
        kept)).elim .null Period.total = (starts[i + 1]?).elim .null
          ((Scope.ofRows rows).total metric date period.grain kept) := by
      cases starts[i + 1]? <;> rfl
    rw [hbefore] at hprevious hchange hrate
    refine ⟨o, ho, hdate, hcurrent, hprevious, fun next hnext => ?_, fun hfinite => ?_⟩
    · obtain ⟨-, q, hq, rfl⟩ := Period.getElem?_rows.1 hnext
      rw [hprevious, (Period.get?_row _).2.1, hq]
      rfl
    · refine Row.changes_of_get? (Scope.total_cases _ _ _ _ _ _) ?_ hchange hrate hfinite
      cases starts[i + 1]? with
      | none => exact .inl rfl
      | some q => exact Scope.total_cases _ _ _ _ _ _

/-- Three months, and what is earned in each. -/
def climbing : List Row := [⟨[("d", .str "2024-01-15"), ("v", .int 1)], by decide⟩,
  ⟨[("d", .str "2024-02-15"), ("v", .int 2)], by decide⟩,
  ⟨[("d", .str "2024-03-15"), ("v", .double 1e308)], by decide⟩]

/-- The months of the rows, the last one first. -/
def months : List (Option Date) := [some ⟨2024, 3, 1, by decide⟩, some ⟨2024, 2, 1, by decide⟩,
  some ⟨2024, 1, 1, by decide⟩]

theorem execute_climbing : ∃ text out, (analyze (.compare "v" "d" .monthOverMonth) [] 1 "").compile
    ⟨.directColumn, none, none⟩ (Profile.ofRows climbing) = .ok text ∧
      Store.executeOnce defaultTable climbing text = .ok out :=
  exists_monthly (Store.load_isOk_iff.2 ⟨by decide, by decide, by decide, nofun, by decide,
    by decide, nofun, by decide⟩) (by decide +kernel) (by decide +kernel) (by decide)

theorem eq_months {kept : List Record} {starts : List (Option Date)}
    (hkept : (Analysis.compare "v" "d" .monthOverMonth).kept ⟨.directColumn, none, none⟩
      (Profile.ofRows climbing) [] climbing = .ok kept)
    (hstarts : ∀ o, o ∈ starts ↔
      ∃ x ∈ kept, (Scope.ofRows climbing).start? "d" ComparePeriod.monthOverMonth.grain x = o)
    (hsorted : starts.Pairwise Period.Precedes) : starts = months ∧
      months.map ((Scope.ofRows climbing).total "v" "d" ComparePeriod.monthOverMonth.grain kept) =
        [.real 1e308, .real 2, .real 1] := by
  obtain rfl := kept_unfiltered rfl hkept
  have hmonths : (Table.ofRows defaultTable climbing).numbered.map
      ((Scope.ofRows climbing).start? "d" .month) = months.reverse := by decide +kernel
  have htotals : months.map ((Scope.ofRows climbing).total "v" "d" .month
      (Table.ofRows defaultTable climbing).numbered) = [.real 1e308, .real 2, .real 1] := by
    decide +kernel
  refine ⟨Period.eq_of_mem_iff hsorted (by decide +kernel) fun o => ?_, htotals⟩
  rw [hstarts, ← List.mem_reverse, ← hmonths, List.mem_map]
  rfl

/-- From one to two is a hundred in a hundred. -/
theorem execute_compared_climbing : ∃ text out,
    (analyze (.compare "v" "d" .monthOverMonth) [] 1 "").compile ⟨.directColumn, none, none⟩
      (Profile.ofRows climbing) = .ok text ∧
    Store.executeOnce defaultTable climbing text = .ok out ∧ out.length = 3 ∧
    ∀ row, out[1]? = some row → row.get? "previous_value" = some (.double 1) ∧
      row.get? "change_value" = some (.double (2 - 1)) ∧
      row.get? "percentage_change" = some (.double 100) := by
  obtain ⟨text, out, htext, hout⟩ := execute_climbing
  obtain ⟨kept, starts, hkept, hstarts, hsorted, hlength, hrows⟩ :=
    execute_compared (t := ⟨.directColumn, none, none⟩) rfl htext hout
  obtain ⟨rfl, htotals⟩ := eq_months hkept hstarts hsorted
  simp only [months, List.map_cons, List.cons.injEq] at htotals
  obtain ⟨-, hfebruary, hjanuary, -⟩ := htotals
  refine ⟨text, out, htext, hout, hlength, fun row hrow => ?_⟩
  obtain ⟨_, ⟨⟩, -, -, hprevious, -, hchanges⟩ := hrows 1 row hrow
  have hbefore : (months[1 + 1]?).elim .null ((Scope.ofRows climbing).total "v" "d"
      ComparePeriod.monthOverMonth.grain kept) = .real 1 := hjanuary
  rw [hbefore, toJson_real (by decide +kernel)] at hprevious
  rw [hbefore, hfebruary] at hchanges
  have hchanges := hchanges (comparable_real (by decide +kernel) (by decide +kernel)
    (by decide +kernel) (by decide +kernel))
  have hhundred : roundReal (percent 2 1) 2 = 100 := by decide +kernel
  refine ⟨hprevious, hchanges.change 2 1 rfl rfl, ?_⟩
  rw [← hhundred]
  exact hchanges.percentage 2 1 rfl rfl (by decide +kernel) (by decide +kernel)

/-- From two to the largest figures is too much in a hundred, though the quotient is not. -/
theorem execute_compared_beyond : ∃ text out,
    (analyze (.compare "v" "d" .monthOverMonth) [] 1 "").compile ⟨.directColumn, none, none⟩
      (Profile.ofRows climbing) = .ok text ∧
    Store.executeOnce defaultTable climbing text = .ok out ∧
    ∃ row ∈ out, row.get? "current_value" = some (.double 1e308) ∧
      row.get? "previous_value" = some (.double 2) ∧
      row.get? "change_value" = some (.double (1e308 - 2)) ∧
      ((1e308 - 2) / 2 : Float).isFinite = true ∧
      row.get? "percentage_change" = some .null := by
  obtain ⟨text, out, htext, hout⟩ := execute_climbing
  refine ⟨text, out, htext, hout, ?_⟩
  obtain ⟨_, _, _, _, ⟨⟩, -, rfl⟩ := exists_analyze htext
  obtain ⟨kept, starts, hkept, hstarts, hsorted, rfl⟩ :=
    execute_periods (t := ⟨.directColumn, none, none⟩) rfl hout
  obtain ⟨rfl, htotals⟩ := eq_months hkept hstarts hsorted
  simp only [months, List.map_cons, List.cons.injEq] at htotals
  obtain ⟨hmarch, hfebruary, -⟩ := htotals
  have hfinite : (1e308 : Float).isFinite = true ∧ (2 : Float).isFinite = true ∧
      (1e308 - 2 : Float).isFinite = true ∧ ((1e308 - 2) / 2 : Float).isFinite = true := by
    decide +kernel
  obtain ⟨hhigh, htwo, hdifference, hquotient⟩ := hfinite
  let march : Option Date := some ⟨2024, 3, 1, by decide⟩
  let february : Option Date := some ⟨2024, 2, 1, by decide⟩
  have hmem : Period.row (⟨Period.label march, .real 1e308⟩,
      some ⟨Period.label february, .real 2⟩) ∈ ((beside (months.map ((Scope.ofRows climbing).period
        "v" "d" ComparePeriod.monthOverMonth.grain kept))).take compareCap).map Period.row := by
    rw [← hmarch, ← hfebruary]
    exact List.mem_cons_self
  obtain ⟨-, hcurrent, hprevious, hchange, hrate⟩ := Period.get?_row
    (⟨Period.label march, .real 1e308⟩, some ⟨Period.label february, .real 2⟩)
  have hchanges := Row.changes_of_get? (.inr ⟨_, rfl⟩) (.inr ⟨_, rfl⟩) hchange hrate
    (comparable_real hhigh htwo hdifference hquotient)
  refine ⟨_, hmem, hcurrent.trans (congrArg some (toJson_real hhigh)),
    hprevious.trans (congrArg some (toJson_real htwo)), hchanges.change _ _ rfl rfl, hquotient,
    hchanges.percentage_eq_null.2 (.inr (.inr ⟨_, _, rfl, rfl, by decide +kernel⟩))⟩

end Intent

end TableTalk
