import TableTalk.Proofs.Intent.Groups

/-!
# Casts and buckets of any cell

A cast gives a value or nothing, whatever the cell is. The bucket of a date fails for one week only,
the one that the calendar starts in the middle of, and a query for weeks fails with it
(`Intent.truncation_total`).
-/

namespace TableTalk

open Sql

/-- The first Monday of the calendar, which starts on a Thursday. -/
def Date.firstMonday : Date := ⟨firstYear, 1, 5, by decide⟩

namespace Grain

variable {g : Grain} {d : Date}

theorem ofName?_eq_some {s : String} : ofName? s = some g ↔ s = g.name := by
  constructor
  · intro h
    unfold ofName? at h
    split_ifs at h with hday hweek hmonth hyear
    all_goals
      cases h
      assumption
  · rintro rfl
    cases g <;> decide

/-- A bucket starts in the calendar unless it is a week that starts in front of it. -/
theorem start?_eq_none_iff : g.start? d = none ↔ g = week ∧ d.Before .firstMonday := by
  obtain ⟨-, -, hmonth, hmonths, -, -⟩ := d.valid
  have hstart : ∀ {o : Option Date}, o.isSome → g ≠ week →
      (o = none ↔ g = week ∧ d.Before .firstMonday) := fun h hg =>
    iff_of_false (fun hnone => by rw [hnone] at h; cases h) fun hweek => hg hweek.1
  cases g with
  | day => exact hstart rfl (by decide)
  | month => exact hstart (Date.of?_isSome.2 (d.valid_first hmonth hmonths)) (by decide)
  | year => exact hstart (Date.of?_isSome.2 (d.valid_first (by decide) (by decide))) (by decide)
  | week =>
    have hback := Date.back?_isSome (n := d.weekday) (d := d)
    have hweek := weekday_eq d
    have hfirst := d.not_before_firstDay
    have hday : Date.firstDay.dayNumber = -95746130 := by decide
    have hmonday : Date.firstMonday.dayNumber = -95746126 := by decide
    rw [Date.before_iff] at hfirst
    rw [start?, Date.before_iff, ← Option.not_isSome_iff_eq_none, hback]
    simp only [true_and]
    omega

end Grain

namespace Cell

/-- A text that is the name of a grain, in small or capital letters. -/
def Names (c : Cell) (g : Grain) : Prop := ∃ w, c = text w ∧ Text.sameAscii w g.name = true

/-- A date whose bucket starts in front of the calendar. -/
def Early (g : Grain) (c : Cell) : Prop :=
  g = .week ∧ ∃ t, c.timestamp? = some t ∧ t.date.Before .firstMonday

variable {g : Grain} {c grain : Cell}

theorem names_iff : grain.Names g ↔
    ∃ w, grain = text w ∧ Grain.ofName? (Text.lowerAscii w) = some g := by
  have hname : Text.lowerAscii g.name = g.name := by
    cases g <;> decide
  refine exists_congr fun w => and_congr_right fun _ => ?_
  rw [Grain.ofName?_eq_some, Text.sameAscii, beq_iff_eq, hname]

theorem Names.unique {h : Grain} (hg : grain.Names g) (hh : grain.Names h) : g = h := by
  obtain ⟨w, rfl, hw⟩ := names_iff.1 hg
  obtain ⟨_, ⟨⟩, hw'⟩ := names_iff.1 hh
  exact Option.some.inj (hw.symm.trans hw')

theorem names_name (g : Grain) : (text g.name).Names g := ⟨g.name, rfl, Text.sameAscii_refl _⟩

theorem early_iff {t : Timestamp} (ht : c.timestamp? = some t) :
    c.Early g ↔ g.start? t.date = none := by
  rw [Early, ht, Grain.start?_eq_none_iff]
  simp

theorem dateTrunc_of_not_names (h : ∀ g, ¬grain.Names g) :
    Function2.dateTrunc.apply grain c = .ok .null := by
  have hnone : truncation grain c = .none := by
    unfold truncation
    split
    · rename_i w
      rcases hw : Grain.ofName? (Text.lowerAscii w) with - | g
      · cases c.timestamp? <;> rfl
      · exact absurd (names_iff.2 ⟨w, rfl, hw⟩) (h g)
    · rfl
  rw [Function2.apply, hnone]

theorem dateTrunc_of_names (h : grain.Names g) : Function2.dateTrunc.apply grain c =
    c.timestamp?.elim (.ok .null) fun t =>
      (g.start? t.date).elim (.error .beforeCalendar) fun b => .ok (.text b.render) := by
  obtain ⟨w, rfl, hw⟩ := names_iff.1 h
  rw [Function2.apply, truncation, hw]
  rcases c.timestamp? with - | t
  · rfl
  · dsimp only [Option.elim_some]
    rcases g.start? t.date with - | b <;> rfl

/-- Under the name of a grain, a cell has no bucket, one in front of the calendar, or one in it. -/
theorem dateTrunc_cases (h : grain.Names g) :
    (c.timestamp? = none ∧ Function2.dateTrunc.apply grain c = .ok .null) ∨
      (∃ t, c.timestamp? = some t) ∧
        (c.Early g ∧ Function2.dateTrunc.apply grain c = .error .beforeCalendar ∨
          ¬c.Early g ∧ ∃ d : Date, Function2.dateTrunc.apply grain c = .ok (.text d.render)) := by
  rw [dateTrunc_of_names h]
  rcases ht : c.timestamp? with - | t
  · exact .inl ⟨rfl, rfl⟩
  · rw [early_iff ht, Option.elim_some]
    rcases g.start? t.date with - | d
    · exact .inr ⟨⟨t, rfl⟩, .inl ⟨rfl, rfl⟩⟩
    · exact .inr ⟨⟨t, rfl⟩, .inr ⟨nofun, d, rfl⟩⟩

/-- A bucket fails only for a date whose week starts in front of the calendar. -/
theorem dateTrunc_eq_error_iff {f : Fault} : Function2.dateTrunc.apply grain c = .error f ↔
    f = .beforeCalendar ∧ ∃ g, grain.Names g ∧ c.Early g := by
  by_cases h : ∃ g, grain.Names g
  · obtain ⟨g, hg⟩ := h
    have hearly : (∃ h, grain.Names h ∧ c.Early h) ↔ c.Early g :=
      ⟨fun ⟨h, hh, hc⟩ => hg.unique hh ▸ hc, fun hc => ⟨g, hg, hc⟩⟩
    rw [hearly]
    rcases dateTrunc_cases (c := c) hg with ⟨hnone, heq⟩ | ⟨-, ⟨hc, heq⟩ | ⟨hc, d, heq⟩⟩ <;> rw [heq]
    · refine iff_of_false nofun ?_
      rintro ⟨-, -, t, ht, -⟩
      rw [hnone] at ht
      cases ht
    · rw [Except.error.injEq, eq_comm, and_iff_left hc]
    · exact iff_of_false nofun fun hf => hc hf.2
  · rw [dateTrunc_of_not_names fun g hg => h ⟨g, hg⟩]
    exact iff_of_false nofun fun ⟨_, g, hg, _⟩ => h ⟨g, hg⟩

/-- A bucket is shown where the cell is a date and has one in the calendar. -/
theorem dateTrunc_eq_text_iff :
    (∃ d : Date, Function2.dateTrunc.apply grain c = .ok (.text d.render)) ↔
      ∃ g, grain.Names g ∧ (∃ t, c.timestamp? = some t) ∧ ¬c.Early g := by
  constructor
  · rintro ⟨d, hd⟩
    by_cases h : ∃ g, grain.Names g
    · obtain ⟨g, hg⟩ := h
      refine ⟨g, hg, ?_⟩
      rcases dateTrunc_cases (c := c) hg with ⟨-, heq⟩ | ⟨ht, ⟨-, heq⟩ | ⟨hc, -⟩⟩
      · cases heq.symm.trans hd
      · cases heq.symm.trans hd
      · exact ⟨ht, hc⟩
    · cases (dateTrunc_of_not_names fun g hg => h ⟨g, hg⟩).symm.trans hd
  · rintro ⟨g, hg, ⟨t, ht⟩, hnot⟩
    rcases dateTrunc_cases (c := c) hg with ⟨hnone, -⟩ | ⟨-, ⟨hc, -⟩ | ⟨-, hd⟩⟩
    · cases ht.symm.trans hnone
    · exact absurd hc hnot
    · exact hd

theorem dateTrunc_eq_null_iff : Function2.dateTrunc.apply grain c = .ok .null ↔
    ¬((∃ g, grain.Names g) ∧ ∃ t, c.timestamp? = some t) := by
  by_cases h : ∃ g, grain.Names g
  · obtain ⟨g, hg⟩ := h
    rw [and_iff_right ⟨g, hg⟩]
    rcases dateTrunc_cases (c := c) hg with ⟨hnone, heq⟩ | ⟨ht, ⟨-, heq⟩ | ⟨-, d, heq⟩⟩ <;> rw [heq]
    · exact iff_of_true rfl fun ⟨t, ht⟩ => by cases hnone.symm.trans ht
    · exact iff_of_false nofun fun hnot => hnot ht
    · exact iff_of_false nofun fun hnot => hnot ht
  · exact iff_of_true (dateTrunc_of_not_names fun g hg => h ⟨g, hg⟩) fun hand => h hand.1

/-- The bucket of a date in a query, which casts it first, fails only if it is early. -/
theorem isOk_dateTrunc_iff :
    (∃ d, Function2.dateTrunc.apply (.text g.name) (Function.tryCastTimestamp.apply c) = .ok d) ↔
      ¬c.Early g := by
  have hdate := congrArg (Option.map Timestamp.date) (timestamp?_tryCast c)
  have hcast : Function2.dateTrunc.apply (.text g.name) (Function.tryCastTimestamp.apply c) =
      Function2.dateTrunc.apply (.text g.name) c := by
    rw [Option.map_map] at hdate
    rw [Function2.apply, Function2.apply, truncation_congr _ hdate]
  rw [hcast]
  rcases dateTrunc_cases (c := c) (names_name g) with ⟨hnone, heq⟩ | ⟨-, ⟨hc, heq⟩ | ⟨hc, d, heq⟩⟩ <;>
    rw [heq]
  · refine iff_of_true ⟨_, rfl⟩ ?_
    rintro ⟨-, t, ht, -⟩
    cases hnone.symm.trans ht
  · refine iff_of_false ?_ fun hnot => hnot hc
    rintro ⟨d, hd⟩
    cases hd
  · exact iff_of_true ⟨_, rfl⟩ hc

end Cell

/-- The dates of records have buckets if none of them is early. -/
theorem Scope.dates_iff {s : Scope} {P : Record → Prop} {a : Analysis} {b : Grain × String}
    (hb : b ∈ a.bucket?) : s.Dates P a ↔ ∀ x, P x → ¬(s.cell b.2 x).Early b.1 := by
  have hcell : ∀ n, s.ref? b.2 = some n → ∀ x, s.cell b.2 x = n.read (some x) := fun n hn x => by
    rw [cell, hn]
    rfl
  constructor
  · intro h x hx
    rcases hn : s.ref? b.2 with - | n
    · rw [cell, hn]
      rintro ⟨-, t, ht, -⟩
      cases ht
    · rw [hcell n hn]
      exact Cell.isOk_dateTrunc_iff.1 (h b hb n hn x hx)
  · intro h d hd n hn x hx
    cases Option.mem_unique hb hd
    exact Cell.isOk_dateTrunc_iff.2 (hcell n hn x ▸ h x hx)

namespace Intent

variable {t : Target} {schema : Schema} {rows out : List Row} {a : Analysis} {fs : List Filter}
  {b : Grain × String}

/-- A query that runs has a bucket for the date of each record that it keeps. -/
theorem not_early_of_execute (hd : t.dialect = .directColumn) (hb : b ∈ a.bucket?)
    (hout : Store.executeOnce t.source.text rows (a.query t schema (t.conditions fs)).text =
      .ok out) :
    ∃ kept, a.kept t schema fs rows = .ok kept ∧
      ∀ x ∈ kept, ¬((Scope.ofRows rows).cell b.2 x).Early b.1 := by
  obtain ⟨-, -, -, -, p, cells, u, hp, hcells, -⟩ := (executeOnce_query hd a).1 hout
  obtain ⟨kept, hkept, hcells⟩ := bind_eq_ok.1 hcells
  obtain ⟨frames, hframes, -⟩ := bind_eq_ok.1 hcells
  refine ⟨kept, by rw [Analysis.kept, hp]; exact hkept, (Scope.dates_iff hb).1 ?_⟩
  intro d hd' n hn x hx
  exact Plan.exists_of_frames (Scope.groupBy_bucket hd hp hd' hn) hframes x hx

/-- Casts give a value or nothing, and so does the bucket of a date, which is nothing exactly if it is
asked for no grain or of no date. The one exception is a week that starts in front of the calendar,
and queries that have a bucket for each date run in spite of all else in their cells. -/
theorem truncation_total (grain x : Cell) :
    ((Function.tryCastDouble.apply x = .null ∨ ∃ y, Function.tryCastDouble.apply x = .real y) ∧
      (Function.tryCastTimestamp.apply x = .null ∨
        ∃ u : Timestamp, Function.tryCastTimestamp.apply x = .text u.render)) ∧
    ((∀ f, Function2.dateTrunc.apply grain x = .error f ↔
        f = .beforeCalendar ∧ ∃ g, grain.Names g ∧ x.Early g) ∧
      ((∃ d : Date, Function2.dateTrunc.apply grain x = .ok (.text d.render)) ↔
        ∃ g, grain.Names g ∧ (∃ u, x.timestamp? = some u) ∧ ¬x.Early g) ∧
      (Function2.dateTrunc.apply grain x = .ok .null ↔
        ¬((∃ g, grain.Names g) ∧ ∃ u, x.timestamp? = some u))) ∧
    ∀ (t : Target) (schema : Schema) (first : Row) (rest : List Row) (a : Analysis)
      (fs : List Filter) (c : Float) (r text : String) (s : Store), ∀ b ∈ a.bucket?,
      t.dialect = .directColumn → Store.empty.load t.source.text (first :: rest) = .ok s →
      (analyze a fs c r).compile t schema = .ok text →
      ((∃ out, Store.executeOnce t.source.text (first :: rest) text = .ok out) →
        ∃ kept, a.kept t schema fs (first :: rest) = .ok kept ∧
          ∀ x ∈ kept, ¬((Scope.ofRows (first :: rest)).cell b.2 x).Early b.1) ∧
      ((∀ u ∈ (analyze a fs c r).texts t, Clean u) →
        Select.joined 0 (t.conditions fs) ≤ Select.depthLimit →
        (∀ f ∈ fs, ∀ p ∈ f.pattern?, p.utf8ByteSize ≤ Cell.patternLimit) →
        (∀ f ∈ fs, ∀ x, f.value = .number x → x.isFinite = true) →
        (a.kind = .compare → Text.sameAscii "period_stats" t.source.text = false) →
        (analyze a fs c r).Answered t schema first →
        (∀ x ∈ (Table.ofRows t.source.text (first :: rest)).numbered,
          ¬((Scope.ofRows (first :: rest)).cell b.2 x).Early b.1) →
        ∃ out, Store.executeOnce t.source.text (first :: rest) text = .ok out) := by
  refine ⟨⟨?_, ?_⟩, ⟨fun f => Cell.dateTrunc_eq_error_iff, Cell.dateTrunc_eq_text_iff,
    Cell.dateTrunc_eq_null_iff⟩, ?_⟩
  · rw [Function.apply]
    rcases x.tryCastDouble with - | y
    · exact .inl rfl
    · rw [Cell.ofFloat?, Cell.ofFloat]
      split_ifs
      · exact .inl rfl
      · exact .inr ⟨y, rfl⟩
  · rcases h : x.timestamp? with - | u
    · exact .inl (Cell.tryCastTimestamp_of_none h)
    · exact .inr ⟨u, Cell.tryCastTimestamp_of_some h⟩
  · intro t schema first rest a fs c r text s b hb hd hload htext
    obtain ⟨_, _, _, _, ⟨⟩, -, rfl⟩ := exists_analyze htext
    refine ⟨fun hout => hout.elim fun _ => not_early_of_execute hd hb, ?_⟩
    intro hclean hdepth hpatterns hnumbers hapart hanswered hdates
    have hl : (analyze a fs c r).Limits t (first :: rest) := by
      refine ⟨hclean, hdepth, hpatterns, ?_⟩
      rintro _ _ _ _ ⟨⟩
      exact (Scope.dates_iff hb).2 hdates
    refine executeOnce_of_binds hd hload htext hnumbers hl hapart ?_
    rintro _ _ _ _ ⟨⟩
    exact binds_ofRows.2 hanswered

/-- The table of one row with a date. -/
def dated (d : String) : List Row := [⟨[("d", .str d), ("v", .int 1)], by simp⟩]

/-- A total for each week. -/
def weekly : Analysis := .trend "v" "d" .sum .week

/-- The first Monday has a week of its own, and the day in front of it has none. -/
theorem truncation_total_monday :
    (∃ text out, (analyze weekly [] 1 "").compile ⟨.directColumn, none, none⟩
        (Profile.ofRows (dated "-262143-01-05")) = .ok text ∧
      Store.executeOnce defaultTable (dated "-262143-01-05") text = .ok out) ∧
    (∃ text, (analyze weekly [] 1 "").compile ⟨.directColumn, none, none⟩
        (Profile.ofRows (dated "-262143-01-04")) = .ok text ∧
      ∀ out, Store.executeOnce defaultTable (dated "-262143-01-04") text ≠ .ok out) ∧
    Function2.dateTrunc.apply (.text "week") (.text "-262143-01-04") =
      .error .beforeCalendar := by
  obtain ⟨-, ⟨hbucket, -⟩, hrun⟩ := truncation_total (.text "week") (.text "-262143-01-04")
  obtain ⟨s, hload⟩ : ∃ s, Store.empty.load defaultTable (dated "-262143-01-05") = .ok s :=
    Store.load_default (by decide)
  obtain ⟨u, hload'⟩ : ∃ s, Store.empty.load defaultTable (dated "-262143-01-04") = .ok s :=
    Store.load_default (by decide)
  obtain ⟨text, htext⟩ : ∃ text, (analyze weekly [] 1 "").compile ⟨.directColumn, none, none⟩
      (Profile.ofRows (dated "-262143-01-05")) = .ok text := isOk_of_isSome (by decide +kernel)
  obtain ⟨text', htext'⟩ : ∃ text, (analyze weekly [] 1 "").compile ⟨.directColumn, none, none⟩
      (Profile.ofRows (dated "-262143-01-04")) = .ok text := isOk_of_isSome (by decide +kernel)
  have hmonday : (Cell.text "-262143-01-05").timestamp? = some (.midnight .firstMonday) := by
    decide +kernel
  have hsunday : (Cell.text "-262143-01-04").timestamp? =
      some (.midnight ⟨Date.firstYear, 1, 4, by decide⟩) := by decide +kernel
  have hearly : (Cell.text "-262143-01-04").Early .week :=
    ⟨rfl, _, hsunday, .inr ⟨rfl, .inr ⟨rfl, by decide⟩⟩⟩
  obtain ⟨-, hruns⟩ := hrun ⟨.directColumn, none, none⟩ _ _ _ weekly [] 1 "" text s _ rfl rfl hload
    htext
  obtain ⟨hfails, -⟩ := hrun ⟨.directColumn, none, none⟩ _ _ _ weekly [] 1 "" text' u _ rfl rfl
    hload' htext'
  have hanswered : (analyze weekly [] 1 "").Answered ⟨.directColumn, none, none⟩
      (Profile.ofRows (dated "-262143-01-05"))
      ⟨[("d", .str "-262143-01-05"), ("v", .int 1)], by simp⟩ := by
    refine ⟨fun c hc => Row.answers_of_mem ?_, nofun⟩
    revert c
    decide
  refine ⟨⟨text, ?_⟩, ⟨text', htext', fun out hout => ?_⟩, ?_⟩
  · have hcell : ∀ x ∈ (Table.ofRows defaultTable (dated "-262143-01-05")).numbered,
        (Scope.ofRows (dated "-262143-01-05")).cell "d" x = .text "-262143-01-05" := by
      decide +kernel
    have hlate : ¬(Cell.text "-262143-01-05").Early .week := by
      rw [Cell.early_iff hmonday]
      decide
    obtain ⟨out, hout⟩ := hruns (by decide) (by decide) nofun nofun nofun hanswered fun x hx => by
      show ¬((Scope.ofRows (dated "-262143-01-05")).cell "d" x).Early .week
      rwa [hcell x hx]
    exact ⟨out, htext, hout⟩
  · obtain ⟨kept, hkept, hnot⟩ := hfails ⟨out, hout⟩
    cases kept_unfiltered rfl hkept
    have hcell : ∃ x ∈ (Table.ofRows defaultTable (dated "-262143-01-04")).numbered,
        (Scope.ofRows (dated "-262143-01-04")).cell "d" x = .text "-262143-01-04" := by
      decide +kernel
    obtain ⟨x, hx, hcell⟩ := hcell
    exact hnot x hx (hcell ▸ hearly)
  · exact (hbucket _).2 ⟨rfl, .week, Cell.names_name .week, hearly⟩

end Intent

end TableTalk
