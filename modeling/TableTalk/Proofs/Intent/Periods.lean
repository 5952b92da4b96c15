import TableTalk.Proofs.Intent.Groups
import TableTalk.Proofs.Store.Window

/-!
# Periods of a comparison

The periods of a comparison are the buckets of the dates of the records that it keeps, and one more
for the records without a date. They are listed from the last text to the first, that one at the
end, and each with the one behind it in the whole list (`Intent.execute_periods`).
-/

namespace TableTalk

open Sql

namespace Scope

/-- The first day of the period that a record belongs to, if it has a date. -/
def start? (s : Scope) (date : String) (g : Grain) (x : Record) : Option Date :=
  (s.cell date x).timestamp?.bind fun t => g.start? t.date

/-- The total of the records of a period, or of those without a date. -/
def total (s : Scope) (metric date : String) (g : Grain) (kept : List Record)
    (start : Option Date) : Cell :=
  AggregateFunction.sum.apply ((kept.filter (s.start? date g · = start)).map (s.number metric))

theorem total_eq_null {s : Scope} {metric date : String} {g : Grain} {kept : List Record}
    {start : Option Date} (h : ∀ x ∈ kept, s.start? date g x ≠ start) :
    s.total metric date g kept start = .null := by
  have hnil : kept.filter (s.start? date g · = start) = [] :=
    List.filter_eq_nil_iff.2 fun x hx heq => h x hx (of_decide_eq_true heq)
  rw [total, hnil]
  rfl

/-- A day on which a period of some records starts. -/
def Starts (s : Scope) (date : String) (g : Grain) (kept : List Record) (d : Date) : Prop :=
  ∃ x ∈ kept, s.start? date g x = some d

end Scope

/-- What a row of a comparison says of its period. -/
structure Row.Preceded (row : Row) (s : Scope) (metric date : String) (g : Grain)
    (kept : List Record) (start : Option Date) : Prop where
  mem : ∃ x ∈ kept, s.start? date g x = start
  listed : row.get? "date" = some (start.elim .null fun d => .str d.render)
  current : row.get? "current_value" = some (s.total metric date g kept start).toJson
  undated : start = none → row.get? "previous_value" = some .null
  /-- A later day is compared with the latest before it. -/
  later : ∀ d e, start = some d → s.Starts date g kept e → e.Before d →
    (∀ f, s.Starts date g kept f → f.Before d → ¬e.Before f) →
    row.get? "previous_value" = some (s.total metric date g kept (some e)).toJson
  /-- The first day is compared with the records that have none. -/
  first : ∀ d, start = some d → (∀ e, s.Starts date g kept e → ¬e.Before d) →
    row.get? "previous_value" = some (s.total metric date g kept none).toJson
  /-- If all records have one, it is compared with nothing. -/
  alone : ∀ d, start = some d → (∀ e, s.Starts date g kept e → ¬e.Before d) →
    (∀ x ∈ kept, s.start? date g x ≠ none) → row.get? "previous_value" = some .null ∧
      row.get? "change_value" = some .null ∧ row.get? "percentage_change" = some .null

namespace Period

/-- What a period is listed as. -/
def label (start : Option Date) : Cell := .ofText? (start.map Date.render)

/-- Which period is listed in front of which: the one with the greater text, and the one without a
date behind all others. -/
def Precedes : Option Date → Option Date → Prop
  | some d, some e => e.render < d.render
  | some _, none => True
  | none, _ => False

instance : DecidableRel Precedes
  | some d, some e => inferInstanceAs (Decidable (e.render < d.render))
  | some _, none => isTrue trivial
  | none, _ => isFalse id

variable {o p : Option Date} {before behind : List (Option Date)} {d e : Date}

theorem precedes_iff (hd : 0 ≤ d.year ∧ d.year ≤ 9999) (he : 0 ≤ e.year ∧ e.year ≤ 9999) :
    Precedes (some d) (some e) ↔ e.Before d := Date.render_lt_iff he hd

section Behind

variable (hsorted : (before ++ some d :: behind).Pairwise Precedes)
  (hyears : ∀ f, some f ∈ before ++ some d :: behind → 0 ≤ f.year ∧ f.year ≤ 9999)

include hsorted hyears

/-- Behind a day come those before it. -/
theorem mem_behind_iff (he : some e ∈ before ++ some d :: behind) :
    some e ∈ behind ↔ e.Before d := by
  obtain ⟨-, hrest, hacross⟩ := List.pairwise_append.1 hsorted
  have hd := hyears d (by simp)
  refine ⟨fun h => (precedes_iff hd (hyears e he)).1 (List.rel_of_pairwise_cons hrest h),
    fun h => ?_⟩
  rcases List.mem_append.1 he with hbefore | hmem
  · have hde : d.Before e :=
      (precedes_iff (hyears e he) hd).1 (hacross _ hbefore _ List.mem_cons_self)
    unfold Date.Before at h hde
    omega
  · rcases List.mem_cons.1 hmem with heq | hbehind
    · cases heq
      unfold Date.Before at h
      omega
    · exact hbehind

/-- Next to a day comes the latest before it. -/
theorem head_behind_of_latest (he : some e ∈ before ++ some d :: behind) (hed : e.Before d)
    (hlatest : ∀ f, some f ∈ before ++ some d :: behind → f.Before d → ¬e.Before f) :
    behind.head? = some (some e) := by
  have hmem := (mem_behind_iff hsorted hyears he).2 hed
  obtain ⟨-, hrest, -⟩ := List.pairwise_append.1 hsorted
  obtain ⟨hfirst, hbehind⟩ := List.pairwise_cons.1 hrest
  rcases behind with - | ⟨n, behind⟩
  · cases hmem
  · rcases List.mem_cons.1 hmem with heq | hlater
    · rw [heq]
      rfl
    · have hne := List.rel_of_pairwise_cons hbehind hlater
      rcases n with - | f
      · exact hne.elim
      · have hf : some f ∈ before ++ some d :: some f :: behind := by simp
        have hfd := (mem_behind_iff hsorted hyears hf).1 List.mem_cons_self
        exact absurd ((precedes_iff (hyears f hf) (hyears e he)).1 hne) (hlatest f hf hfd)

/-- Behind the first day there is no other. -/
theorem eq_none_of_first (hfirst : ∀ f, some f ∈ before ++ some d :: behind → ¬f.Before d) :
    ∀ o ∈ behind, o = none := by
  rintro (- | f) ho
  · rfl
  · have hf : some f ∈ before ++ some d :: behind := by simp [ho]
    exact absurd ((mem_behind_iff hsorted hyears hf).1 ho) (hfirst f hf)

end Behind

theorem eq_of_label_same (h : (label o).same (label p) = true) : o = p := by
  rcases o with - | d <;> rcases p with - | e
  · rfl
  · cases h
  · cases h
  · rw [Date.render_inj (Cell.compareText_eq_iff.1 (Cell.same_iff.1 h))]

theorem precedes_of_notAfter (h : (label o).notAfter .desc (label p) = true) (hne : o ≠ p) :
    Precedes o p := by
  rcases o with - | d <;> rcases p with - | e
  · exact absurd rfl hne
  · cases h
  · trivial
  · have hnlt : Cell.compareText d.render e.render ≠ .lt := bne_iff_ne.1 h
    have hne : d.render ≠ e.render := fun heq => hne (congrArg some (Date.render_inj heq))
    rw [Cell.compareText, ne_eq, ite_eq_left_iff] at hnlt
    have hle : e.render ≤ d.render := String.not_lt.1 fun hlt => hnlt fun hn => absurd hlt hn
    by_contra hlt
    exact hne (String.le_antisymm (String.not_lt.1 hlt) hle)

/-- The row of a period beside the one before. -/
def row (x : Period × Option Period) : Row :=
  Row.ofMembers (["date", "current_value", "previous_value", "change_value",
    "percentage_change"].zip ((compared x).map Cell.toJson))

theorem cells_row (x : Period × Option Period) : (row x).cells =
    ["date", "current_value", "previous_value", "change_value", "percentage_change"].zip
      ((compared x).map Cell.toJson) := by
  refine Row.cells_ofMembers ?_
  show ["date", "current_value", "previous_value", "change_value", "percentage_change"].Nodup
  decide

/-- What a row says of its period, and of the one before. -/
theorem get?_row (x : Period × Option Period) :
    (row x).get? "date" = some x.1.date.toJson ∧
      (row x).get? "current_value" = some x.1.total.toJson ∧
      (row x).get? "previous_value" = some (x.2.elim .null total).toJson ∧
      (row x).get? "change_value" = some (x.1.total.minus (x.2.elim .null total)).toJson ∧
      (row x).get? "percentage_change" =
        some ((x.1.total.minus (x.2.elim .null total)).rate (x.2.elim .null total)).toJson := by
  unfold Row.get?
  rw [cells_row]
  exact ⟨rfl, rfl, rfl, rfl, rfl⟩

end Period

/-- A period by the day on which it starts. -/
def Scope.period (s : Scope) (metric date : String) (g : Grain) (kept : List Record)
    (start : Option Date) : Period := ⟨Period.label start, s.total metric date g kept start⟩

namespace Period

variable {s : Scope} {metric date : String} {g : Grain} {kept : List Record}
  {before behind : List (Option Date)} {start : Option Date}

/-- The row of a period, between those that are listed in front of it and behind it. -/
theorem preceded_row (hstarts : ∀ o, o ∈ before ++ start :: behind ↔
      ∃ x ∈ kept, s.start? date g x = o)
    (hsorted : (before ++ start :: behind).Pairwise Precedes)
    (hyears : ∀ d, s.Starts date g kept d → 0 ≤ d.year ∧ d.year ≤ 9999) :
    (row (s.period metric date g kept start,
      behind.head?.map (s.period metric date g kept))).Preceded s metric date g kept start := by
  obtain ⟨hdate, hcurrent, hprevious, hchange, hrate⟩ := get?_row
    (s.period metric date g kept start, behind.head?.map (s.period metric date g kept))
  have hyears : ∀ d, some d ∈ before ++ start :: behind → 0 ≤ d.year ∧ d.year ≤ 9999 :=
    fun d hd => hyears d ((hstarts _).1 hd)
  have hfirst : ∀ d, start = some d → (∀ e, s.Starts date g kept e → ¬e.Before d) →
      ∀ o ∈ behind, o = none := by
    rintro d rfl hfirst
    exact eq_none_of_first hsorted hyears fun f hf => hfirst f ((hstarts _).1 hf)
  have hundated : ∀ {d}, start = some d → behind = [] → none ∉ before ++ start :: behind := by
    rintro d rfl rfl hmem
    have hbefore : none ∈ before := by simpa using hmem
    exact (List.pairwise_append.1 hsorted).2.2 _ hbefore _ List.mem_cons_self
  refine ⟨(hstarts _).1 (by simp), ?_, hcurrent, ?_, ?_, ?_, ?_⟩
  · rw [hdate]
    cases start <;> rfl
  · rintro rfl
    obtain ⟨-, hrest, -⟩ := List.pairwise_append.1 hsorted
    rcases behind with - | ⟨n, behind⟩
    · exact hprevious
    · exact (List.rel_of_pairwise_cons hrest List.mem_cons_self).elim
  · rintro d e rfl he hed hlatest
    rw [hprevious, head_behind_of_latest hsorted hyears ((hstarts _).2 he) hed
      fun f hf => hlatest f ((hstarts _).1 hf)]
    rfl
  · rintro d rfl hday
    have hnone := hfirst d rfl hday
    rw [hprevious]
    rcases behind with - | ⟨o, behind⟩
    · -- with nothing behind it, no record is without a date, so their total is nothing as well
      rw [Scope.total_eq_null fun x hx hstart => hundated rfl rfl ((hstarts _).2 ⟨x, hx, hstart⟩)]
      rfl
    · rw [hnone o List.mem_cons_self]
      rfl
  · rintro d rfl hday hdated
    have hnone := hfirst d rfl hday
    rcases behind with - | ⟨o, behind⟩
    · have hnull : (s.total metric date g kept (some d)).minus .null = .null := Cell.minus_null _
      refine ⟨hprevious, hchange.trans ?_, hrate.trans ?_⟩ <;>
      · dsimp only [Scope.period, List.head?_nil, Option.map_none, Option.elim_none]
        rw [hnull]
        rfl
    · obtain ⟨x, hx, hstart⟩ := (hstarts none).1 (by simp [hnone o List.mem_cons_self])
      exact absurd hstart (hdated x hx)

end Period

/-- Groups by bucket are those of the days on which buckets start, and of what has no date. -/
theorem Scope.exists_starts {s : Scope} {date : String} {g : Grain} {kept : List Record}
    {gs : List (List Record)} (h : Splits (fun x => Period.label (s.start? date g x)) kept gs)
    (hsorted : gs.Pairwise fun v w =>
      (labelOf (fun x => Period.label (s.start? date g x)) v).notAfter .asc
        (labelOf (fun x => Period.label (s.start? date g x)) w) = true) :
    ∃ starts : List (Option Date), starts.Nodup ∧
      (∀ o, o ∈ starts ↔ ∃ x ∈ kept, s.start? date g x = o) ∧
      gs = (starts.map fun o => kept.filter (s.start? date g · = o)) ∧
      (∀ o ∈ starts, labelOf (fun x => Period.label (s.start? date g x))
        (kept.filter (s.start? date g · = o)) = Period.label o) ∧
      starts.Pairwise fun o q => (Period.label o).notAfter .asc (Period.label q) = true := by
  obtain ⟨starts, hnodup, hstarts, rfl, hlabels⟩ :=
    h.exists_views (s.start? date g) Period.label (fun _ _ => Period.eq_of_label_same)
  refine ⟨starts, hnodup, hstarts, rfl, hlabels, ?_⟩
  refine (List.pairwise_map.1 hsorted).imp_of_mem fun {o q} ho hq hoq => ?_
  rwa [hlabels o ho, hlabels q hq] at hoq

/-- The periods of a comparison, in the order of their labels. -/
theorem Scope.run_periods {s : Scope} {t : Target} {schema : Schema} {cs : List (Expr Name)}
    {metric date : String} {period : ComparePeriod} {p : Plan} {rs : List Record}
    {cells : List (List Cell)} (hd : t.dialect = .directColumn)
    (hp : s.plan ((Analysis.compare metric date period).data t schema cs) = .ok p)
    (hcells : p.run rs = .ok cells) : ∃ (kept : List Record) (starts : List (Option Date)),
      p.selected rs = .ok kept ∧ starts.Nodup ∧
      (∀ o, o ∈ starts ↔ ∃ x ∈ kept, s.start? date period.grain x = o) ∧
      (starts.Pairwise fun o q => (Period.label o).notAfter .asc (Period.label q) = true) ∧
      cells = starts.map fun o => [Period.label o, s.total metric date period.grain kept o] := by
  obtain ⟨kept, gs, hkept, hsplits, hsorted, rfl⟩ := (labels_of_plan hd rfl hp).run hcells
  obtain ⟨-, -, -, -, -, -, -, hlimit, -⟩ := plan_grouped_eq hd rfl hp
  obtain ⟨starts, hnodup, hstarts, rfl, hlabels, hsorted⟩ := exists_starts hsplits hsorted
  refine ⟨kept, starts, hkept, hnodup, hstarts, hsorted, ?_⟩
  rw [Plan.limited, hlimit, List.map_map]
  refine List.map_congr_left fun o ho => ?_
  rw [← hlabels o ho]
  rfl

namespace Intent

variable {t : Target} {schema : Schema} {rows out : List Row} {fs : List Filter}
  {metric date : String} {period : ComparePeriod}

/-- A comparison lists its periods, each with the next one, and cuts the list off. -/
theorem execute_periods (hd : t.dialect = .directColumn)
    (hout : Store.executeOnce t.source.text rows ((Analysis.compare metric date period).query t
      schema (t.conditions fs)).text = .ok out) :
    ∃ (kept : List Record) (starts : List (Option Date)),
      (Analysis.compare metric date period).kept t schema fs rows = .ok kept ∧
      (∀ o, o ∈ starts ↔ ∃ x ∈ kept, (Scope.ofRows rows).start? date period.grain x = o) ∧
      starts.Pairwise Period.Precedes ∧
      out = ((beside (starts.map ((Scope.ofRows rows).period metric date period.grain kept))).take
        compareCap).map Period.row := by
  obtain ⟨-, -, -, -, p, cells, u, hp, hcells, hfinish, rfl⟩ := (executeOnce_query hd _).1 hout
  have hkind : (Analysis.compare metric date period).kind = .compare := rfl
  rw [Analysis.finish, if_pos hkind] at hfinish
  obtain ⟨q, records, hq, hrecords, rfl⟩ := Store.select_eq_ok.1 hfinish
  obtain ⟨e, v, he, hv, hcolumns, -⟩ := Scope.plan_grouped_eq hd rfl hp
  have hdate : e.type? = none := Scope.type?_label (a := .compare metric date period) hd rfl he
  have htotal : v.type? = none := by
    obtain ⟨f, hf⟩ := Scope.value_aggregate [] hv
    exact Expr.type?_of_aggregate hf
  rw [hcolumns, hdate, htotal] at hq
  cases (Scope.plan_comparison none none).symm.trans hq
  obtain ⟨kept, starts, hkept, hnodup, hstarts, hsorted, rfl⟩ := Scope.run_periods hd hp hcells
  let ps := starts.map ((Scope.ofRows rows).period metric date period.grain kept)
  have hps : (Table.mk "" p.columns (starts.map fun o => [Period.label o, (Scope.ofRows rows).total
      metric date period.grain kept o])).numbered.map Period.ofRecord = ps :=
    (Table.map_numbered _ Period.ofCells).trans List.map_map
  have hdates : ps.map Period.date = starts.map Period.label := List.map_map
  have hasc : (starts.map Period.label).Pairwise fun b c => b.notAfter .asc c = true :=
    List.pairwise_map.2 hsorted
  have happart : (starts.map Period.label).Pairwise fun b c => b.same c = false :=
    List.pairwise_map.2 (hnodup.imp fun hne => Bool.eq_false_iff.2 fun hsame =>
      hne (Period.eq_of_label_same hsame))
  cases hrecords.symm.trans (Plan.run_comparison hps (hdates ▸ hasc) (hdates ▸ happart))
  refine ⟨kept, starts.reverse, by rw [Analysis.kept, hp]; exact hkept, fun o =>
    List.mem_reverse.trans (hstarts o), ?_, ?_⟩
  · refine List.pairwise_reverse.2 ((hsorted.and hnodup).imp fun h => ?_)
    exact Period.precedes_of_notAfter ((Cell.notAfter_flip .asc _ _).trans h.1) h.2.symm
  · rw [Table.rows, List.map_map, List.map_reverse]
    rfl

/-- A period is compared with the one before it, and the first of them with what has no date. -/
theorem execute_preceded {c : Float} {r text : String} (hd : t.dialect = .directColumn)
    (h : (analyze (.compare metric date period) fs c r).compile t schema = .ok text)
    (hout : Store.executeOnce t.source.text rows text = .ok out) :
    ∃ kept, (Analysis.compare metric date period).kept t schema fs rows = .ok kept ∧
      ((∀ d, (Scope.ofRows rows).Starts date period.grain kept d → 0 ≤ d.year ∧ d.year ≤ 9999) →
        ∀ row ∈ out, ∃ start,
          row.Preceded (Scope.ofRows rows) metric date period.grain kept start) := by
  obtain ⟨_, _, _, _, ⟨⟩, -, rfl⟩ := exists_analyze h
  obtain ⟨kept, starts, hkept, hstarts, hsorted, rfl⟩ := execute_periods hd hout
  refine ⟨kept, hkept, fun hyears row hrow => ?_⟩
  obtain ⟨x, hx, rfl⟩ := List.mem_map.1 hrow
  rw [map_beside] at hx
  obtain ⟨y, hy, rfl⟩ := List.mem_map.1 (List.mem_of_mem_take hx)
  obtain ⟨before, behind, rfl, hnext⟩ := exists_of_mem_beside hy
  obtain ⟨start, next⟩ := y
  obtain rfl : next = behind.head? := hnext
  exact ⟨start, Period.preceded_row hstarts hsorted hyears⟩

/-- A comparison by month runs if each date has one. -/
theorem exists_monthly (hload : ∃ s, Store.empty.load defaultTable rows = .ok s)
    (htext : ((analyze (.compare "v" "d" .monthOverMonth) [] 1 "").compile
      ⟨.directColumn, none, none⟩ (Profile.ofRows rows)).toOption.isSome = true)
    (hmonths : ∀ n ∈ (Scope.ofRows rows).ref? "d", ∀ x ∈ (Table.ofRows defaultTable rows).numbered,
      (Function2.dateTrunc.apply (.text Grain.month.name)
        (Function.tryCastTimestamp.apply (n.read (some x)))).toOption.isSome = true)
    (hkeys : ∀ d ∈ (analyze (.compare "v" "d" .monthOverMonth) [] 1 "").readColumns
      (Profile.ofRows rows), ∃ first ∈ rows.head?, d ∈ first.keys) :
    ∃ text out, (analyze (.compare "v" "d" .monthOverMonth) [] 1 "").compile
      ⟨.directColumn, none, none⟩ (Profile.ofRows rows) = .ok text ∧
        Store.executeOnce defaultTable rows text = .ok out := by
  refine exists_execute hload htext ⟨by decide, by decide, nofun, ?_⟩ nofun hkeys
  rintro a fs c r ⟨⟩ b ⟨⟩ n hn x hx
  exact isOk_of_isSome (hmonths n hn x hx)

/-- Two months, and a row without a date. -/
def undated : List Row := [⟨[("d", .str "2024-01-15"), ("v", .int 10)], by decide⟩,
  ⟨[("d", .str "oops"), ("v", .int 5)], by decide⟩,
  ⟨[("d", .str "2024-02-15"), ("v", .int 20)], by decide⟩]

/-- The first month is compared with the row without a date. -/
theorem execute_preceded_undated : ∃ text out,
    (analyze (.compare "v" "d" .monthOverMonth) [] 1 "").compile ⟨.directColumn, none, none⟩
      (Profile.ofRows undated) = .ok text ∧
    Store.executeOnce defaultTable undated text = .ok out ∧
    ∀ row ∈ out, row.get? "date" = some (.str "2024-01-01") →
      row.get? "previous_value" = some (.double 5) := by
  have hload : ∃ s, Store.empty.load defaultTable undated = .ok s :=
    Store.load_isOk_iff.2 ⟨by decide, by decide, by decide, nofun, by decide, by decide, nofun,
      by decide⟩
  obtain ⟨text, out, htext, hout⟩ :=
    exists_monthly hload (by decide +kernel) (by decide +kernel) (by decide)
  obtain ⟨kept, hkept, hrows⟩ := execute_preceded (t := ⟨.directColumn, none, none⟩) rfl htext hout
  obtain rfl := kept_unfiltered rfl hkept
  have hdays : ∀ x ∈ (Table.ofRows defaultTable undated).numbered,
      ∀ e ∈ (Scope.ofRows undated).start? "d" .month x, (0 ≤ e.year ∧ e.year ≤ 9999) ∧
        ¬(e.year < 2024 ∨ e.year = 2024 ∧ (e.month < 1 ∨ e.month = 1 ∧ e.day < 1)) := by
    decide +kernel
  have htotal : (Scope.ofRows undated).total "v" "d" .month
      (Table.ofRows defaultTable undated).numbered none = .real 5 := by decide +kernel
  refine ⟨text, out, htext, hout, fun row hrow hdate => ?_⟩
  obtain ⟨start, hstart⟩ := hrows (fun d ⟨x, hx, hd⟩ => (hdays x hx d hd).1) row hrow
  let january : Date := ⟨2024, 1, 1, by decide⟩
  have hrender : january.render = "2024-01-01" := by decide
  have hjanuary : start = some january := by
    have hlisted := Option.some.inj (hstart.listed.symm.trans hdate)
    rcases start with - | d
    · cases hlisted
    · exact congrArg some (Date.render_inj ((Json.str.inj hlisted).trans hrender.symm))
  have hfive : (Cell.real 5).toJson = .double 5 := by
    have hfinite : (5 : Float).isFinite = true := by decide +kernel
    rw [Cell.toJson, Json.ofFloat, if_pos hfinite]
  rw [hstart.first january hjanuary fun e ⟨x, hx, he⟩ => (hdays x hx e he).2, ← hfive, ← htotal]
  rfl

end Intent

end TableTalk
