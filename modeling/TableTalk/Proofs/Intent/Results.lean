import TableTalk.Chart.Basic
import TableTalk.Proofs.Intent.Running
import TableTalk.Proofs.Store.Results

/-!
# Results of intents

Whatever the columns of the data are called, the rows of a result have the names of its analysis as
keys (`Intent.execute_keys`), and the chart of the result goes by two of them. A result is what the
query would give without its limit, cut off behind the bound of the analysis
(`Intent.execute_bounded`). A single number has no limit to it, for it is one row already.
-/

namespace TableTalk

open Sql

namespace Analysis

/-- The names of the columns of a result. -/
def aliases : Analysis → List String
  | aggregate _ _ none => ["value"]
  | aggregate _ _ (some _) => ["group", "value"]
  | trend .. => ["date", "value"]
  | topList .. => ["label", "value"]
  | distribution .. => ["label", "value"]
  | compare .. =>
    ["date", "current_value", "previous_value", "change_value", "percentage_change"]
  | cohort .. => ["cohort_date", "cohort_size"]

/-- How many rows a result has at most. -/
def bound : Analysis → Nat
  | aggregate _ _ none => 1
  | aggregate _ _ (some _) => 100
  | trend .. => 500
  | topList _ _ limit _ => max 1 (min limit 100)
  | distribution .. => 20
  | compare .. => 12
  | cohort .. => 24

theorem nodup_aliases (a : Analysis) : a.aliases.Nodup := by
  rcases a with ⟨_, _, _ | _⟩ | _ | _ | _ | _ | _ <;> simp [aliases]

variable (t : Target) (schema : Schema) (cs : List (Expr Name))

theorem exists_items (a : Analysis) : ∃ items, (a.query t schema cs).main.items = .list items ∧
    items.map Scope.itemName = a.aliases := by
  rcases a with ⟨_, _, _ | _⟩ | _ | _ | _ | _ | _ <;> exact ⟨_, rfl, rfl⟩

theorem limit_query (a : Analysis) : (a.query t schema cs).main.limit = some a.bound ∨
    ∃ metric function, a = .aggregate metric function none := by
  rcases a with ⟨metric, function, _ | _⟩ | _ | _ | _ | _ | _
  case aggregate.none => exact .inr ⟨metric, function, rfl⟩
  all_goals exact .inl rfl

end Analysis

namespace Chart

variable {a : Analysis} {n : Nat}

theorem mem_aliases {c : Chart} (h : ofAnalysis n a = some c) :
    c.x ∈ a.aliases ∧ c.y ∈ a.aliases := by
  rcases a with ⟨_, _, _ | _⟩ | _ | _ | _ | _ | _ <;> simp only [ofAnalysis] at h
  case distribution =>
    split_ifs at h <;> cases h <;> simp [Analysis.aliases]
  all_goals cases h
  all_goals simp [Analysis.aliases]

theorem ofAnalysis_eq_none_iff :
    ofAnalysis n a = none ↔ ∃ metric function, a = .aggregate metric function none := by
  rcases a with ⟨_, _, _ | _⟩ | _ | _ | _ | _ | _ <;> simp only [ofAnalysis]
  case distribution => split_ifs <;> simp
  all_goals simp

end Chart

section Unlimited

variable {q : Query} {d : Dialect}

theorem Sql.Query.wellFormed_unlimited (h : q.WellFormed d) : q.unlimited.WellFormed d :=
  ⟨h.common, ⟨h.main.items, h.main.source, h.main.conditions, h.main.groupBy, h.main.orderBy⟩⟩

theorem Sql.Select.mem_pieces_unlimited {s : Select} {layout : Layout} {p : Piece}
    (h : p ∈ s.unlimited.pieces layout) : p ∈ s.pieces layout := by
  rw [pieces, List.mem_append] at h ⊢
  exact .inl (h.resolve_right List.not_mem_nil)

theorem Sql.Query.mem_tokens_unlimited {u : Token} (h : u ∈ q.unlimited.tokens) :
    u ∈ q.tokens := by
  obtain ⟨p, hp, hu⟩ := List.mem_filterMap.1 h
  refine List.mem_filterMap.2 ⟨p, ?_, hu⟩
  rcases q with ⟨_ | c, main⟩
  · exact Select.mem_pieces_unlimited hp
  · rcases List.mem_append.1 hp with hp | hp
    · exact List.mem_append_left _ hp
    · exact List.mem_append_right _ (Select.mem_pieces_unlimited hp)

end Unlimited

namespace Intent

variable {t : Target} {schema : Schema} {rows out : List Row} {i : Intent} {text : String}

/-- The rows of a result go by the names of the analysis. Without the limit there may be more. -/
theorem exists_result (hd : t.dialect = .directColumn) (h : i.compile t schema = .ok text)
    (hout : Store.executeOnce t.source.text rows text = .ok out) :
    ∃ a fs c r, i = analyze a fs c r ∧
      text = (a.query t schema (t.conditions fs)).text ∧
      i.query t schema = .ok (a.query t schema (t.conditions fs)) ∧
      (∀ row ∈ out, row.keys = a.aliases) ∧
      ∃ all, Store.executeOnce t.source.text rows
          (a.query t schema (t.conditions fs)).unlimited.text = .ok all ∧
        out = (a.query t schema (t.conditions fs)).main.limit.elim all all.take := by
  obtain ⟨a, fs, c, r, rfl, hq, rfl⟩ := exists_analyze h
  have hwell : (a.query t schema (t.conditions fs)).WellFormed .directColumn :=
    a.wellFormed_direct hd fs
  obtain ⟨hload, hclosed, hfits, u, hu, rfl⟩ := (Store.executeOnce_eq_ok hwell).1 hout
  obtain ⟨T, numbered, hcomplete, hselect, hrun⟩ := Store.exists_main hd rfl hu
  obtain ⟨items, hitems, hnames⟩ := a.exists_items t schema (t.conditions fs)
  obtain ⟨v, hv, hrows⟩ := Table.select_unlimited hselect hcomplete
  refine ⟨a, fs, c, r, rfl, rfl, hq, ?_, v.rows, ?_, hrows⟩
  · rw [← hnames]
    exact Table.keys_select hselect hitems (hnames ▸ a.nodup_aliases)
  · refine (Store.executeOnce_eq_ok (Query.wellFormed_unlimited hwell)).2
      ⟨hload, fun w hw => hclosed w (Query.mem_tokens_unlimited hw), hfits, v, ?_, rfl⟩
    exact hrun.trans hv

/-- A single number is one row, also of no rows at all. -/
theorem length_single {metric : String} {function : AggregateFunction} {fs : List Filter}
    (hd : t.dialect = .directColumn)
    (hout : Store.executeOnce t.source.text rows
      ((Analysis.aggregate metric function none).query t schema (t.conditions fs)).text = .ok out) :
    out.length = 1 := by
  obtain ⟨-, -, -, u, hu, rfl⟩ :=
    (Store.executeOnce_eq_ok (Analysis.wellFormed_direct hd _ fs)).1 hout
  have hkind : (Analysis.aggregate metric function none).kind ≠ .compare := nofun
  obtain ⟨p, cells, hp, hcells, rfl⟩ := (Store.run_query_eq_ok rfl hkind).1 hu
  obtain ⟨all, _, orderBy, groupBy, hall, -, horder, hgroup, -, rfl⟩ := Scope.plan_eq_ok.1 hp
  obtain ⟨x, none, hx, hnone, rfl⟩ := mapM_cons_eq_ok.1 hall
  obtain ⟨e, he, hx⟩ := bind_eq_ok.1 hx
  cases hx
  cases mapM_eq_ok_nil.1 hnone
  cases horder
  cases hgroup
  rw [Table.rows, List.length_map]
  exact Plan.length_of_single rfl rfl rfl rfl
    (Scope.value_aggregate [] (a := .aggregate metric function none) he) hcells

/-- A row whose columns are called like those of a result, the other way round. -/
def crossed : List Row := [⟨[("label", .str "A"), ("value", .str "B")], by decide⟩]

/-- The values of the one column by the totals of the other, none of them asked for. -/
def crossing : Intent := .analyze (.topList "label" "value" 0 .desc) [] 1 ""

def crossingPlan : Plan where
  columns := [⟨"label", some .varchar⟩, ⟨"value", none⟩]
  items := [.column (.cell 1 (some .varchar)),
    .aggregate .sum (.call .tryCastDouble (.column (.cell 0 (some .varchar))))]
  conditions := []
  groupBy := some (.column (.cell 1 (some .varchar)))
  orderBy :=
    some (.aggregate .sum (.call .tryCastDouble (.column (.cell 0 (some .varchar)))), .desc)
  limit := some 1

theorem plan_crossing : (Scope.ofRows crossed).plan
    ((Analysis.topList "label" "value" 0 .desc).data ⟨.directColumn, none, none⟩
      (Profile.ofRows crossed) []) = .ok crossingPlan := by
  let label : Expr Ref := .column (.cell 1 (some .varchar))
  let value : Expr Ref := .aggregate .sum (.call .tryCastDouble (.column (.cell 0 (some .varchar))))
  let all : List (Option String × Column × Expr Ref) :=
    [(some "label", ⟨"label", some .varchar⟩, label), (some "value", ⟨"value", none⟩, value)]
  have horder : (Analysis.topList "label" "value" 0 .desc).order =
      some (.number (Nat.repr (1 + 1)), .desc) := rfl
  have hgroup : (Analysis.topList "label" "value" 0 .desc).grouping ⟨.directColumn, none, none⟩ =
      some (.number (Nat.repr (0 + 1))) := rfl
  refine Scope.plan_eq_ok.2 ⟨all, [], some (value, .desc), some label, rfl, rfl, ?_, ?_, nofun, rfl⟩
  · rw [Analysis.data, horder, Option.mapM_some,
      Scope.orderKey_digit (i := (some "value", value)) _ rfl]
    rfl
  · rw [Analysis.data, hgroup, Option.mapM_some, Scope.groupKey, Scope.ordinal?_digit]
    rfl

theorem execute_crossing : ∃ text,
    crossing.compile ⟨.directColumn, none, none⟩ (Profile.ofRows crossed) = .ok text ∧
      Store.executeOnce defaultTable crossed text =
        .ok [Row.ofMembers [("label", .str "B"), ("value", .null)]] := by
  obtain ⟨text, htext⟩ : ∃ text, crossing.compile ⟨.directColumn, none, none⟩
      (Profile.ofRows crossed) = .ok text := isOk_of_isSome (by decide +kernel)
  obtain ⟨_, _, _, _, ⟨⟩, hq, rfl⟩ := exists_analyze htext
  have hload : ∃ s, Store.empty.load defaultTable crossed = .ok s :=
    Store.load_isOk_iff.2 ⟨by decide, by decide, by decide, nofun, by decide, by decide, nofun,
      by decide⟩
  have hrun : crossingPlan.run (Table.ofRows defaultTable crossed).numbered =
      .ok [[.text "B", .null]] :=
    Plan.run_single (n := 0) rfl rfl rfl (by decide) rfl rfl rfl
  have hkind : (Analysis.topList "label" "value" 0 .desc).kind ≠ .compare := nofun
  exact ⟨_, htext, (Store.executeOnce_eq_ok (Analysis.wellFormed_direct rfl _ [])).2
    ⟨hload, unbroken_tokens hq nofun (by decide), (Analysis.fits_query _).2 (by decide), _,
      (Store.run_query_eq_ok rfl hkind).2 ⟨_, _, plan_crossing, hrun, rfl⟩, rfl⟩⟩

theorem execute_keys (hd : t.dialect = .directColumn) (h : i.compile t schema = .ok text)
    (hout : Store.executeOnce t.source.text rows text = .ok out) :
    ∃ a fs c r, i = analyze a fs c r ∧ (∀ row ∈ out, row.keys = a.aliases) ∧
      (∀ chart, Chart.pick i out.length = some chart →
        ∀ row ∈ out, chart.x ∈ row.keys ∧ chart.y ∈ row.keys) ∧
      (Chart.pick i out.length = none ↔
        out = [] ∨ ∃ metric function, a = .aggregate metric function none) := by
  obtain ⟨a, fs, c, r, rfl, -, -, hkeys, -⟩ := exists_result hd h hout
  refine ⟨a, fs, c, r, rfl, hkeys, fun chart hchart row hrow => ?_, ?_⟩
  · rw [hkeys row hrow]
    unfold Chart.pick at hchart
    split_ifs at hchart
    exact Chart.mem_aliases hchart
  · unfold Chart.pick
    split_ifs with hempty
    · simp [List.length_eq_zero_iff.1 hempty]
    · have hne : out ≠ [] := fun h => hempty (List.length_eq_zero_iff.2 h)
      simp only [hne, false_or]
      exact Chart.ofAnalysis_eq_none_iff

/-- Two columns that are called like those of the result do not get in its way. -/
theorem execute_keys_crossing : ∃ text out chart,
    crossing.compile ⟨.directColumn, none, none⟩ (Profile.ofRows crossed) = .ok text ∧
      Store.executeOnce defaultTable crossed text = .ok out ∧ out ≠ [] ∧
      Chart.pick crossing out.length = some chart ∧
      ∀ row ∈ out, row.keys = ["label", "value"] ∧ chart.x ∈ row.keys ∧ chart.y ∈ row.keys := by
  obtain ⟨text, htext, hout⟩ := execute_crossing
  obtain ⟨_, _, _, _, ⟨⟩, hkeys, hchart, -⟩ :=
    execute_keys (t := ⟨.directColumn, none, none⟩) rfl htext hout
  exact ⟨text, _, _, htext, hout, List.cons_ne_nil _ _, rfl,
    fun row hrow => ⟨hkeys row hrow, hchart _ rfl row hrow⟩⟩

theorem execute_bounded (hd : t.dialect = .directColumn) (h : i.compile t schema = .ok text)
    (hout : Store.executeOnce t.source.text rows text = .ok out) :
    ∃ a fs c r q all, i = analyze a fs c r ∧ i.query t schema = .ok q ∧ text = q.text ∧
      Store.executeOnce t.source.text rows q.unlimited.text = .ok all ∧
      out = all.take a.bound ∧ out.length ≤ a.bound ∧
      (a.bound ≤ all.length → out.length = a.bound) ∧
      ∀ metric function, a = .aggregate metric function none → out.length = 1 := by
  obtain ⟨a, fs, c, r, rfl, rfl, hq, -, all, hall, hcut⟩ := exists_result hd h hout
  have hsingle : ∀ metric function, a = .aggregate metric function none → out.length = 1 := by
    rintro metric function rfl
    exact length_single hd hout
  have htake : out = all.take a.bound := by
    rcases a.limit_query t schema (t.conditions fs) with hlimit | ⟨metric, function, rfl⟩
    · rw [hcut, hlimit]
      rfl
    · have hone : out = all := hcut
      rw [hone, List.take_of_length_le]
      exact (hone ▸ hsingle metric function rfl).le
  refine ⟨a, fs, c, r, _, all, rfl, hq, rfl, hall, htake, ?_, fun hbound => ?_, hsingle⟩
  · rw [htake, List.length_take]
    exact Nat.min_le_left _ _
  · rw [htake, List.length_take, Nat.min_eq_left hbound]

/-- No row is asked for, and there is one. -/
theorem execute_bounded_crossing : ∃ q out all,
    crossing.query ⟨.directColumn, none, none⟩ (Profile.ofRows crossed) = .ok q ∧
      Store.executeOnce defaultTable crossed q.text = .ok out ∧
      Store.executeOnce defaultTable crossed q.unlimited.text = .ok all ∧
      out = all.take 1 ∧ out.length = 1 := by
  obtain ⟨text, htext, hout⟩ := execute_crossing
  obtain ⟨_, _, _, _, q, all, ⟨⟩, hq, rfl, hall, htake, -, -, -⟩ :=
    execute_bounded (t := ⟨.directColumn, none, none⟩) rfl htext hout
  exact ⟨q, _, all, hq, hout, hall, htake, rfl⟩

end Intent

end TableTalk
