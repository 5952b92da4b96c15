import TableTalk.Proofs.Intent.Running
import TableTalk.Proofs.Store.Renaming

/-!
# Names without a meaning

An intent gives the same rows after its columns and those of the rows have been given other names
(`Intent.answer_rename`), and whatever the table is called (`Intent.answer_table`). Nothing that a
query says between quotes is taken for something else. But truth values stand in it without quotes,
and so do the periods of a comparison: a column that is called `true` and a table that is called
`period_stats` are taken for them.
-/

namespace TableTalk

open Sql

def Filter.rename (f : String → String) (g : Filter) : Filter := { g with column := f g.column }

/-- The words without quotes that a filter puts in a query. -/
def Filter.words (g : Filter) : List String :=
  if g.pattern?.isSome then [] else g.value.expr.words

namespace Analysis

/-- The analysis of other columns. -/
def rename (f : String → String) : Analysis → Analysis
  | aggregate metric function groupBy => aggregate (f metric) function (groupBy.map f)
  | trend metric date function grain => trend (f metric) (f date) function grain
  | topList metric dimension limit order => topList (f metric) (f dimension) limit order
  | distribution metric dimension => distribution (f metric) (f dimension)
  | compare metric date period => compare (f metric) (f date) period
  | cohort date metric interval => cohort (f date) (metric.map f) interval

/-- Whether the value is the number of rows instead of something of the metric. -/
def countsAll (schema : Schema) : Analysis → Bool
  | aggregate metric function _ => aggregateCountsRows schema metric function
  | distribution metric _ => countsRows metric
  | _ => false

end Analysis

namespace Intent

/-- The intent of other columns. -/
def rename (f : String → String) : Intent → Intent
  | analyze a fs c r => analyze (a.rename f) (fs.map (Filter.rename f)) c r
  | unknown c r => unknown c r

def words (i : Intent) : List String := i.filters.flatMap Filter.words

/-- The rows that an intent gives, if it has a query that can be run on a table of some rows. -/
def answer (t : Target) (schema : Schema) (rows : List Row) (i : Intent) : Option (List Row) :=
  match i.compile t schema with
  | .error _ => none
  | .ok text => (Store.executeOnce t.source.text rows text).toOption

end Intent

section Expressions

variable {t : Target} (hd : t.dialect = .directColumn) {f : String → String}

include hd

theorem Target.column_rename (r : Reading) (c : String) :
    (t.column r c).rename f = t.column r (f c) := by
  unfold column
  rw [hd]
  cases r <;> rfl

theorem Target.words_column (r : Reading) (c : String) : (t.column r c).words = [] := by
  unfold column
  rw [hd]
  cases r <;> rfl

theorem Target.bucket_rename (g : Grain) (c : String) :
    (t.bucket g c).rename f = t.bucket g (f c) := by
  simp [bucket, Expr.rename, column_rename hd]

omit hd in
theorem FilterValue.expr_rename (v : FilterValue) : v.expr.rename f = v.expr := by
  cases v with
  | bool | text => rfl
  | number x =>
    unfold expr numberExpr
    dsimp only
    rcases Decimal.Binary.ofDouble x with _ | ⟨_ | _⟩ | ⟨_ | _, m, e⟩ <;> rfl

theorem Target.condition_rename (g : Filter) :
    (t.condition g).rename f = t.condition (g.rename f) := by
  have hpattern : ∀ p, (t.pattern g.column p).rename f = t.pattern (f g.column) p := fun p => by
    unfold pattern
    rw [hd]
    simp [Expr.rename, column_rename hd]
  unfold condition
  cases hop : g.operator <;> simp only [Filter.rename, hop, hpattern, Expr.rename,
    column_rename hd, g.value.expr_rename]

theorem Target.words_condition (g : Filter) : (t.condition g).words = g.words := by
  have hpattern : ∀ p, (t.pattern g.column p).words = [] := fun p => by
    unfold pattern
    rw [hd]
    simp [Expr.words, words_column hd]
  unfold condition Filter.words Filter.pattern?
  cases g.operator <;> simp [hpattern, Expr.words, words_column hd]

theorem Target.conditions_rename (fs : List Filter) :
    t.conditions (fs.map (Filter.rename f)) = (t.conditions fs).map (Expr.rename f) := by
  simp [conditions_direct hd, condition_rename hd]

namespace Analysis

variable {schema schema' : Schema} (a : Analysis)

theorem label?_rename :
    (a.rename f).label? t = (a.label? t).map fun l => (l.1, l.2.rename f) := by
  cases a with
  | aggregate metric function groupBy =>
    cases groupBy <;> simp [label?, rename, Target.column_rename hd]
  | _ => simp [label?, rename, Target.column_rename hd, Target.bucket_rename hd]

theorem value_rename (hcount : (a.rename f).countsAll schema' = a.countsAll schema) :
    (a.rename f).value t schema' =
      ((a.value t schema).1, (a.value t schema).2.rename f) := by
  cases a with
  | aggregate metric function groupBy =>
    simp only [rename, countsAll] at hcount
    simp only [rename, value, aggregateExpr, hcount]
    split_ifs <;> simp [Expr.rename, Target.column_rename hd]
  | distribution metric dimension =>
    simp only [rename, countsAll] at hcount
    simp only [rename, value, hcount]
    split_ifs <;> simp [Expr.rename, Target.column_rename hd]
  | _ => simp [rename, value, Expr.rename, Target.column_rename hd]

theorem words_items : ∀ l ∈ (a.label? t).toList ++ [a.value t schema], l.2.words = [] := by
  have hcolumn := fun r c => Target.words_column hd r c
  cases a with
  | aggregate metric function groupBy =>
    have hvalue : (aggregateExpr t schema metric function).words = [] := by
      unfold aggregateExpr
      split_ifs <;> simp [Expr.words, hcolumn]
    cases groupBy <;> simp [label?, value, hvalue, hcolumn]
  | distribution metric dimension =>
    simp only [label?, value]
    split_ifs <;> simp [Expr.words, hcolumn]
  | _ => simp [label?, value, Target.bucket, Expr.words, hcolumn]

theorem grouping_rename : (a.rename f).grouping t = (a.grouping t).map (Expr.rename f) := by
  cases a with
  | aggregate metric function groupBy =>
    cases groupBy <;> simp [grouping, rename, Target.column_rename hd]
  | _ => rfl

omit hd in
theorem kind_rename : (a.rename f).kind = a.kind := by
  cases a <;> rfl

omit hd in
theorem itemColumns_rename (hcount : (a.rename f).countsAll schema' = a.countsAll schema) :
    (a.rename f).itemColumns schema' = (a.itemColumns schema).map f := by
  cases a with
  | aggregate metric function groupBy =>
    simp only [rename, countsAll] at hcount
    simp only [rename, itemColumns, hcount]
    cases groupBy <;> split_ifs <;> rfl
  | distribution metric dimension =>
    simp only [rename, countsAll] at hcount
    simp only [rename, itemColumns, hcount]
    split_ifs <;> rfl
  | _ => rfl

theorem data_rename (hcount : (a.rename f).countsAll schema' = a.countsAll schema)
    (fs : List Filter) :
    (a.rename f).data t schema' (t.conditions (fs.map (Filter.rename f))) =
      (a.data t schema (t.conditions fs)).rename f := by
  have horder : (a.rename f).order = a.order := by
    cases a with
    | aggregate metric function groupBy => cases groupBy <;> rfl
    | _ => rfl
  have hcap : (a.rename f).cap = a.cap := by
    cases a with
    | aggregate metric function groupBy => cases groupBy <;> rfl
    | _ => rfl
  unfold data
  rw [label?_rename hd, value_rename hd a hcount, grouping_rename hd, Target.conditions_rename hd,
    horder, hcap]
  cases a.label? t <;> rfl

omit hd in
theorem columns_rename : (a.rename f).columns = a.columns.map f := by
  cases a with
  | aggregate metric function groupBy => cases groupBy <;> rfl
  | cohort date metric interval => cases metric <;> rfl
  | _ => rfl

end Analysis

end Expressions

namespace Scope

variable {t : Target} (hd : t.dialect = .directColumn) {f : String → String} {s s' : Scope}
  (hnumbered : s'.numbered = s.numbered)

include hd hnumbered

theorem follows_items {schema : Schema} {a : Analysis}
    (hcolumns : ∀ c ∈ a.itemColumns schema, ∃ r, s.ref? c = some r ∧ s'.ref? (f c) = some r) :
    ∀ l ∈ (a.label? t).toList ++ [a.value t schema], Follows f s s' l.2 := by
  intro l hl
  refine ⟨fun c hc => hcolumns c ?_, fun w hw => ?_, hnumbered⟩
  · have hmem : .quoted c ∈ (a.itemColumns schema).map Name.quoted := by
      rw [← Analysis.names_items hd schema a]
      rcases List.mem_append.1 hl with hl | hl
      · exact List.mem_append_right _ (List.mem_flatMap_of_mem hl hc)
      · exact List.mem_append_left _ (List.mem_singleton.1 hl ▸ hc)
    obtain ⟨d, hd, he⟩ := List.mem_map.1 hmem
    cases he
    exact hd
  · rw [Analysis.words_items hd a l hl] at hw
    cases hw

theorem follows_condition {g : Filter}
    (hcolumn : ∃ r, s.ref? g.column = some r ∧ s'.ref? (f g.column) = some r)
    (hwords : ∀ w ∈ g.words, s'.cell? w = s.cell? w) : Follows f s s' (t.condition g) := by
  refine ⟨fun c hc => ?_, fun w hw => hwords w (Target.words_condition hd g ▸ hw), hnumbered⟩
  obtain ⟨ns, hns, hbare⟩ := Target.names_condition hd (f := g)
  rw [hns, List.mem_cons] at hc
  rcases hc with he | hc
  · cases he
    exact hcolumn
  · exact absurd (hbare _ hc) (by simp)

theorem follows_grouping {schema : Schema} {a : Analysis}
    (hcolumns : ∀ c ∈ a.itemColumns schema, ∃ r, s.ref? c = some r ∧ s'.ref? (f c) = some r) :
    ∀ e ∈ a.grouping t, Follows f s s' e := by
  intro e he
  cases a with
  | aggregate metric function groupBy =>
    obtain ⟨c, rfl, rfl⟩ := Option.map_eq_some_iff.1 he
    exact follows_items hd hnumbered hcolumns ("group", t.column .text c) List.mem_cons_self
  | _ =>
    cases he
    exact ⟨nofun, nofun, hnumbered⟩

end Scope

namespace Renames

variable {f : String → String} {first : Row} {rest : List Row} (h : Renames f (first :: rest))

include h

theorem contains {c : String} (hc : c ∈ first.keys) :
    (Profile.ofRows ((first :: rest).map (Row.rename f))).contains (f c) = true :=
  Profile.contains_ofRows.2 ⟨first.rename f, List.mem_cons_self,
    h.keys List.mem_cons_self ▸ List.mem_map_of_mem hc⟩

theorem cell?_rename {name name' : String}
    (hsame : ∀ k ∈ first.keys, Text.sameAscii (f k) name' = Text.sameAscii k name) :
    (Scope.ofRows ((first :: rest).map (Row.rename f))).cell? name' =
      (Scope.ofRows (first :: rest)).cell? name := by
  simp only [Scope.cell?, Scope.ofRows, List.append_nil]
  rw [h.columnsOf]
  exact Scope.column?_rename fun c hc => hsame c.name (name_mem hc)

/-- A column of the first row is found under its new name. -/
theorem exists_ref {name : String} (hload : ∃ s, Store.empty.load name (first :: rest) = .ok s)
    {c : String} (hc : c ∈ first.keys) :
    ∃ r, (Scope.ofRows (first :: rest)).ref? c = some r ∧
      (Scope.ofRows ((first :: rest).map (Row.rename f))).ref? (f c) = some r := by
  obtain ⟨-, -, -, -, hmakes⟩ := Store.load_isOk_iff.1 hload
  have hcolumn : ∀ k ∈ first.keys, ∃ d ∈ Table.columnsOf (first :: rest), d.name = k := fun k hk => by
    obtain ⟨m, hm, rfl⟩ := List.mem_map.1 hk
    exact ⟨_, List.mem_map_of_mem hm, rfl⟩
  obtain ⟨d, hd, rfl⟩ := hcolumn c hc
  have hsame : ∀ k ∈ first.keys, Text.sameAscii (f k) (f d.name) = Text.sameAscii k d.name := by
    intro k hk
    obtain ⟨e, he, rfl⟩ := hcolumn k hk
    rw [Bool.eq_iff_iff]
    refine ⟨fun h' => ?_, fun h' => ?_⟩
    · rw [h.apart first List.mem_cons_self first List.mem_cons_self _ hk _ hc h']
      exact Text.sameAscii_refl _
    · rw [hmakes.name_eq he hd h']
      exact Text.sameAscii_refl _
  obtain ⟨r, hr⟩ : ∃ r, (Scope.ofRows (first :: rest)).cell? d.name = some r :=
    Option.isSome_iff_exists.1 ((Scope.column?_isSome_iff _ _ _).2
      ⟨d, List.mem_append_left _ hd, Text.sameAscii_refl _⟩)
  have hr' := (h.cell?_rename hsame).trans hr
  rw [Scope.cell?] at hr hr'
  exact ⟨r, by rw [Scope.ref?, hr, Option.some_or], by rw [Scope.ref?, hr', Option.some_or]⟩

theorem exists_plan {t : Target} {schema : Schema} {a : Analysis} {fs : List Filter} {p : Plan}
    (hd : t.dialect = .directColumn) {name : String}
    (hload : ∃ s, Store.empty.load name (first :: rest) = .ok s)
    (hitems : ∀ c ∈ a.itemColumns schema, c ∈ first.keys) (hfilters : ∀ g ∈ fs, g.column ∈ first.keys)
    (hwords : ∀ g ∈ fs, ∀ w ∈ g.words, ∀ k ∈ first.keys, Text.sameAscii (f k) w = Text.sameAscii k w)
    (hp : (Scope.ofRows (first :: rest)).plan (a.data t schema (t.conditions fs)) = .ok p) :
    (Scope.ofRows ((first :: rest).map (Row.rename f))).plan
      ((a.data t schema (t.conditions fs)).rename f) = .ok p := by
  have hnumbered : (Scope.ofRows ((first :: rest).map (Row.rename f))).numbered =
      (Scope.ofRows (first :: rest)).numbered := rfl
  have hcolumns := fun c hc => h.exists_ref hload (hitems c hc)
  refine Scope.plan_rename (Scope.follows_items hd hnumbered hcolumns) (fun e he => ?_)
    (Scope.follows_grouping hd hnumbered hcolumns) hp
  rw [Target.conditions_direct hd] at he
  obtain ⟨g, hg, rfl⟩ := List.mem_map.1 he
  exact Scope.follows_condition hd hnumbered (h.exists_ref hload (hfilters g hg)) fun w hw =>
    h.cell?_rename (hwords g hg w hw)

/-- Rows are counted where they were. -/
theorem countsAll {a : Analysis} (hkeys : ∀ c ∈ a.columns, c ∈ first.keys)
    (hcount : ∀ metric dimension, a = .distribution metric dimension →
      countsRows (f metric) = countsRows metric) :
    (a.rename f).countsAll (Profile.ofRows ((first :: rest).map (Row.rename f))) =
      a.countsAll (Profile.ofRows (first :: rest)) := by
  cases a with
  | aggregate metric function groupBy =>
    have hmetric := hkeys metric List.mem_cons_self
    have hcontains : (Profile.ofRows (first :: rest)).contains metric = true :=
      Profile.contains_ofRows.2 ⟨first, List.mem_cons_self, hmetric⟩
    simp only [Analysis.rename, Analysis.countsAll, aggregateCountsRows, hcontains,
      h.contains hmetric]
    simp
  | distribution metric dimension => exact hcount _ _ rfl
  | _ => rfl

end Renames

namespace Intent

variable {t : Target} {schema : Schema} {rows out : List Row} {i : Intent} {f : String → String}
  {first : Row} {rest : List Row}

theorem answer_eq_some : i.answer t schema rows = some out ↔
    ∃ text, i.compile t schema = .ok text ∧
      Store.executeOnce t.source.text rows text = .ok out := by
  unfold answer
  rcases i.compile t schema with e | text
  · simp
  · constructor
    · exact fun h => ⟨text, rfl, eq_ok_of_toOption h⟩
    · rintro ⟨_, ⟨⟩, hout⟩
      exact congrArg Except.toOption hout

/-- The rows that an intent gives: the schema has its columns, and the table answers its query. -/
theorem answer_analyze {a : Analysis} {fs : List Filter} {c : Float} {r : String} :
    (analyze a fs c r).answer t schema rows = some out ↔
      (∀ d ∈ a.checkedColumns schema ++ fs.map Filter.column, schema.contains d = true) ∧
        Store.executeOnce t.source.text rows (a.query t schema (t.conditions fs)).text =
          .ok out := by
  rw [answer_eq_some]
  constructor
  · rintro ⟨text, htext, hout⟩
    obtain ⟨q, hq, rfl⟩ := map_eq_ok.1 htext
    obtain ⟨hcolumns, rfl⟩ := query_eq_ok.1 hq
    exact ⟨hcolumns, hout⟩
  · rintro ⟨hcolumns, hout⟩
    exact ⟨_, map_eq_ok.2 ⟨_, query_eq_ok.2 ⟨hcolumns, rfl⟩, rfl⟩, hout⟩

theorem unbroken_rename {schema' : Schema} {a : Analysis} {fs : List Filter}
    (hd : t.dialect = .directColumn) (hcount : (a.rename f).countsAll schema' = a.countsAll schema)
    (hclean : ∀ c ∈ a.columns ++ fs.map Filter.column, Clean (f c))
    (h : ∀ u ∈ (a.query t schema (t.conditions fs)).tokens, u.broken = false) :
    ∀ u ∈ ((a.rename f).query t schema' (t.conditions (fs.map (Filter.rename f)))).tokens,
      u.broken = false := by
  obtain ⟨htable, -, hconditions⟩ := unbroken_query.1 h
  refine unbroken_query.2 ⟨htable, fun c hc => ?_, fun e he => ?_⟩
  · rw [a.itemColumns_rename hcount] at hc
    obtain ⟨d, hd, rfl⟩ := List.mem_map.1 hc
    exact broken_column (hclean d (List.mem_append_left _
      (a.checkedColumns_subset schema d (a.itemColumns_subset schema d hd))))
  · rw [Target.conditions_direct hd, List.map_map] at he
    obtain ⟨g, hg, rfl⟩ := List.mem_map.1 he
    obtain ⟨ls, hls⟩ := Target.exists_literals (t := t) g
    have hbefore := hconditions (t.condition g)
      (Target.conditions_direct hd fs ▸ List.mem_map_of_mem hg)
    rw [show t.condition g = t.condition { g with column := g.column } from rfl, hls] at hbefore
    rw [Function.comp_apply, Filter.rename, hls]
    have hcolumn := hclean g.column (List.mem_append_right _ (List.mem_map_of_mem hg))
    exact List.forall_mem_cons.2 ⟨broken_column hcolumn, (List.forall_mem_cons.1 hbefore).2⟩

/-- Other names of the columns make no difference to the rows that an intent gives. A word without
quotes must not become the name of a column, nor cease to be one. -/
theorem answer_rename (hd : t.dialect = .directColumn) (hf : Renames f (first :: rest))
    (hkeys : ∀ c ∈ i.columns, c ∈ first.keys)
    (hcount : ∀ metric dimension fs c r, i = analyze (.distribution metric dimension) fs c r →
      countsRows (f metric) = countsRows metric)
    (hwords : ∀ w ∈ i.words, ∀ k ∈ first.keys, Text.sameAscii (f k) w = Text.sameAscii k w)
    (h : i.answer t (Profile.ofRows (first :: rest)) (first :: rest) = some out) :
    (i.rename f).answer t (Profile.ofRows ((first :: rest).map (Row.rename f)))
      ((first :: rest).map (Row.rename f)) = some out := by
  cases i with
  | unknown => cases h
  | analyze a fs c r =>
    obtain ⟨hload, hclosed, hdepth, hapart, p, cells, u, hp, hcells, hu, hout⟩ :=
      (executeOnce_query hd a).1 (answer_analyze.1 h).2
    have hfilter : ∀ g ∈ fs, g.column ∈ first.keys := fun g hg =>
      hkeys _ (List.mem_append_right _ (List.mem_map_of_mem hg))
    have hitem : ∀ c ∈ a.itemColumns (Profile.ofRows (first :: rest)), c ∈ first.keys := fun c hc =>
      hkeys c (List.mem_append_left _ (a.checkedColumns_subset _ c (a.itemColumns_subset _ c hc)))
    have hsame := hf.countsAll (fun c hc => hkeys c (List.mem_append_left _ hc))
      fun metric dimension ha => hcount metric dimension fs c r (ha ▸ rfl)
    have hplan := hf.exists_plan hd hload hitem hfilter
      (fun g hg w hw => hwords w (List.mem_flatMap_of_mem hg hw)) hp
    refine answer_analyze.2 ⟨fun d hd => ?_, (executeOnce_query hd _).2 ⟨hf.load_isOk hload,
      unbroken_rename hd hsame (fun c hc => hf.clean first List.mem_cons_self c (hkeys c hc)) hclosed,
      ?_, ?_, p, cells, u, ?_, ?_, ?_, hout⟩⟩
    · have hmem : d ∈ (a.columns ++ fs.map Filter.column).map f := by
        rw [List.map_append, ← a.columns_rename, List.map_map]
        rw [List.map_map] at hd
        rcases List.mem_append.1 hd with hd | hd
        · exact List.mem_append_left _ (Analysis.checkedColumns_subset _ _ d hd)
        · exact List.mem_append_right _ hd
      obtain ⟨c, hc, rfl⟩ := List.mem_map.1 hmem
      exact hf.contains (hkeys c hc)
    · rw [Target.conditions_rename hd, Select.joined_rename]
      exact hdepth
    · rw [a.kind_rename]
      exact hapart
    · rw [a.data_rename hd hsame]
      exact hplan
    · rw [Table.numbered, hf.records]
      exact hcells
    · rw [Analysis.finish, a.kind_rename]
      exact hu

/-- The second row lacks a column of the first and has one of its own. -/
def shops : List Row :=
  [⟨[("city", .str "A"), ("sales", .int 1), ("open", .bool true)], by decide⟩,
    ⟨[("city", .null), ("more", .int 2), ("open", .str "x")], by decide⟩]

/-- The cities of open shops by their sales. -/
def openShops : Intent :=
  .analyze (.topList "sales" "city" 5 .asc) [⟨"open", .eq, .bool true⟩] 1 ""

/-- Names of results, of the numbers of records, and of keywords. -/
def disguise (c : String) : String :=
  if c = "city" then "label"
  else if c = "sales" then "rowid"
  else if c = "open" then "\"SELECT\" --'"
  else "true"

theorem exists_openShops : ∃ out,
    openShops.answer ⟨.directColumn, none, none⟩ (Profile.ofRows shops) shops = some out := by
  obtain ⟨s, hload⟩ : ∃ s, Store.empty.load defaultTable shops = .ok s :=
    Store.load_isOk_iff.2 ⟨by decide, by decide, by decide, nofun, by decide, by decide, nofun,
      by decide⟩
  obtain ⟨text, htext⟩ : ∃ text, openShops.compile ⟨.directColumn, none, none⟩
      (Profile.ofRows shops) = .ok text := isOk_of_isSome (by decide +kernel)
  obtain ⟨out, hout⟩ : ∃ out, Store.executeOnce defaultTable shops text = .ok out := by
    refine executeOnce_of_binds (t := ⟨.directColumn, none, none⟩) rfl hload htext ?_
      ⟨by decide, by decide, by decide, by rintro a fs c r ⟨⟩ b ⟨⟩⟩ nofun ?_
    · simp [openShops, filters]
    · rintro a fs c r ⟨⟩
      exact binds_of_keys (c := 1) (r := "") (by decide)
  exact ⟨out, answer_eq_some.2 ⟨text, htext, hout⟩⟩

/-- A truth value is compared with, and only a later row has a column of that name. -/
theorem answer_rename_disguise : ∃ out,
    openShops.answer ⟨.directColumn, none, none⟩ (Profile.ofRows shops) shops = some out ∧
      (openShops.rename disguise).columns = ["rowid", "label", "\"SELECT\" --'"] ∧
      openShops.words = ["TRUE"] ∧
      (openShops.rename disguise).answer ⟨.directColumn, none, none⟩
        (Profile.ofRows (shops.map (Row.rename disguise))) (shops.map (Row.rename disguise)) =
          some out := by
  obtain ⟨out, hout⟩ := exists_openShops
  exact ⟨out, hout, rfl, rfl,
    answer_rename rfl ⟨by decide, by decide⟩ (by decide) nofun (by decide) hout⟩

section Tables

variable {name : String} {sourceId : Option String}

theorem source_named :
    (Target.source ⟨.directColumn, some name, sourceId⟩).text = name := rfl

theorem source_unnamed :
    (Target.source ⟨.directColumn, none, sourceId⟩).text = defaultTable := rfl

/-- Which rows can be loaded is no matter of the name. -/
theorem load_isOk_table (h : ∃ rows s, Store.empty.load name rows = .ok s) :
    (∃ s, Store.empty.load name rows = .ok s) ↔
      ∃ s, Store.empty.load defaultTable rows = .ok s := by
  obtain ⟨others, hload⟩ := h
  obtain ⟨hblank, hclean, hreserved, -⟩ := Store.load_isOk_iff.1 hload
  have hdefault : Text.isBlank defaultTable = false ∧ '\x00' ∉ defaultTable.toList ∧
      Store.reserved defaultTable = false := by decide
  simp only [Store.load_isOk_iff, hblank, hclean, hreserved, hdefault, not_false_eq_true, true_and]

theorem executeOnce_table {a : Analysis} {fs : List Filter}
    (h : ∃ rows s, Store.empty.load name rows = .ok s) :
    Store.executeOnce name rows (a.query ⟨.directColumn, some name, sourceId⟩ schema
        (Target.conditions ⟨.directColumn, some name, sourceId⟩ fs)).text = .ok out ↔
      (a.kind = .compare → Text.sameAscii "period_stats" name = false) ∧
        Store.executeOnce defaultTable rows (a.query ⟨.directColumn, none, sourceId⟩ schema
          (Target.conditions ⟨.directColumn, none, sourceId⟩ fs)).text = .ok out := by
  have hnamed : Store.executeOnce name rows (a.query ⟨.directColumn, some name, sourceId⟩ schema
      (Target.conditions ⟨.directColumn, some name, sourceId⟩ fs)).text = .ok out ↔ _ :=
    executeOnce_query (t := ⟨.directColumn, some name, sourceId⟩) rfl a
  have husual : Store.executeOnce defaultTable rows (a.query ⟨.directColumn, none, sourceId⟩ schema
      (Target.conditions ⟨.directColumn, none, sourceId⟩ fs)).text = .ok out ↔ _ :=
    executeOnce_query (t := ⟨.directColumn, none, sourceId⟩) rfl a
  have hclosed : (∀ u ∈ (a.query ⟨.directColumn, some name, sourceId⟩ schema
        (Target.conditions ⟨.directColumn, some name, sourceId⟩ fs)).tokens, u.broken = false) ↔
      ∀ u ∈ (a.query ⟨.directColumn, none, sourceId⟩ schema
        (Target.conditions ⟨.directColumn, none, sourceId⟩ fs)).tokens, u.broken = false := by
    obtain ⟨_, _, hload⟩ := h
    have hname : Clean name := (Store.load_isOk_iff.1 ⟨_, hload⟩).2.1
    rw [unbroken_query, unbroken_query]
    exact and_congr_left fun _ => iff_of_true (broken_name hname) (broken_table nofun)
  have hdefault : Text.sameAscii "period_stats" defaultTable = false := by decide
  -- what reads the table does not say its name
  have hplan : (Scope.ofRows rows).plan (a.data ⟨.directColumn, some name, sourceId⟩ schema
        (Target.conditions ⟨.directColumn, some name, sourceId⟩ fs)) =
      (Scope.ofRows rows).plan (a.data ⟨.directColumn, none, sourceId⟩ schema
        (Target.conditions ⟨.directColumn, none, sourceId⟩ fs)) := rfl
  rw [hplan, hclosed] at hnamed
  simp only [source_named, source_unnamed, load_isOk_table h, hdefault, implies_true,
    true_and] at hnamed husual
  rw [hnamed, husual]
  constructor
  · rintro ⟨hload, hc, hdepth, hapart, hrest⟩
    exact ⟨hapart, hload, hc, hdepth, hrest⟩
  · rintro ⟨hapart, hload, hc, hdepth, hrest⟩
    exact ⟨hload, hc, hdepth, hapart, hrest⟩

/-- The name of the table makes no difference to the rows that an intent gives, unless periods are
compared in a table that is called like them. -/
theorem answer_table (h : ∃ rows s, Store.empty.load name rows = .ok s) :
    i.answer ⟨.directColumn, some name, sourceId⟩ schema rows =
      if i.kind = .compare ∧ Text.sameAscii "period_stats" name = true then none
      else i.answer ⟨.directColumn, none, sourceId⟩ schema rows := by
  cases i with
  | unknown => exact (if_neg (by rintro ⟨⟨⟩, -⟩)).symm
  | analyze a fs c r =>
    have hiff : ∀ out, (analyze a fs c r).answer ⟨.directColumn, some name, sourceId⟩ schema rows =
        some out ↔ (a.kind = .compare → Text.sameAscii "period_stats" name = false) ∧
          (analyze a fs c r).answer ⟨.directColumn, none, sourceId⟩ schema rows = some out :=
      fun out => by
        rw [answer_analyze, answer_analyze, source_named, source_unnamed, executeOnce_table h]
        exact and_left_comm
    refine Option.ext fun out => (hiff out).trans ?_
    split_ifs with hcircular
    · refine iff_of_false (fun hboth => ?_) not_false
      obtain ⟨hkind, hsame⟩ := hcircular
      rw [hboth.1 hkind] at hsame
      cases hsame
    · refine and_iff_right fun hkind => ?_
      rcases hsame : Text.sameAscii "period_stats" name
      · rfl
      · exact absurd ⟨hkind, hsame⟩ hcircular

/-- A name with quotes is like any other, but periods are not found in a table of that name. -/
theorem answer_table_quotes :
    (∃ out, openShops.answer ⟨.directColumn, some "\"label\" --'", none⟩ (Profile.ofRows shops) shops =
        some out ∧
      openShops.answer ⟨.directColumn, none, none⟩ (Profile.ofRows shops) shops = some out) ∧
    Intent.answer ⟨.directColumn, some "Period_Stats", none⟩ (Profile.ofRows shops) shops
      (.analyze (.compare "sales" "open" .yearOverYear) [] 1 "") = none := by
  obtain ⟨out, hout⟩ := exists_openShops
  have hload : ∀ name ∈ ["\"label\" --'", "Period_Stats"],
      ∃ rows s, Store.empty.load name rows = .ok s := fun name hname => by
    refine ⟨shops, Store.load_isOk_iff.2 ⟨?_, ?_, ?_, nofun, by decide, by decide, nofun, by decide⟩⟩
    all_goals revert name; decide
  refine ⟨⟨out, ?_, hout⟩, ?_⟩
  · rw [answer_table (hload _ List.mem_cons_self), if_neg (by decide)]
    exact hout
  · rw [answer_table (hload _ (List.mem_cons_of_mem _ List.mem_cons_self)), if_pos (by decide)]

end Tables

end Intent

end TableTalk
