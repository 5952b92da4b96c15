import TableTalk.Proofs.Store.Running
import TableTalk.Table.Profile

/-!
# Which intents run

The table of some rows has the columns of the first row, while the schema of an intent has those of
all rows. A name is looked up in the table without regard to case (`Row.Answers`), and a filter can
also name the label of the groups. So an intent whose query can be made runs exactly if the table
answers for all columns (`Intent.execute_answered`), and then it runs in particular if they are all
columns of the first row (`Intent.execute_isOk`). Both hold for texts, trees, patterns and dates of
a size that the store can take (`Intent.Limits`).
-/

namespace TableTalk

open Sql

/-- The table of rows that start with this one has something by this name. -/
def Row.Answers (first : Row) (c : String) : Prop :=
  (∃ k ∈ first.keys, Text.sameAscii k c = true) ∨
    Scope.numberNames.any (Text.sameAscii c) = true

theorem Row.answers_of_mem {first : Row} {c : String} (h : c ∈ first.keys) : first.Answers c :=
  .inl ⟨c, h, Text.sameAscii_refl c⟩

/-- Where the names of a query are looked up in the table of some rows. -/
def Scope.ofRows (rows : List Row) : Scope := ⟨Table.columnsOf rows, [], true⟩

theorem Scope.names_ofRows {first : Row} {rest : List Row} {c : String} :
    (Scope.ofRows (first :: rest)).Names c ↔ first.Answers c := by
  have hkeys : first.keys = (Table.columnsOf (first :: rest)).map Column.name := by
    simp [Table.columnsOf, Row.keys]
  simp only [Scope.ofRows, Scope.Names, Row.Answers, hkeys, List.append_nil, List.mem_map,
    exists_exists_and_eq_and, true_and]

/-- The default table takes all rows whose columns can be made. -/
theorem Store.load_default {rows : List Row} (h : Table.columnsOf rows ≠ [] ∧
    (∀ c ∈ Table.columnsOf rows, '\x00' ∉ c.name.toList) ∧
    (Table.columnsOf rows).length ≤ columnLimit ∧
    (Table.columnsOf rows).Pairwise fun a b => Text.sameAscii b.name a.name = false) :
    ∃ s, Store.empty.load defaultTable rows = .ok s := by
  obtain ⟨hne, hclean, hsize, hdistinct⟩ := h
  have hmakes : Makes [] (Table.columnsOf rows) :=
    ⟨hclean, by simpa using hsize, nofun, hdistinct⟩
  exact load_isOk_iff.2 ⟨by decide, by decide, by decide, hne, hmakes⟩

namespace Intent

/-- The columns that the query of an intent reads. -/
def readColumns (schema : Schema) : Intent → List String
  | unknown .. => []
  | analyze a fs _ _ => a.itemColumns schema ++ fs.map Filter.column

/-- All columns of an intent are found in the table of rows that start with this one. -/
def Answered (t : Target) (schema : Schema) (first : Row) : Intent → Prop
  | unknown .. => False
  | analyze a fs _ _ => (∀ c ∈ a.itemColumns schema, first.Answers c) ∧
      ∀ f ∈ fs, first.Answers f.column ∨ ∃ l ∈ a.label? t, Text.sameAscii f.column l.1 = true

/-- What the store can take: texts without U+0000, trees of conditions and patterns that are not too
large, and buckets that have a value. -/
structure Limits (t : Target) (rows : List Row) (i : Intent) : Prop where
  clean : ∀ s ∈ i.texts t, Clean s
  depth : Select.joined 0 (t.conditions i.filters) ≤ Select.depthLimit
  patterns : ∀ f ∈ i.filters, ∀ p ∈ f.pattern?, p.utf8ByteSize ≤ Cell.patternLimit
  dates : ∀ a fs c r, i = analyze a fs c r →
    (Scope.ofRows rows).Dates (· ∈ (Table.ofRows t.source.text rows).numbered) a

end Intent

theorem Analysis.fits_query {t : Target} {schema : Schema} {cs : List (Expr Name)} (a : Analysis) :
    (a.query t schema cs).Fits .directColumn ↔ Select.joined 0 cs ≤ Select.depthLimit := by
  have hlimit : ∀ n, Select.tooDeep .directColumn n = false ↔ n ≤ Select.depthLimit := fun n => by
    simp [Select.tooDeep]
  have hcomparison : comparison.depth ≤ Select.depthLimit := by decide
  rw [query_eq]
  split_ifs
  · simp only [Query.Fits, hlimit, Option.mem_def, Option.some.injEq, forall_eq', hcomparison,
      true_and]
    rfl
  · simp only [Query.Fits, hlimit, Option.mem_def, reduceCtorEq, false_implies, implies_true,
      and_true]
    rfl

namespace Intent

variable {t : Target} {rows : List Row} {i : Intent} {s : Store} {text : String}

theorem exists_analyze {schema : Schema} (h : i.compile t schema = .ok text) :
    ∃ a fs c r, i = analyze a fs c r ∧
      i.query t schema = .ok (a.query t schema (t.conditions fs)) ∧
      text = (a.query t schema (t.conditions fs)).text := by
  obtain ⟨q, hq, rfl⟩ := map_eq_ok.1 h
  cases i with
  | unknown => cases hq
  | analyze a fs c r =>
    obtain ⟨-, rfl⟩ := query_eq_ok.1 hq
    exact ⟨a, fs, c, r, rfl, hq, rfl⟩

/-- The rows that the text of a query gives: it has to be closed, and not too deep. -/
theorem executeOnce_query {schema : Schema} {fs : List Filter} {out : List Row}
    (hd : t.dialect = .directColumn) (a : Analysis) :
    Store.executeOnce t.source.text rows (a.query t schema (t.conditions fs)).text = .ok out ↔
      (∃ s, Store.empty.load t.source.text rows = .ok s) ∧
        (∀ u ∈ (a.query t schema (t.conditions fs)).tokens, u.broken = false) ∧
        Select.joined 0 (t.conditions fs) ≤ Select.depthLimit ∧
        (a.kind = .compare → Text.sameAscii "period_stats" t.source.text = false) ∧
        ∃ p cells u, (Scope.ofRows rows).plan (a.data t schema (t.conditions fs)) = .ok p ∧
          p.run (Table.ofRows t.source.text rows).numbered = .ok cells ∧
          a.finish ⟨"", p.columns, cells⟩ = .ok u ∧ u.rows = out := by
  have hrun : ∀ u, ({ tables := [Table.ofRows t.source.text rows] } : Store).run
      (a.query t schema (t.conditions fs)) = .ok u ↔ _ := fun u => Store.run_query rfl a
  rw [Store.executeOnce_eq_ok (a.wellFormed_direct hd fs), Analysis.fits_query]
  refine and_congr_right fun _ => and_congr_right fun _ => and_congr_right fun _ => ?_
  constructor
  · rintro ⟨u, hu, hout⟩
    obtain ⟨hapart, p, cells, hp, hcells, hu⟩ := (hrun u).1 hu
    exact ⟨hapart, p, cells, u, hp, hcells, hu, hout⟩
  · rintro ⟨hapart, p, cells, u, hp, hcells, hu, hout⟩
    exact ⟨u, (hrun u).2 ⟨hapart, p, cells, hp, hcells, hu⟩, hout⟩

/-- The text of a query gives rows exactly if it can be taken and the table gives some. -/
theorem executeOnce_isOk_iff {schema : Schema} {a : Analysis} {fs : List Filter}
    (hd : t.dialect = .directColumn) (hload : Store.empty.load t.source.text rows = .ok s) :
    (∃ out, Store.executeOnce t.source.text rows (a.query t schema (t.conditions fs)).text =
        .ok out) ↔
      (∀ u ∈ (a.query t schema (t.conditions fs)).tokens, u.broken = false) ∧
        Select.joined 0 (t.conditions fs) ≤ Select.depthLimit ∧
        (a.kind = .compare → Text.sameAscii "period_stats" t.source.text = false) ∧
        ∃ p out, (Scope.ofRows rows).plan (a.data t schema (t.conditions fs)) = .ok p ∧
          p.run (Table.ofRows t.source.text rows).numbered = .ok out := by
  simp only [executeOnce_query hd]
  constructor
  · rintro ⟨out, -, hb, hdepth, hapart, p, cells, u, hp, hcells, -⟩
    exact ⟨hb, hdepth, hapart, p, cells, hp, hcells⟩
  · rintro ⟨hb, hdepth, hapart, p, cells, hp, hcells⟩
    obtain ⟨u, hu⟩ := Store.finish_isOk hp cells
    exact ⟨u.rows, ⟨s, hload⟩, hb, hdepth, hapart, p, cells, u, hp, hcells, hu, rfl⟩

/-- An intent runs if its columns are found and the store can take it. -/
theorem executeOnce_of_binds {schema : Schema} (hd : t.dialect = .directColumn)
    (hload : Store.empty.load t.source.text rows = .ok s) (h : i.compile t schema = .ok text)
    (hnumbers : ∀ f ∈ i.filters, ∀ x, f.value = .number x → x.isFinite = true)
    (hl : i.Limits t rows)
    (hapart : i.kind = .compare → Text.sameAscii "period_stats" t.source.text = false)
    (hb : ∀ a fs c r, i = analyze a fs c r → (Scope.ofRows rows).Binds t schema a fs) :
    ∃ out, Store.executeOnce t.source.text rows text = .ok out := by
  obtain ⟨a, fs, c, r, rfl, hq, rfl⟩ := exists_analyze h
  obtain ⟨p, hp, hsafe⟩ := Scope.exists_plan hd (hb a fs c r rfl) hnumbers hl.patterns
    (hl.dates a fs c r rfl)
  obtain ⟨out, hout⟩ := Plan.run_isOk hsafe fun _ h => h
  exact (executeOnce_isOk_iff hd hload).2
    ⟨unbroken_tokens hq hnumbers hl.clean, hl.depth, hapart, p, out, hp, hout⟩

/-- The columns that an intent is said to read are found if the first row has them. -/
theorem binds_of_keys {schema : Schema} {a : Analysis} {fs : List Filter} {c : Float} {r : String}
    (h : ∀ d ∈ (analyze a fs c r).readColumns schema, ∃ first ∈ rows.head?, d ∈ first.keys) :
    (Scope.ofRows rows).Binds t schema a fs := by
  have hnames : ∀ d ∈ (analyze a fs c r).readColumns schema, (Scope.ofRows rows).Names d :=
    fun d hd => by
      obtain ⟨first, hfirst, hd⟩ := h d hd
      obtain ⟨rest, rfl⟩ := List.head?_eq_some_iff.1 hfirst
      exact Scope.names_ofRows.2 (Row.answers_of_mem hd)
  exact ⟨fun d hd => hnames d (List.mem_append_left _ hd),
    fun f hf => .inl (hnames _ (List.mem_append_right _ (List.mem_map_of_mem hf)))⟩

/-- An analysis that compiles runs on rows of which the first has all columns that are read. -/
theorem exists_execute {a : Analysis} {fs : List Filter} {c : Float} {r : String}
    (hload : ∃ s, Store.empty.load defaultTable rows = .ok s)
    (htext : ((analyze a fs c r).compile ⟨.directColumn, none, none⟩
      (Profile.ofRows rows)).toOption.isSome = true)
    (hl : (analyze a fs c r).Limits ⟨.directColumn, none, none⟩ rows)
    (hnumbers : ∀ f ∈ fs, ∀ x, f.value = .number x → x.isFinite = true)
    (hkeys : ∀ d ∈ (analyze a fs c r).readColumns (Profile.ofRows rows),
      ∃ first ∈ rows.head?, d ∈ first.keys) :
    ∃ text out, (analyze a fs c r).compile ⟨.directColumn, none, none⟩ (Profile.ofRows rows) =
        .ok text ∧ Store.executeOnce defaultTable rows text = .ok out := by
  obtain ⟨s, hload⟩ := hload
  obtain ⟨text, htext⟩ := isOk_of_isSome htext
  have hapart : Text.sameAscii "period_stats" defaultTable = false := by decide
  obtain ⟨out, hout⟩ := executeOnce_of_binds (t := ⟨.directColumn, none, none⟩) rfl hload htext
    hnumbers hl (fun _ => hapart) (by rintro a fs c r ⟨⟩; exact binds_of_keys hkeys)
  exact ⟨text, out, htext, hout⟩

/-- Without filters and dates a query runs once it has its columns. -/
theorem exists_unfiltered {a : Analysis} (hload : ∃ s, Store.empty.load defaultTable rows = .ok s)
    (htext : ((analyze a [] 1 "").compile ⟨.directColumn, none, none⟩
      (Profile.ofRows rows)).toOption.isSome = true)
    (hdates : a.bucket? = none) (hclean : ∀ d ∈ a.columns, Clean d)
    (hkeys : ∀ d ∈ a.itemColumns (Profile.ofRows rows), ∃ first ∈ rows.head?, d ∈ first.keys) :
    ∃ text out, (analyze a [] 1 "").compile ⟨.directColumn, none, none⟩ (Profile.ofRows rows) =
        .ok text ∧ Store.executeOnce defaultTable rows text = .ok out := by
  refine exists_execute hload htext ⟨fun s hs => hclean s ?_, Nat.zero_le _, nofun, ?_⟩ nofun
    fun d hd => hkeys d ?_
  · simpa [texts, columns, filters] using hs
  · rintro _ _ _ _ ⟨⟩ b hb
    rw [hdates] at hb
    cases hb
  · simpa [readColumns] using hd

theorem binds_ofRows {schema : Schema} {first : Row} {rest : List Row} {a : Analysis}
    {fs : List Filter} {c : Float} {r : String} :
    (Scope.ofRows (first :: rest)).Binds t schema a fs ↔
      (analyze a fs c r).Answered t schema first := by
  constructor
  · rintro ⟨hitems, hfilters⟩
    exact ⟨fun d hd => Scope.names_ofRows.1 (hitems d hd),
      fun f hf => (hfilters f hf).imp_left Scope.names_ofRows.1⟩
  · rintro ⟨hitems, hfilters⟩
    exact ⟨fun d hd => Scope.names_ofRows.2 (hitems d hd),
      fun f hf => (hfilters f hf).imp_left Scope.names_ofRows.2⟩

/-- An intent that was read runs on every table that has its columns. -/
theorem execute_isOk {json : String} {sourceId : Option String} (hread : read json = .ok i)
    (hload : Store.empty.load defaultTable rows = .ok s)
    (h : i.compile ⟨.directColumn, none, sourceId⟩ (Profile.ofRows rows) = .ok text)
    (hkeys : ∀ c ∈ i.readColumns (Profile.ofRows rows), ∃ first ∈ rows.head?, c ∈ first.keys)
    (hl : i.Limits ⟨.directColumn, none, sourceId⟩ rows) :
    ∃ out, Store.executeOnce defaultTable rows text = .ok out := by
  have hapart : Text.sameAscii "period_stats" defaultTable = false := by decide
  refine executeOnce_of_binds (t := ⟨.directColumn, none, sourceId⟩) rfl hload h
    (finite_of_read hread) hl (fun _ => hapart) ?_
  rintro a fs c r rfl
  exact binds_of_keys hkeys

/-- Columns may be named like results, and hold what is no number. -/
theorem execute_isOk_label :
    ∃ json i s text rows, read json = .ok i ∧
      rows = [⟨[("label", .str "x"), ("va\"lue", .int 1)], by decide⟩,
        ⟨[("label", .null), ("va\"lue", .str "y"), ("more", .bool true)], by decide⟩] ∧
      Store.empty.load defaultTable rows = .ok s ∧
      i.compile ⟨.directColumn, none, none⟩ (Profile.ofRows rows) = .ok text ∧
      i.readColumns (Profile.ofRows rows) = ["va\"lue", "label", "label"] ∧
      ∃ out, Store.executeOnce defaultTable rows text = .ok out := by
  let rows : List Row := [⟨[("label", .str "x"), ("va\"lue", .int 1)], by decide⟩,
    ⟨[("label", .null), ("va\"lue", .str "y"), ("more", .bool true)], by decide⟩]
  have hread : read ("\x7b\"type\":\"TOP_LIST\"," ++ "\"metricColumn\":\"va\\\"lue\"," ++
      "\"dimensionColumn\":\"label\"," ++ "\"limit\":5,\"order\":\"desc\"," ++
      "\"filters\":[\x7b\"column\":" ++ "\"label\",\"operator\":" ++
      "\"contains\",\"value\":\"x\"\x7d]," ++ "\"confidence\":1,\"reasoning\":\"\"\x7d") =
      .ok (.analyze (.topList "va\"lue" "label" 5 .desc) [⟨"label", .contains, .text "x"⟩] 1 "") := by
    simp only [Intent.read, String.toList_append]
    exact eq_ok_of_toOption (by decide +kernel)
  obtain ⟨s, hload⟩ : ∃ s, Store.empty.load defaultTable rows = .ok s :=
    Store.load_isOk_iff.2 ⟨by decide, by decide, by decide, List.cons_ne_nil _ _, by decide,
      by decide, fun _ _ _ h => absurd h List.not_mem_nil, by decide⟩
  obtain ⟨text, htext⟩ : ∃ text, compile ⟨.directColumn, none, none⟩ (Profile.ofRows rows)
      (.analyze (.topList "va\"lue" "label" 5 .desc) [⟨"label", .contains, .text "x"⟩] 1 "") =
        .ok text := isOk_of_isSome (by decide +kernel)
  have hl : Limits ⟨.directColumn, none, none⟩ rows
      (.analyze (.topList "va\"lue" "label" 5 .desc) [⟨"label", .contains, .text "x"⟩] 1 "") :=
    ⟨by decide, by decide, by decide, by rintro a fs c r ⟨⟩ b ⟨⟩⟩
  exact ⟨_, _, s, text, rows, hread, rfl, hload, htext, rfl,
    execute_isOk hread hload htext (by decide) hl⟩

/-- A query gives rows only if the table answers for all columns that it reads, and it does then. -/
theorem execute_answered {schema : Schema} {first : Row} {rest : List Row}
    (hd : t.dialect = .directColumn)
    (hload : Store.empty.load t.source.text (first :: rest) = .ok s)
    (h : i.compile t schema = .ok text) :
    ((∃ out, Store.executeOnce t.source.text (first :: rest) text = .ok out) →
        i.Answered t schema first) ∧
      (i.Limits t (first :: rest) →
        (∀ f ∈ i.filters, ∀ x, f.value = .number x → x.isFinite = true) →
        (i.kind = .compare → Text.sameAscii "period_stats" t.source.text = false) →
        i.Answered t schema first →
        ∃ out, Store.executeOnce t.source.text (first :: rest) text = .ok out) := by
  obtain ⟨a, fs, c, r, rfl, -, htext⟩ := exists_analyze h
  refine ⟨fun hout => ?_, fun hl hnumbers hapart hanswered => ?_⟩
  · rw [htext] at hout
    obtain ⟨-, -, -, p, -, hp, -⟩ := (executeOnce_isOk_iff hd hload).1 hout
    exact binds_ofRows.1 (Scope.binds_of_plan hd hp)
  · refine executeOnce_of_binds hd hload h hnumbers hl hapart ?_
    rintro a fs c r ⟨⟩
    exact binds_ofRows.2 hanswered

/-- A column that only the second row has is taken for one of the first row. -/
theorem execute_answered_case :
    ∃ first rest s text, first.keys = ["Product"] ∧
      Store.empty.load defaultTable (first :: rest) = .ok s ∧
      compile ⟨.directColumn, none, none⟩ (Profile.ofRows (first :: rest))
        (.analyze (.aggregate "product" .count none) [] 1 "") = .ok text ∧
      ∃ out, Store.executeOnce defaultTable (first :: rest) text = .ok out := by
  let first : Row := ⟨[("Product", .str "A")], by decide⟩
  let rest : List Row := [⟨[("Product", .str "B"), ("product", .str "x")], by decide⟩]
  obtain ⟨s, hload⟩ : ∃ s, Store.empty.load defaultTable (first :: rest) = .ok s :=
    Store.load_isOk_iff.2 ⟨by decide, by decide, by decide, nofun, by decide, by decide, nofun,
      by decide⟩
  obtain ⟨text, htext⟩ : ∃ text, compile ⟨.directColumn, none, none⟩
      (Profile.ofRows (first :: rest)) (.analyze (.aggregate "product" .count none) [] 1 "") =
        .ok text := isOk_of_isSome (by decide +kernel)
  have hl : Limits ⟨.directColumn, none, none⟩ (first :: rest)
      (.analyze (.aggregate "product" .count none) [] 1 "") :=
    ⟨by decide, by decide, by decide, by rintro a fs c r ⟨⟩ b ⟨⟩⟩
  have hanswered : Answered ⟨.directColumn, none, none⟩ (Profile.ofRows (first :: rest)) first
      (.analyze (.aggregate "product" .count none) [] 1 "") :=
    ⟨fun c hc => .inl ⟨"Product", by decide, by revert c; decide⟩, nofun⟩
  exact ⟨first, rest, s, text, rfl, hload, htext,
    (execute_answered (t := ⟨.directColumn, none, none⟩) rfl hload htext).2 hl nofun nofun
      hanswered⟩

end Intent

end TableTalk
