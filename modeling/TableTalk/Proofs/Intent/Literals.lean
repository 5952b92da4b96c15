import TableTalk.Proofs.Intent.Data
import TableTalk.Proofs.Intent.Shape

/-!
# The texts of an intent are literals of its query

The columns, the values and the table of an intent stand in its query as quotations and numbers, in
the order of the query, and nowhere else (`Analysis.literals_query`). So whatever they say, the text
of the query is split into tokens that have the outline of its shape, and whose literals are those
texts (`Intent.lex_compile_shape`). Texts with U+0000 are left out: none is read as a whole.
-/

namespace TableTalk

open Sql

/-- The digits of a number, without a sign. -/
def magnitudeText (x : Float) : String :=
  match Decimal.Binary.ofDouble x with
  | .finite _ m e => String.ofList (Decimal.positional (Decimal.shortest .double .away m e))
  | _ => ""

def FilterValue.literal : FilterValue → Token
  | bool b => .keyword (if b then .true else .false)
  | number x => .number (magnitudeText x)
  | text s => .text s

namespace Target

variable (t : Target)

/-- The quotation that names a column. -/
def columnToken (c : String) : Token :=
  match t.dialect with
  | .directColumn => .name c
  | .jsonDocument => .text c

def tableToken : Token :=
  .name (t.table.getD (match t.dialect with
    | .directColumn => defaultTable
    | .jsonDocument => documentTable))

def filterLiterals (f : Filter) : List Token :=
  [t.columnToken f.column,
    match f.operator with
    | .contains => .text ("%" ++ f.value.shown ++ "%")
    | .ilike => .text f.value.shown
    | _ => f.value.literal]

def conditionLiterals (filters : List Filter) : List Token :=
  (match t.dialect, t.sourceId with
    | .jsonDocument, some id => [.text id]
    | _, _ => []) ++ filters.flatMap t.filterLiterals

end Target

/-- The literals of a comparison of periods. -/
def comparisonLiterals : List Token :=
  let previous : List Token := [.name "total_value", .name "period_date"]
  let change : List Token := .name "total_value" :: previous
  [.name "period_date", .name "date", .name "total_value", .name "current_value"] ++
    previous ++ [.name "previous_value"] ++ change ++ [.name "change_value"] ++ change ++
    previous ++ [.number "0", .number "100", .number "2", .name "percentage_change", .number "1",
      .number "12"]

/-- The literals of the query of an analysis, those of the conditions among them. -/
def Analysis.literals (t : Target) (schema : Schema) (conditions : List Token) :
    Analysis → List Token
  | aggregate metric function groupBy =>
    let value : List Token :=
      (if aggregateCountsRows schema metric function then [] else [t.columnToken metric]) ++
        [.name "value", t.tableToken] ++ conditions
    match groupBy with
    | none => value
    | some c =>
      [t.columnToken c, .name "group"] ++ value ++ [t.columnToken c, .name "value", .number "100"]
  | trend metric date _ grain =>
    [.text grain.name, t.columnToken date, .name "date", t.columnToken metric, .name "value",
      t.tableToken] ++ conditions ++ [.number "1", .number "1", .number "500"]
  | topList metric dimension limit _ =>
    [t.columnToken dimension, .name "label", t.columnToken metric, .name "value", t.tableToken] ++
      conditions ++ [.number "1", .number "2", .number (max 1 (min limit 100)).repr]
  | distribution metric dimension =>
    [t.columnToken dimension, .name "label"] ++
      (if countsRows metric then [] else [t.columnToken metric]) ++ [.name "value", t.tableToken] ++
      conditions ++ [.number "1", .number "2", .number "20"]
  | compare metric date period =>
    [.text period.grain.name, t.columnToken date, .name "period_date", t.columnToken metric,
      .name "total_value", t.tableToken] ++ conditions ++ [.number "1"] ++ comparisonLiterals
  | cohort date _ interval =>
    [.text interval.grain.name, t.columnToken date, .name "cohort_date", .name "cohort_size",
      t.tableToken] ++ conditions ++ [.number "1", .number "1", .number "24"]

def Intent.literals (t : Target) (schema : Schema) : Intent → List Token
  | unknown .. => []
  | analyze a filters _ _ => a.literals t schema (t.conditionLiterals filters)

section Literals

variable {t : Target} {schema : Schema}

theorem expr_number {x : Float} (h : x.isFinite = true) :
    numberExpr x = (if negative x then .negate (.number (magnitudeText x))
      else .number (magnitudeText x)) := by
  obtain ⟨b, m, e, hx⟩ := exists_finite h
  unfold numberExpr negative magnitudeText
  rw [hx]
  cases b <;> rfl

theorem FilterValue.literals_expr {v : FilterValue} (h : ∀ x, v = .number x → x.isFinite = true) :
    Sql.literals (tokensOf v.expr.pieces) = [v.literal] := by
  cases v with
  | bool b => cases b <;> rfl
  | number x =>
    rw [expr, expr_number (h x rfl)]
    split_ifs <;> rfl
  | text s => rfl

theorem Target.literals_column (r : Reading) (c : String) :
    Sql.literals (tokensOf (t.column r c).pieces) = [t.columnToken c] := by
  unfold column columnToken
  cases t.dialect <;> cases r <;> rfl

theorem Target.literals_pattern (c p : String) :
    Sql.literals (tokensOf (t.pattern c p).pieces) = [t.columnToken c, .text p] := by
  have hc := literals_column (t := t) .text c
  unfold pattern
  dsimp only
  split <;> simp [Expr.pieces, infixed, hc, literals_cons, Token.isLiteral]

theorem Target.literals_condition {f : Filter}
    (hf : ∀ x, f.value = .number x → x.isFinite = true) :
    Sql.literals (tokensOf (t.condition f).pieces) = t.filterLiterals f := by
  have hc := literals_column (t := t) f.value.reading f.column
  have hv := FilterValue.literals_expr hf
  unfold condition filterLiterals
  cases f.operator
  case contains => exact literals_pattern _ _
  case ilike => exact literals_pattern _ _
  all_goals simp [Expr.pieces, infixed, hc, hv, literals_cons, Token.isLiteral]

/-- What stands in a condition besides its column does not depend on it. -/
theorem Target.exists_literals (g : Filter) : ∃ ls, ∀ c,
    Sql.literals (tokensOf (t.condition { g with column := c }).pieces) = t.columnToken c :: ls := by
  have hc := fun r c => literals_column (t := t) r c
  unfold condition
  dsimp only
  cases g.operator
  case contains => exact ⟨_, fun _ => literals_pattern _ _⟩
  case ilike => exact ⟨_, fun _ => literals_pattern _ _⟩
  all_goals
    refine ⟨Sql.literals (tokensOf g.value.expr.pieces), fun c => ?_⟩
    simp [Expr.pieces, infixed, hc, literals_cons, Token.isLiteral]

theorem Target.literals_conditions {fs : List Filter}
    (hf : ∀ f ∈ fs, ∀ x, f.value = .number x → x.isFinite = true) :
    ((t.conditions fs).flatMap fun c => Sql.literals (tokensOf c.pieces)) =
      t.conditionLiterals fs := by
  have hscope : ((t.conditions []).flatMap fun c => Sql.literals (tokensOf c.pieces)) =
      t.conditionLiterals [] := by
    unfold conditions conditionLiterals
    cases t.dialect <;> cases t.sourceId <;> rfl
  have hall : t.conditionLiterals fs = t.conditionLiterals [] ++ fs.flatMap t.filterLiterals := by
    simp [conditionLiterals]
  have hmap : fs.map (fun f => Sql.literals (tokensOf (t.condition f).pieces)) =
      fs.map t.filterLiterals := List.map_congr_left fun f h => literals_condition (hf f h)
  rw [conditions_eq, List.flatMap_append, hscope, hall, List.flatMap_map, List.flatMap_def, hmap,
    List.flatMap_def]

theorem Analysis.literals_query {cs : List (Expr Name)} {ls : List Token}
    (hc : (cs.flatMap fun c => Sql.literals (tokensOf c.pieces)) = ls) (a : Analysis) :
    Sql.literals (a.query t schema cs).tokens = a.literals t schema ls := by
  have hcolumn := fun r c => Target.literals_column (t := t) r c
  have hsource : t.source.token = t.tableToken := rfl
  have htable : t.tableToken.isLiteral = true := rfl
  have hbucket : ∀ g c, Sql.literals (tokensOf (t.bucket g c).pieces) =
      [.text g.name, t.columnToken c] := fun g c => by
    simp [Target.bucket, Expr.pieces, hcolumn, literals_cons, Token.isLiteral]
  have haggregate : ∀ f c, Sql.literals (tokensOf (Expr.aggregate f (t.column .numeric c)).pieces) =
      [t.columnToken c] := fun f c => by
    simp [Expr.pieces, hcolumn, literals_cons, Token.isLiteral]
  have hcount : Sql.literals (tokensOf Expr.countRows.pieces) = [] := rfl
  have hnumber : ∀ s, Sql.literals (tokensOf (Expr.number s).pieces) = [.number s] := fun _ => rfl
  have hname : ∀ s, Sql.literals (tokensOf (Expr.column (.quoted s)).pieces) = [.name s] :=
    fun _ => rfl
  have hitem : ∀ e s, Sql.literals (tokensOf (Item.pieces ⟨e, some s⟩)) =
      Sql.literals (tokensOf e.pieces) ++ [Token.name s] := fun e s => by
    simp [Item.pieces, literals_cons, Token.isLiteral]
  have hmain : ∀ items cs group order limit,
      Sql.literals (Query.tokens ⟨none, ⟨.list items, t.source, cs, group, order, limit⟩⟩) = _ :=
    fun items cs group order limit => Select.literals_pieces ⟨.line, false⟩ items t.source cs group
      order limit
  cases a with
  | aggregate metric function groupBy =>
    have hvalue : Sql.literals (tokensOf (aggregateExpr t schema metric function).pieces) =
        if aggregateCountsRows schema metric function then [] else [t.columnToken metric] := by
      unfold aggregateExpr
      split_ifs <;> simp [Expr.pieces, hcolumn, literals_cons, Token.isLiteral]
    have hcap : aggregateCap.repr = "100" := by decide
    cases groupBy <;> simp [query, hmain, hitem, literals, hc, hcolumn, hsource, hvalue, hname, hcap,
      literals_cons, htable]
  | trend metric date function grain =>
    have hcap : trendCap.repr = "500" := by decide
    simp [query, hmain, hitem, literals, hc, hbucket, hsource, haggregate, hnumber, hcap,
      literals_cons, htable]
  | topList metric dimension limit order =>
    simp [query, hmain, hitem, literals, hc, hcolumn, hsource, haggregate, hnumber, topListCap,
      literals_cons, htable]
  | distribution metric dimension =>
    have hcap : distributionCap.repr = "20" := by decide
    have hvalue : Sql.literals (tokensOf (if countsRows metric then Expr.countRows
        else .aggregate .sum (t.column .numeric metric)).pieces) =
        if countsRows metric then [] else [t.columnToken metric] := by
      split_ifs
      · exact hcount
      · exact haggregate _ _
    simp [query, hmain, hitem, literals, hc, hcolumn, hsource, hvalue, hnumber, hcap,
      literals_cons, htable]
  | compare metric date period =>
    have hperiods : Sql.literals (tokensOf
        ((periods t cs metric date period.grain).pieces ⟨.indent, false⟩)) = _ :=
      Select.literals_pieces ⟨.indent, false⟩ _ t.source cs _ _ _
    have hcomparison : Sql.literals (tokensOf (comparison.pieces ⟨.line, true⟩)) =
        comparisonLiterals := by decide
    rw [query, Query.literals_common, hperiods, hcomparison]
    simp [hitem, literals, hc, hbucket, hsource, haggregate, hnumber, literals_cons, htable]
  | cohort date metric interval =>
    have hcap : cohortCap.repr = "24" := by decide
    simp [query, hmain, hitem, literals, hc, hbucket, hsource, hcount, hnumber, hcap,
      literals_cons, htable]

theorem literals_query {i : Intent} {q : Query} (h : i.query t schema = .ok q)
    (hf : ∀ f ∈ i.filters, ∀ x, f.value = .number x → x.isFinite = true) :
    Sql.literals q.tokens = i.literals t schema := by
  cases i with
  | unknown => cases h
  | analyze a filters c r =>
    unfold Intent.query at h
    dsimp only at h
    split at h
    · cases h
    · cases h
      exact Analysis.literals_query (Target.literals_conditions hf) a

end Literals

section Clean

/-- A text without U+0000. -/
def Clean (s : String) : Prop := '\x00' ∉ s.toList

instance (s : String) : Decidable (Clean s) := inferInstanceAs (Decidable (¬_))

def FilterValue.text? : FilterValue → Option String
  | bool _ => none
  | number _ => none
  | text s => some s

/-- The texts that a query is made of. -/
def Intent.texts (t : Target) (i : Intent) : List String :=
  t.table.toList ++ t.sourceId.toList ++ i.columns ++ i.filters.filterMap fun f => f.value.text?

theorem broken_name {s : String} (h : Clean s) : (Token.name s).broken = false := by
  simpa [Token.broken, Clean] using h

theorem broken_text {s : String} (h : Clean s) : (Token.text s).broken = false := by
  simpa [Token.broken, Clean] using h

theorem Clean.append {s t : String} (hs : Clean s) (ht : Clean t) : Clean (s ++ t) := by
  simp only [Clean, String.toList_append, List.mem_append, not_or]
  exact ⟨hs, ht⟩

theorem clean_of_isNumeral {s : String} (h : Token.IsNumeral s.toList) : Clean s := by
  obtain ⟨whole, rest, hs, -, hw, hr⟩ := h
  have hdigit : ∀ cs : List Char, (∀ c ∈ cs, c.isDigit = true) → '\x00' ∉ cs :=
    fun cs hcs h0 => absurd (hcs _ h0) (by decide)
  rw [Clean, hs, List.mem_append, not_or]
  refine ⟨hdigit _ hw, ?_⟩
  rcases hr with rfl | ⟨fraction, rfl, hfraction⟩
  · simp
  · simpa using hdigit _ hfraction

theorem isNumeral_magnitudeText {x : Float} (h : x.isFinite = true) :
    Token.IsNumeral (magnitudeText x).toList := by
  obtain ⟨b, m, e, hx⟩ := exists_finite h
  unfold magnitudeText
  rw [hx, String.toList_ofList]
  exact Decimal.isNumeral_positional _

/-- A number in a pattern has its sign in front. -/
theorem plain_eq {x : Float} (h : x.isFinite = true) :
    Decimal.plain x = (if negative x then "-" else "") ++ magnitudeText x := by
  obtain ⟨b, m, e, hx⟩ := exists_finite h
  unfold Decimal.plain negative magnitudeText
  rw [hx, Decimal.plainChars, String.ofList_append]
  cases b <;> rfl

theorem clean_shown {v : FilterValue} (hf : ∀ x, v = .number x → x.isFinite = true)
    (ht : ∀ s ∈ v.text?, Clean s) : Clean v.shown := by
  cases v with
  | bool b => cases b <;> decide
  | number x =>
    have hm := clean_of_isNumeral (isNumeral_magnitudeText (hf x rfl))
    rw [FilterValue.shown, plain_eq (hf x rfl)]
    split_ifs
    · exact Clean.append (by decide) hm
    · exact Clean.append (by decide) hm
  | text s => exact ht s rfl

variable {t : Target} {schema : Schema}

theorem broken_column {c : String} (h : Clean c) : (t.columnToken c).broken = false := by
  unfold Target.columnToken
  split
  · exact broken_name h
  · exact broken_text h

theorem broken_table (h : ∀ s ∈ t.table, Clean s) : t.tableToken.broken = false := by
  unfold Target.tableToken
  rcases ht : t.table with _ | s
  · cases t.dialect <;> decide
  · exact broken_name (h s ht)

theorem broken_filter {f : Filter} (hf : ∀ x, f.value = .number x → x.isFinite = true)
    (hc : Clean f.column) (ht : ∀ s ∈ f.value.text?, Clean s) :
    ∀ l ∈ t.filterLiterals f, l.broken = false := by
  have hshown := clean_shown hf ht
  have hliteral : f.value.literal.broken = false := by
    rcases hv : f.value with b | x | s
    · cases b <;> rfl
    · rfl
    · exact broken_text (ht s (by rw [hv]; rfl))
  intro l hl
  simp only [Target.filterLiterals, List.mem_cons, List.not_mem_nil, or_false] at hl
  rcases hl with rfl | rfl
  · exact broken_column hc
  · cases f.operator
    case contains => exact broken_text (Clean.append (Clean.append (by decide) hshown) (by decide))
    case ilike => exact broken_text hshown
    all_goals exact hliteral

theorem broken_conditions (hid : ∀ s ∈ t.sourceId, Clean s) {fs : List Filter}
    (hf : ∀ f ∈ fs, ∀ x, f.value = .number x → x.isFinite = true)
    (hc : ∀ f ∈ fs, Clean f.column) (ht : ∀ f ∈ fs, ∀ s ∈ f.value.text?, Clean s) :
    ∀ l ∈ t.conditionLiterals fs, l.broken = false := by
  intro l hl
  unfold Target.conditionLiterals at hl
  rcases List.mem_append.1 hl with hl | hl
  · split at hl
    · rename_i hs
      rw [List.mem_singleton.1 hl]
      exact broken_text (hid _ hs)
    · cases hl
  · obtain ⟨f, hmem, hl⟩ := List.mem_flatMap.1 hl
    exact broken_filter (hf f hmem) (hc f hmem) (ht f hmem) l hl

/-- What is left open is the table, a column of an item, or in the conditions. -/
theorem unbroken_literals {ls : List Token} {a : Analysis} :
    (∀ l ∈ a.literals t schema ls, l.broken = false) ↔ t.tableToken.broken = false ∧
      (∀ c ∈ a.itemColumns schema, (t.columnToken c).broken = false) ∧
      ∀ l ∈ ls, l.broken = false := by
  have hgrain : ∀ g : Grain, (Token.text g.name).broken = false := fun g => by cases g <;> decide
  have hlabel : ∀ l ∈ [Token.name "value", .name "group", .name "date", .name "label",
      .name "period_date", .name "total_value", .name "cohort_date", .name "cohort_size"],
      l.broken = false := by decide
  have hnumber : ∀ s, (Token.number s).broken = false := fun _ => rfl
  simp only [List.mem_cons, List.not_mem_nil, or_false, forall_eq_or_imp, forall_eq] at hlabel
  have hcomparison : (∀ l ∈ comparisonLiterals, l.broken = false) = True := eq_true (by decide)
  cases a with
  | aggregate metric function groupBy =>
    cases groupBy <;> simp only [Analysis.literals, Analysis.itemColumns] <;> split_ifs <;>
      simp [or_imp, forall_and, hlabel, hnumber, and_assoc, and_comm, and_left_comm]
  | distribution metric dimension =>
    simp only [Analysis.literals, Analysis.itemColumns]
    split_ifs <;> simp [or_imp, forall_and, hlabel, hnumber, and_assoc, and_comm, and_left_comm]
  | cohort | compare | trend | topList =>
    simp [Analysis.literals, Analysis.itemColumns, Analysis.columns, or_imp, forall_and, hlabel,
      hgrain, hnumber, hcomparison, and_assoc, and_comm, and_left_comm]

/-- Only a literal can be left open. -/
theorem unbroken_iff {ts : List Token} :
    (∀ u ∈ ts, u.broken = false) ↔ ∀ u ∈ Sql.literals ts, u.broken = false := by
  constructor
  · exact fun h u hu => h u (List.mem_filter.1 hu).1
  · intro h u hu
    rcases hb : u.broken
    · rfl
    have hliteral : u.isLiteral = true := by
      cases u <;> first | rfl | cases hb
    rw [h u (List.mem_filter.2 ⟨hu, hliteral⟩)] at hb
    cases hb

theorem unbroken_query {cs : List (Expr Name)} {a : Analysis} :
    (∀ u ∈ (a.query t schema cs).tokens, u.broken = false) ↔ t.tableToken.broken = false ∧
      (∀ c ∈ a.itemColumns schema, (t.columnToken c).broken = false) ∧
      ∀ e ∈ cs, ∀ l ∈ Sql.literals (tokensOf e.pieces), l.broken = false := by
  rw [unbroken_iff, Analysis.literals_query rfl, unbroken_literals, List.forall_mem_flatMap]

/-- The tokens of a query without U+0000 are all closed. -/
theorem unbroken_tokens {i : Intent} {q : Query} (hq : i.query t schema = .ok q)
    (hf : ∀ f ∈ i.filters, ∀ x, f.value = .number x → x.isFinite = true)
    (hclean : ∀ s ∈ i.texts t, Clean s) : ∀ u ∈ q.tokens, u.broken = false := by
  rw [unbroken_iff, literals_query hq hf]
  simp only [Intent.texts, List.mem_append, or_imp, forall_and] at hclean
  obtain ⟨⟨⟨htable, hid⟩, hcolumns⟩, hvalues⟩ := hclean
  cases i with
  | unknown => cases hq
  | analyze a filters c r =>
    have hconditions := broken_conditions (t := t) (fun s hs => hid s (Option.mem_toList.2 hs)) hf
      (fun f hmem => hcolumns f.column (List.mem_append_right _ (List.mem_map_of_mem hmem)))
      (fun f hmem s hs => hvalues s (List.mem_filterMap.2 ⟨f, hmem, hs⟩))
    have hitems : ∀ c ∈ a.itemColumns schema, Clean c := fun c hc => hcolumns c
      (List.mem_append_left _ (a.checkedColumns_subset schema c (a.itemColumns_subset schema c hc)))
    exact unbroken_literals.2 ⟨broken_table fun s hs => htable s (Option.mem_toList.2 hs),
      fun c hc => broken_column (hitems c hc), hconditions⟩

theorem lex_compile_clean {i : Intent} {text : String} (h : i.compile t schema = .ok text)
    (hf : ∀ f ∈ i.filters, ∀ x, f.value = .number x → x.isFinite = true)
    (hclean : ∀ s ∈ i.texts t, Clean s) :
    ∃ q, i.query t schema = .ok q ∧ text = q.text ∧ Token.lex text = q.tokens := by
  obtain ⟨q, hq, htext, hlex⟩ := Intent.lex_compile h
  exact ⟨q, hq, htext, hlex.trans (Token.foldr_seen (unbroken_tokens hq hf hclean))⟩

end Clean

namespace Intent

variable {t : Target} {schema : Schema} {i : Intent}

theorem finite_of_read {json : String} (h : read json = .ok i) :
    ∀ f ∈ i.filters, ∀ x, f.value = .number x → x.isFinite = true := by
  rw [read, readChars, bind_eq_ok] at h
  obtain ⟨j, -, h⟩ := h
  split at h
  · cases h
  · rename_i hfault
    cases h
    intro f hmem x hx
    unfold fault? at hfault
    split_ifs at hfault
    split at hfault
    · cases hfault
    · rw [Option.map_eq_none_iff, List.find?_eq_none] at hfault
      have := hfault f hmem
      simpa [Filter.finite, hx] using this

/-- What a query is made of shows in its outline only by its shape, and every text that it is made
of is the content of a quotation, each number one numeral. -/
theorem lex_compile_shape {json text : String} (hread : read json = .ok i)
    (h : i.compile t schema = .ok text) (hclean : ∀ s ∈ i.texts t, Clean s) :
    ∃ s, i.shape? t schema = some s ∧ (Token.lex text).map Token.outline = s.outline ∧
      Sql.literals (Token.lex text) = i.literals t schema ∧
      ∀ f ∈ i.filters, ∀ x, f.value = .number x → Token.IsNumeral (magnitudeText x).toList ∧
        f.value.shown = (if negative x then "-" else "") ++ magnitudeText x ∧
        f.value.expr.tokens =
          (if negative x then [.mark .minus] else []) ++ [.number (magnitudeText x)] := by
  have hf := finite_of_read hread
  obtain ⟨q, hq, -, hlex⟩ := lex_compile_clean h hf hclean
  obtain ⟨s, hs, houtline⟩ := outline_query hq hf
  refine ⟨s, hs, ?_, ?_, fun f hmem x hx => ?_⟩
  · rw [hlex, houtline]
  · rw [hlex, literals_query hq hf]
  · have hfinite := hf f hmem x hx
    rw [hx]
    refine ⟨isNumeral_magnitudeText hfinite, plain_eq hfinite, ?_⟩
    rw [FilterValue.expr, expr_number hfinite]
    split_ifs <;> rfl

/-- A text that tries to end its quotation is one literal still. -/
theorem lex_compile_shape_quotes :
    ∃ json i text s, read json = .ok i ∧ i.filters = [⟨"it's", .eq, .text "x'; --"⟩] ∧
      i.compile ⟨.directColumn, none, none⟩ (Schema.ofPairs [("a\"b", .text), ("it's", .text)]) =
        .ok text ∧
      (∀ s ∈ i.texts ⟨.directColumn, none, none⟩, Clean s) ∧
      (Token.lex text).map Token.outline = Shape.outline s ∧
      Sql.literals (Token.lex text) = [.name "a\"b", .name "label", .name "value",
        .name "current_analysis", .name "it's", .text "x'; --", .number "1", .number "2",
        .number "20"] := by
  have hread : read ("\x7b\"type\":\"DISTRIBUTION\"," ++ "\"metricColumn\":\"count\"," ++
      "\"dimensionColumn\":\"a\\\"b\"," ++ "\"filters\":[\x7b\"column\":" ++
      "\"it's\",\"operator\":\"eq\"," ++ "\"value\":\"x'; --\"\x7d]," ++
      "\"confidence\":1,\"reasoning\":\"\"\x7d") =
      .ok (.analyze (.distribution "count" "a\"b") [⟨"it's", .eq, .text "x'; --"⟩] 1 "") := by
    simp only [Intent.read, String.toList_append]
    exact eq_ok_of_toOption (by decide +kernel)
  obtain ⟨text, htext⟩ : ∃ text, compile ⟨.directColumn, none, none⟩
      (Schema.ofPairs [("a\"b", .text), ("it's", .text)])
      (.analyze (.distribution "count" "a\"b") [⟨"it's", .eq, .text "x'; --"⟩] 1 "") = .ok text :=
    ⟨_, by rfl⟩
  have hclean : ∀ s ∈ texts ⟨.directColumn, none, none⟩ (.analyze (.distribution "count" "a\"b")
      [⟨"it's", .eq, .text "x'; --"⟩] 1 ""), Clean s := by decide
  obtain ⟨s, -, houtline, hliterals, -⟩ := lex_compile_shape hread htext hclean
  exact ⟨_, _, text, s, hread, rfl, htext, hclean, houtline, hliterals.trans (by decide +kernel)⟩

end Intent

end TableTalk
