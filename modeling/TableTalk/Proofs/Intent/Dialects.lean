import TableTalk.Proofs.Intent.Contraction
import TableTalk.Proofs.Intent.Data
import TableTalk.Proofs.Intent.Grammar
import TableTalk.Proofs.Sql.Unbroken

/-!
# Queries of an intent in both dialects

Made for one table, without a source, an intent has queries in both dialects or in none, and for the
same reason. Part by part, the queries read the same columns as the same and have the same tokens
else (`Analysis.uniform_data`), so their texts have the same relational shape
(`Intent.compile_alike`). The shape takes U+0000 between quotes for a character like any other.
-/

namespace TableTalk

open Sql

namespace Target

/-- A table in some dialect, with no source. -/
def onTable (table : String) (d : Dialect) : Target := ⟨d, some table, none⟩

variable (table : String)

/-- Both dialects read a column as the same, but for truth values. -/
theorem contracts_column (d : Dialect) (r : Reading) (c : String) :
    Contracts d ((onTable table d).column r c).tokens [.column c r.merged] := by
  have hmember : ∀ rest, Sealed rest → Atom.member c rest = (.column c .text, rest) :=
    fun rest hr => by
      unfold Atom.member
      split
      case h_5 => rfl
      all_goals exact absurd (by simp [joining]) (hr _ rfl)
  cases d with
  | directColumn =>
    cases r
    case numeric => exact .of_spelled (by decide) fun _ _ => rfl
    case date => exact .of_spelled (by decide) fun _ _ => rfl
    all_goals exact .of_spelled (by simp [joining]) fun _ _ => rfl
  | jsonDocument =>
    cases r
    case text =>
      refine .of_spelled (by decide) fun rest hr => ?_
      show some ([(Atom.member c rest).1], (Atom.member c rest).2) = _
      rw [hmember rest hr]
      rfl
    all_goals exact .of_spelled (by decide) fun _ _ => rfl

theorem uniform_column (r : Reading) (c : String) :
    Uniform fun d => ((onTable table d).column r c).tokens :=
  ⟨_, fun d => contracts_column table d r c⟩

theorem uniform_pattern (c p : String) :
    Uniform fun d => ((onTable table d).pattern c p).tokens := by
  refine ⟨[.pattern c p], fun d => ?_⟩
  cases d <;> exact .of_spelled (by decide) fun _ _ => rfl

theorem uniform_bucket (g : Grain) (c : String) :
    Uniform fun d => ((onTable table d).bucket g c).tokens := by
  have hall := (((uniform_column table .date c).cons (t := .mark .comma) (by simp)).cons
    (dull_text g.name)).call (w := "DATE_TRUNC") (by decide)
  simpa [bucket, Expr.tokens, Expr.pieces, Function2.spelling] using hall

theorem dull_value (v : FilterValue) : ∀ t ∈ v.expr.tokens, dull .directColumn t = true := by
  have hnan : dull .directColumn (.word "NaN") = true := by decide
  have hinf : dull .directColumn (.word "inf") = true := by decide
  cases v with
  | bool b => cases b <;> simp [FilterValue.expr, Expr.tokens, Expr.pieces]
  | text s => simp [FilterValue.expr, Expr.tokens, Expr.pieces]
  | number x =>
    unfold FilterValue.expr numberExpr
    dsimp only
    rcases Decimal.Binary.ofDouble x with _ | ⟨_ | _⟩ | ⟨_ | _, m, e⟩
    · simpa [Expr.tokens, Expr.pieces, Name.token] using hnan
    all_goals simp [Expr.tokens, Expr.pieces, Name.token, hinf]

theorem uniform_condition (f : Filter) :
    Uniform fun d => ((onTable table d).condition f).tokens := by
  have hcompare : ∀ op, Uniform fun d => (Expr.compare op
      ((onTable table d).column f.value.reading f.column) f.value.expr).tokens := fun op => by
    have hop : dull .directColumn (.mark op.mark) = true := by cases op <;> rfl
    have hall := (uniform_column table f.value.reading f.column).append
      ((uniform_dulls (dull_value f.value)).cons hop)
    simpa [Expr.tokens, Expr.pieces, infixed] using hall
  unfold condition
  cases f.operator
  case contains => exact uniform_pattern table _ _
  case ilike => exact uniform_pattern table _ _
  all_goals exact hcompare _

theorem uniform_conditions (g : Gap) (fs : List Filter) :
    Uniform fun d => tokensOf (Select.conditionPieces g ((onTable table d).conditions fs)) := by
  have hconditions : ∀ d, (onTable table d).conditions fs = fs.map (onTable table d).condition :=
    fun d => by cases d <;> rfl
  cases fs with
  | nil => exact uniform_nil.congr fun d => by rw [hconditions]; rfl
  | cons f fs =>
    have hjoined : Uniform fun d => joinWith [.keyword .and]
        ((f :: fs).map fun f => ((onTable table d).condition f).tokens) :=
      uniform_joinWith (by simp) fun f _ => uniform_condition table f
    refine (hjoined.cons (t := .keyword .whereTrue) (by simp)).congr fun d => ?_
    rw [hconditions, List.map_cons]
    simp [Select.conditionPieces, tokensOf_joinWith, Function.comp_def, Expr.tokens]

end Target

namespace Analysis

variable (table : String) (schema : Schema)

theorem uniform_aggregate (f : AggregateFunction) (r : Reading) (c : String) :
    Uniform fun d => (Expr.aggregate f ((Target.onTable table d).column r c)).tokens := by
  have hf : dull .directColumn (.word (aggregateSpelling f)) = true := by cases f <;> decide
  exact ((Target.uniform_column table r c).call hf).congr fun d => by
    simp [Expr.tokens, Expr.pieces]

theorem uniform_countRows : Uniform fun _ => Expr.countRows.tokens := by
  have hstar : Uniform fun _ => [.mark .star] := uniform_dulls (by simp)
  exact (hstar.call (w := "COUNT") (by decide)).congr fun _ => rfl

theorem uniform_label (a : Analysis) : (∀ d, a.label? (.onTable table d) = none) ∨
    ∃ (name : String) (e : Dialect → Expr Name),
      (∀ d, a.label? (.onTable table d) = some (name, e d)) ∧ Uniform fun d => (e d).tokens := by
  have hcolumn := Target.uniform_column table .text
  have hbucket := Target.uniform_bucket table
  cases a with
  | aggregate metric function groupBy =>
    cases groupBy with
    | none => exact .inl fun _ => rfl
    | some c => exact .inr ⟨_, _, fun _ => rfl, hcolumn c⟩
  | trend metric date function grain => exact .inr ⟨_, _, fun _ => rfl, hbucket grain date⟩
  | topList metric dimension limit order => exact .inr ⟨_, _, fun _ => rfl, hcolumn dimension⟩
  | distribution metric dimension => exact .inr ⟨_, _, fun _ => rfl, hcolumn dimension⟩
  | compare metric date period => exact .inr ⟨_, _, fun _ => rfl, hbucket period.grain date⟩
  | cohort date metric interval => exact .inr ⟨_, _, fun _ => rfl, hbucket interval.grain date⟩

theorem uniform_value (a : Analysis) : ∃ (name : String) (e : Dialect → Expr Name),
    (∀ d, a.value (.onTable table d) schema = (name, e d)) ∧ Uniform fun d => (e d).tokens := by
  have haggregate := uniform_aggregate table
  cases a with
  | aggregate metric function groupBy =>
    refine ⟨_, _, fun _ => rfl, ?_⟩
    unfold aggregateExpr
    split_ifs
    · exact uniform_countRows
    · exact haggregate .count .text metric
    · exact haggregate function .numeric metric
  | distribution metric dimension =>
    refine ⟨_, _, fun _ => rfl, ?_⟩
    split_ifs
    · exact uniform_countRows
    · exact haggregate .sum .numeric metric
  | cohort date metric interval => exact ⟨_, _, fun _ => rfl, uniform_countRows⟩
  | trend metric date function grain =>
    exact ⟨_, _, fun _ => rfl, haggregate function .numeric metric⟩
  | topList metric dimension limit order =>
    exact ⟨_, _, fun _ => rfl, haggregate .sum .numeric metric⟩
  | compare metric date period => exact ⟨_, _, fun _ => rfl, haggregate .sum .numeric metric⟩

theorem uniform_items (fs : List Filter) (a : Analysis) (g : Gap) : Uniform fun d => tokensOf
    ((a.data (.onTable table d) schema ((Target.onTable table d).conditions fs)).items.pieces
      ⟨g, false⟩) := by
  have hitem : ∀ (name : String) (e : Dialect → Expr Name), (Uniform fun d => (e d).tokens) →
      Uniform fun d => (e d).tokens ++ [Token.keyword .as, .name name] :=
    fun name e he => he.append (uniform_alias name)
  obtain ⟨v, e, hvalue, he⟩ := uniform_value table schema a
  rcases uniform_label table a with hlabel | ⟨l, e', hlabel, he'⟩
  · refine (hitem v e he).congr fun d => ?_
    simp [data, hlabel, hvalue, Items.pieces, joinWith, Item.pieces, Expr.tokens]
  · refine ((hitem l e' he').append ((hitem v e he).cons (t := .mark .comma) (by simp))).congr
      fun d => ?_
    simp [data, hlabel, hvalue, Items.pieces, joinWith, Item.pieces, Expr.tokens]

theorem uniform_group (a : Analysis) (g : Gap) :
    Uniform fun d => tokensOf (Select.groupPieces g (a.grouping (.onTable table d))) := by
  have hgroup : ∀ e : Dialect → Expr Name, (Uniform fun d => (e d).tokens) →
      Uniform fun d => tokensOf (Select.groupPieces g (some (e d))) := fun e he =>
    ((he.cons (t := .keyword .byKey) (by simp)).cons (t := .keyword .group) (by simp)).congr
      fun d => by simp [Select.groupPieces, Expr.tokens]
  have hone : Uniform fun d => tokensOf (Select.groupPieces g (some (.number "1"))) :=
    hgroup (fun _ => .number "1") (uniform_dulls (by simp [Expr.tokens, Expr.pieces]))
  cases a with
  | aggregate metric function groupBy =>
    cases groupBy with
    | none => exact uniform_nil
    | some c => exact hgroup _ (Target.uniform_column table .text c)
  | _ => exact hone

theorem uniform_order (a : Analysis) (g : Gap) :
    Uniform fun _ => tokensOf (Select.orderPieces g a.order) := by
  have hdirection : ∀ o : SortOrder, Uniform fun _ => [.keyword (SortOrder.keyword o)] :=
    fun o => uniform_dulls (by cases o <;> simp [SortOrder.keyword])
  have hnumber : ∀ n o, Uniform fun _ => tokensOf (Select.orderPieces g (some (.number n, o))) :=
    fun n o => ((uniform_orderNumber n).append (hdirection o)).congr fun _ => rfl
  cases a with
  | aggregate metric function groupBy =>
    cases groupBy with
    | none => exact uniform_nil
    | some c => exact ((uniform_orderName "value").append (hdirection .desc)).congr fun _ => rfl
  | compare metric date period => exact uniform_nil
  | _ => exact hnumber _ _

/-- The selection that reads the table contracts to the same atoms in both dialects. -/
theorem uniform_data (fs : List Filter) (a : Analysis) (g : Gap) :
    Uniform fun d => tokensOf ((a.data (.onTable table d) schema
      ((Target.onTable table d).conditions fs)).pieces ⟨g, false⟩) := by
  have hlimit : Uniform fun _ => tokensOf (Select.limitPieces g a.cap) :=
    uniform_dulls (by cases a.cap <;> simp [Select.limitPieces, numeral])
  have hconditions := Target.uniform_conditions table g fs
  have hall := (((uniform_items table schema fs a g).append (uniform_source table)).append
    (hconditions.append ((uniform_group table a g).append ((uniform_order a g).append
      hlimit)))).cons (t := .keyword .select) (by simp)
  refine hall.congr fun d => ?_
  rw [Select.tokens_pieces]
  simp only [List.append_assoc, List.cons_append, List.nil_append]
  rfl

end Analysis

namespace Sql

/-- Tokens up to a second `SELECT`, and from there on. -/
def selections (ts : List Token) : List Token × List Token :=
  let before := ts.takeWhile (· ≠ .keyword .select)
  match ts.dropWhile (· ≠ .keyword .select) with
  | [] => (before, [])
  | t :: rest =>
    (before ++ t :: rest.takeWhile (· ≠ .keyword .select),
      rest.dropWhile (· ≠ .keyword .select))

theorem selections_append {before inner outer : List Token}
    (hb : ∀ t ∈ before, t ≠ .keyword .select) (hi : ∀ t ∈ inner, t ≠ .keyword .select)
    (ho : ∀ t ∈ outer.head?, t = .keyword .select) :
    selections (before ++ .keyword .select :: inner ++ outer) =
      (before ++ .keyword .select :: inner, outer) := by
  have hstop : ∀ us : List Token, (∀ t ∈ us.head?, t = .keyword .select) →
      us.takeWhile (· ≠ .keyword .select) = [] ∧ us.dropWhile (· ≠ .keyword .select) = us := by
    rintro (_ | ⟨t, us⟩) h
    · exact ⟨rfl, rfl⟩
    · rw [h t rfl]
      simp
  have hspan : ∀ xs us : List Token, (∀ t ∈ xs, t ≠ .keyword .select) →
      (∀ t ∈ us.head?, t = .keyword .select) →
        (xs ++ us).takeWhile (· ≠ .keyword .select) = xs ∧
          (xs ++ us).dropWhile (· ≠ .keyword .select) = us := fun xs us hxs hus => by
    obtain ⟨htake, hdrop⟩ := hstop us hus
    rw [List.takeWhile_append_of_pos (by simpa using hxs),
      List.dropWhile_append_of_pos (by simpa using hxs), htake, hdrop, List.append_nil]
    exact ⟨rfl, rfl⟩
  obtain ⟨htake, hdrop⟩ := hspan before (.keyword .select :: (inner ++ outer)) hb
    (by simp)
  obtain ⟨htake', hdrop'⟩ := hspan inner outer hi ho
  rw [List.append_assoc, List.cons_append, selections, htake, hdrop]
  dsimp only
  rw [htake', hdrop']

end Sql

/-- The relational shape of a text: its tokens, with the columns that are read in them as atoms.
What selects from a selection that has a name reads no columns of the table. -/
def relational (d : Dialect) (text : String) : List Atom :=
  let (inner, outer) := selections (Token.lexOn text)
  contract d inner ++ outer.map .token

namespace Analysis

variable (table : String) (schema : Schema)

/-- The part of a query that reads the table contracts to the same in both dialects, and the part
that reads its result has the same tokens. -/
theorem exists_selections (fs : List Filter) (a : Analysis) :
    ∃ (inner : Dialect → List Token) (outer : List Token), Uniform inner ∧ ∀ d, selections
      (a.query (.onTable table d) schema ((Target.onTable table d).conditions fs)).tokens =
        (inner d, outer) := by
  by_cases h : a.kind = .compare
  · have hword : dull .directColumn (.word "period_stats") = true := by decide
    have hparen : Uniform fun _ => [.mark .rparen] := uniform_dulls (by simp)
    have hinner := (((uniform_asParen.append ((uniform_data table schema fs a .indent).append
      hparen)).cons hword).cons (t := .keyword .withName) (by simp))
    obtain ⟨others, houter, -⟩ := comparison.exists_tail ⟨.line, true⟩
    refine ⟨_, .keyword .select :: others, hinner, fun d => ?_⟩
    obtain ⟨tail, htail, hone⟩ := (a.data (.onTable table d) schema
      ((Target.onTable table d).conditions fs)).exists_tail ⟨.indent, false⟩
    have hsplit : selections ([Token.keyword .withName, .word "period_stats", .keyword .as,
        .mark .lparen] ++ Token.keyword .select :: (tail ++ [Token.mark .rparen]) ++
          Token.keyword .select :: others) = _ :=
      selections_append (by simp) (by simpa [or_imp, forall_and] using hone) (by simp)
    have htokens : (a.query (.onTable table d) schema
        ((Target.onTable table d).conditions fs)).tokens =
          [Token.keyword .withName, .word "period_stats", .keyword .as, .mark .lparen] ++
            Token.keyword .select :: (tail ++ [Token.mark .rparen]) ++
              Token.keyword .select :: others := by
      rw [query_eq, if_pos h]
      simp [Query.tokens, Query.pieces, htail, houter]
    rw [htokens, hsplit, htail]
    simp
  · refine ⟨_, [], uniform_data table schema fs a .line, fun d => ?_⟩
    obtain ⟨tail, htail, hone⟩ := (a.data (.onTable table d) schema
      ((Target.onTable table d).conditions fs)).exists_tail ⟨.line, false⟩
    have hsplit : selections ([] ++ Token.keyword .select :: tail ++ []) = _ :=
      selections_append (by simp) hone (by simp)
    have htokens : (a.query (.onTable table d) schema
        ((Target.onTable table d).conditions fs)).tokens = .keyword .select :: tail := by
      rw [query_eq, if_neg h, ← htail]
      rfl
    rw [List.append_nil, List.nil_append] at hsplit
    rw [htokens, hsplit, htail]

end Analysis

namespace Intent

theorem relational_query (table : String) (schema : Schema) (fs : List Filter) (a : Analysis) :
    ∃ as, ∀ d, relational d
      (a.query (.onTable table d) schema ((Target.onTable table d).conditions fs)).text = as := by
  obtain ⟨inner, outer, ⟨as, hinner⟩, hsplit⟩ := a.exists_selections table schema fs
  refine ⟨as ++ outer.map .token, fun d => ?_⟩
  have hwell := Analysis.wellFormed_query (.onTable table d) schema
    ((Target.onTable table d).wellFormed_conditions fs) a
  rw [relational, Query.lexOn_text hwell, hsplit d]
  dsimp only
  rw [(hinner d).eq]

/-- The shape of a text of the dialect of tables tells all its tokens. -/
theorem tokens_relational (text : String) :
    (relational .directColumn text).flatMap Atom.tokens = Token.lexOn text := by
  have hselections : ∀ ts, (selections ts).1 ++ (selections ts).2 = ts := fun ts => by
    have hspan := ts.takeWhile_append_dropWhile (p := (· ≠ .keyword .select))
    unfold selections
    dsimp only
    split
    · rename_i h
      rw [h] at hspan
      exact hspan
    · rename_i t rest h
      rw [h] at hspan
      rw [List.append_assoc, List.cons_append, List.takeWhile_append_dropWhile, hspan]
  have htokens : ∀ ts : List Token, (ts.map Atom.token).flatMap Atom.tokens = ts := fun ts => by
    rw [List.flatMap_map]
    exact List.flatMap_singleton' ts
  rw [relational]
  dsimp only
  rw [List.flatMap_append, tokens_contract, htokens, hselections]

/-- Both dialects have a query of the same shape, or none for the same reason. -/
theorem compile_alike (table : String) (schema : Schema) (i : Intent) :
    (i.compile ⟨.directColumn, some table, none⟩ schema).map (relational .directColumn) =
      (i.compile ⟨.jsonDocument, some table, none⟩ schema).map (relational .jsonDocument) := by
  cases i with
  | unknown => rfl
  | analyze a fs c r =>
    obtain ⟨as, hshape⟩ := relational_query table schema fs a
    have hd : ∀ d, ((analyze a fs c r).compile (.onTable table d) schema).map (relational d) =
        ((a.checkedColumns schema ++ fs.map Filter.column).find? fun c => !schema.contains c).elim
          (.ok as) fun c => .error (.unknownColumn c schema.columns) := fun d => by
      unfold compile query
      dsimp only
      rcases (a.checkedColumns schema ++ fs.map Filter.column).find? fun c =>
        !schema.contains c with _ | c
      · exact congrArg Except.ok (hshape d)
      · rfl
    exact (hd .directColumn).trans (hd .jsonDocument).symm

end Intent

end TableTalk
