import TableTalk.Intent.Compile
import TableTalk.Proofs.Outcome
import TableTalk.Proofs.Sql.Grammar

/-!
# Queries of intents are well formed

Whatever an intent mentions, its query is well formed in the dialect that it is made for
(`Intent.query_wellFormed`). Its columns stand between quotes, or are texts that name a member, and
its numbers are plain decimals (`Decimal.isNumeral_positional`) or, where a filter compares with
none, a word.
-/

namespace TableTalk

open Sql

namespace Decimal

theorem isDigit_digitChars {n : Nat} {c : Char} (h : c ∈ digitChars n) : c.isDigit = true :=
  Nat.isDigit_of_mem_toDigits (by decide) (by decide) h

theorem isDigit_zeros {n : Nat} {c : Char} (h : c ∈ zeros n) : c.isDigit = true := by
  rw [(List.mem_replicate.1 h).2]
  decide

/-- Digits on both sides of the point, and one in front of it at least. -/
theorem split_digits (digits : Nat) (exponent : Int) :
    (split digits exponent).1 ≠ [] ∧ (∀ c ∈ (split digits exponent).1, c.isDigit = true) ∧
      ∀ c ∈ (split digits exponent).2, c.isDigit = true := by
  have hne : digitChars digits ≠ [] := Nat.toDigits_ne_nil
  unfold split
  dsimp only
  split_ifs
  · refine ⟨by simp [hne], fun c hc => ?_, by simp⟩
    rcases List.mem_append.1 hc with h | h
    · exact isDigit_digitChars h
    · exact isDigit_zeros h
  · have hall : ∀ c ∈ zeros ((-exponent).toNat + 1 - (digitChars digits).length)
        ++ digitChars digits, c.isDigit = true := fun c hc => by
      rcases List.mem_append.1 hc with h | h
      · exact isDigit_zeros h
      · exact isDigit_digitChars h
    refine ⟨fun h => ?_, fun c hc => hall c (List.mem_of_mem_take hc),
      fun c hc => hall c (List.mem_of_mem_drop hc)⟩
    have hlen := congrArg List.length h
    simp only [List.length_take, List.length_append, zeros, List.length_replicate,
      List.length_nil] at hlen
    omega

theorem isNumeral_positional (d : Scaled) : Token.IsNumeral (positional d) := by
  obtain ⟨hne, hwhole, hfraction⟩ := split_digits d.digits d.exponent
  unfold positional
  split
  · rename_i whole h
    rw [h] at hne hwhole
    exact ⟨whole, [], (List.append_nil _).symm, hne, hwhole, .inl rfl⟩
  · rename_i whole fraction _ h
    rw [h] at hne hwhole hfraction
    exact ⟨whole, _, rfl, hne, hwhole, .inr ⟨fraction, rfl, hfraction⟩⟩

end Decimal

theorem wellFormed_numberExpr (d : Dialect) (x : Float) : (numberExpr x).WellFormed d := by
  have hplain : ∀ m e, Token.IsNumeral (String.ofList (Decimal.positional
      (Decimal.shortest .double .away m e))).toList := fun m e => by
    rw [String.toList_ofList]
    exact Decimal.isNumeral_positional _
  have hnan : Token.isWord "NaN".toList = true := by decide
  have hinf : Token.isWord "inf".toList = true := by decide
  unfold numberExpr
  dsimp only
  rcases Decimal.Binary.ofDouble x with _ | ⟨_ | _⟩ | ⟨_ | _, m, e⟩
  · exact hnan
  · exact hinf
  · exact hinf
  · exact hplain m e
  · exact hplain m e

theorem level_numberExpr (x : Float) : (numberExpr x).level = 0 := by
  unfold numberExpr
  dsimp only
  rcases Decimal.Binary.ofDouble x with _ | ⟨_ | _⟩ | ⟨_ | _, m, e⟩ <;> rfl

theorem FilterValue.wellFormed_expr (d : Dialect) (v : FilterValue) :
    v.expr.WellFormed d ∧ v.expr.level = 0 := by
  cases v with
  | bool b => exact ⟨trivial, rfl⟩
  | number x => exact ⟨wellFormed_numberExpr d x, level_numberExpr x⟩
  | text s => exact ⟨trivial, rfl⟩

namespace Target

variable (t : Target)

theorem wellFormed_column (r : Reading) (c : String) :
    (t.column r c).WellFormed t.dialect ∧ (t.column r c).level ≤ 1 := by
  have hdoc : Token.isWord documentColumn.toList = true := by decide
  have hmember : (Expr.member (.column (.bare documentColumn)) (.text c)).WellFormed
      .jsonDocument := ⟨Nat.zero_le 1, rfl, hdoc, trivial⟩
  unfold column
  rcases t.dialect
  · cases r <;> exact ⟨trivial, Nat.zero_le 1⟩
  · cases r
    · exact ⟨⟨rfl, Nat.zero_le 1, by decide, hmember⟩, Nat.le_refl 1⟩
    · exact ⟨⟨rfl, Nat.zero_le 1, by decide, hmember⟩, Nat.le_refl 1⟩
    · exact ⟨⟨rfl, Nat.zero_le 1, by decide, hmember⟩, Nat.le_refl 1⟩
    · exact ⟨hmember, Nat.zero_le 1⟩

theorem wellFormed_pattern (c p : String) : (t.pattern c p).WellFormed t.dialect := by
  obtain ⟨hc, hl⟩ := t.wellFormed_column .text c
  unfold pattern
  dsimp only
  split
  · exact ⟨Nat.zero_le 3, Nat.zero_le 3, hc, trivial⟩
  · rename_i hd
    exact ⟨hd, Nat.le_trans hl (by decide), Nat.zero_le 3, hc, trivial⟩

theorem wellFormed_condition (f : Filter) : (t.condition f).WellFormed t.dialect := by
  obtain ⟨hc, hl⟩ := t.wellFormed_column f.value.reading f.column
  obtain ⟨hv, hz⟩ := f.value.wellFormed_expr t.dialect
  have hcompare : ∀ op, (Expr.compare op (t.column f.value.reading f.column)
      f.value.expr).WellFormed t.dialect := fun _ => ⟨by omega, by omega, hc, hv⟩
  unfold condition
  cases f.operator
  case contains => exact t.wellFormed_pattern _ _
  case ilike => exact t.wellFormed_pattern _ _
  all_goals exact hcompare _

theorem wellFormed_conditions (fs : List Filter) :
    ∀ e ∈ t.conditions fs, e.WellFormed t.dialect := by
  have hid : Token.isWord "data_source_id".toList = true := by decide
  intro e he
  unfold conditions at he
  rcases List.mem_append.1 he with he | he
  · split at he
    · rw [List.mem_singleton.1 he]
      exact ⟨Nat.zero_le 3, Nat.zero_le 3, hid, trivial⟩
    · cases he
  · obtain ⟨f, _, rfl⟩ := List.mem_map.1 he
    exact t.wellFormed_condition f

theorem wellFormed_source : t.source.WellFormed := trivial

theorem wellFormed_bucket (g : Grain) (c : String) : (t.bucket g c).WellFormed t.dialect :=
  ⟨trivial, (t.wellFormed_column .date c).1⟩

end Target

namespace Analysis

variable (t : Target) (schema : Schema)

theorem wellFormed_aggregateExpr (metric : String) (function : AggregateFunction) :
    (aggregateExpr t schema metric function).WellFormed t.dialect := by
  unfold aggregateExpr
  split_ifs
  · trivial
  · exact (t.wellFormed_column .text metric).1
  · exact (t.wellFormed_column .numeric metric).1

theorem wellFormed_comparison (d : Dialect) : comparison.WellFormed d where
  items := by
    have hone : ∀ n, Token.IsNumeral (String.ofList (Nat.toDigits 10 n)).toList := fun n => by
      rw [String.toList_ofList]
      exact Select.isNumeral_toDigits n
    refine ⟨by simp, ?_⟩
    intro i hi
    simp only [List.mem_cons, List.not_mem_nil, or_false] at hi
    rcases hi with rfl | rfl | rfl | rfl | rfl
    · trivial
    · trivial
    · exact ⟨trivial, trivial⟩
    · exact ⟨Nat.zero_le 3, by decide, trivial, trivial, trivial⟩
    · refine ⟨⟨Nat.le_refl 2, by decide, ⟨by decide, by decide, ?_, ?_⟩, hone 100⟩, hone 2⟩
      · exact ⟨Nat.zero_le 3, by decide, trivial, trivial, trivial⟩
      · exact ⟨⟨trivial, trivial⟩, hone 0⟩
  source := by
    show Token.isWord "period_stats".toList = true
    decide
  conditions := by simp [comparison]
  groupBy := by simp [comparison]
  orderBy := by
    rintro e ⟨⟩
    exact Select.isNumeral_toDigits 1

theorem wellFormed_pair {d : Dialect} {l r : Expr Name} (hl : l.WellFormed d) (hr : r.WellFormed d)
    (a b : Option String) : (Items.list [⟨l, a⟩, ⟨r, b⟩]).WellFormed d := by
  refine ⟨by simp, fun i hi => ?_⟩
  simp only [List.mem_cons, List.not_mem_nil, or_false] at hi
  rcases hi with rfl | rfl
  · exact hl
  · exact hr

/-- A selection grouped and ordered by its items. -/
theorem wellFormed_grouped {conditions : List (Expr Name)}
    (hc : ∀ e ∈ conditions, e.WellFormed t.dialect) {items : Items Name}
    (hi : items.WellFormed t.dialect) {group order : Expr Name} (hg : group.WellFormed t.dialect)
    (ho : order.WellFormed t.dialect) (o : SortOrder) (limit : Option Nat) :
    Query.WellFormed t.dialect
      ⟨none, ⟨items, t.source, conditions, some group, some (order, o), limit⟩⟩ where
  common := nofun
  main := ⟨hi, t.wellFormed_source, hc, by rintro e ⟨⟩; exact hg, by rintro e ⟨⟩; exact ho⟩

theorem wellFormed_query {conditions : List (Expr Name)}
    (hc : ∀ e ∈ conditions, e.WellFormed t.dialect) (a : Analysis) :
    (a.query t schema conditions).WellFormed t.dialect := by
  have hone : (Expr.number "1").WellFormed t.dialect := Select.isNumeral_toDigits 1
  have htwo : (Expr.number "2").WellFormed t.dialect := Select.isNumeral_toDigits 2
  have hname : (Expr.column (.quoted "value")).WellFormed t.dialect := trivial
  have hcount : Expr.countRows.WellFormed t.dialect := trivial
  have hcolumn : ∀ r c, (t.column r c).WellFormed t.dialect := fun r c => (t.wellFormed_column r c).1
  cases a with
  | aggregate metric function groupBy =>
    have hvalue := wellFormed_aggregateExpr t schema metric function
    cases groupBy with
    | none =>
      refine ⟨nofun, ⟨⟨by simp, fun i hi => ?_⟩, t.wellFormed_source, hc, nofun, nofun⟩⟩
      rw [List.mem_singleton.1 hi]
      exact hvalue
    | some c =>
      exact wellFormed_grouped t hc (wellFormed_pair (hcolumn _ _) hvalue _ _) (hcolumn _ _)
        hname _ _
  | trend metric date function grain =>
    have hvalue : (Expr.aggregate function (t.column .numeric metric)).WellFormed t.dialect :=
      hcolumn _ _
    exact wellFormed_grouped t hc (wellFormed_pair (t.wellFormed_bucket _ _) hvalue _ _)
      hone hone _ _
  | topList metric dimension limit order =>
    have hvalue : (Expr.aggregate .sum (t.column .numeric metric)).WellFormed t.dialect :=
      hcolumn _ _
    exact wellFormed_grouped t hc (wellFormed_pair (hcolumn _ _) hvalue _ _) hone htwo _ _
  | distribution metric dimension =>
    have hvalue : (if countsRows metric then Expr.countRows
        else .aggregate .sum (t.column .numeric metric)).WellFormed t.dialect := by
      split_ifs
      · trivial
      · exact hcolumn _ _
    exact wellFormed_grouped t hc (wellFormed_pair (hcolumn _ _) hvalue _ _) hone htwo _ _
  | compare metric date period =>
    refine ⟨?_, wellFormed_comparison _⟩
    rintro c ⟨⟩
    have hstats : Token.isWord "period_stats".toList = true := by decide
    have htotal : (Expr.aggregate .sum (t.column .numeric metric)).WellFormed t.dialect :=
      hcolumn _ _
    refine ⟨hstats, ⟨?_, t.wellFormed_source, hc, ?_, nofun⟩⟩
    · exact wellFormed_pair (t.wellFormed_bucket _ _) htotal _ _
    · rintro e ⟨⟩
      exact hone
  | cohort date metric interval =>
    exact wellFormed_grouped t hc (wellFormed_pair (t.wellFormed_bucket _ _) hcount _ _)
      hone hone _ _

theorem wellFormed_direct {t : Target} {schema : Schema} (hd : t.dialect = .directColumn)
    (a : Analysis) (fs : List Filter) :
    (a.query t schema (t.conditions fs)).WellFormed .directColumn :=
  hd ▸ wellFormed_query t schema (t.wellFormed_conditions fs) a

end Analysis

namespace Intent

variable {t : Target} {schema : Schema} {i : Intent}

theorem query_wellFormed {q : Query} (h : i.query t schema = .ok q) : q.WellFormed t.dialect := by
  unfold query at h
  split at h
  · cases h
  · split at h
    · cases h
    · cases h
      exact Analysis.wellFormed_query t schema (t.wellFormed_conditions _) _

/-- The text of an intent is split into the tokens of its query, up to the first one that cannot be
read. -/
theorem lex_compile {text : String} (h : i.compile t schema = .ok text) :
    ∃ q, i.query t schema = .ok q ∧ text = q.text ∧
      Token.lex text = q.tokens.foldr Token.seen [] := by
  obtain ⟨q, hq, rfl⟩ := map_eq_ok.1 h
  exact ⟨q, hq, rfl, Query.lex_text (query_wellFormed hq)⟩

end Intent

end TableTalk
