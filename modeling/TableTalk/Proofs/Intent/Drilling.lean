import TableTalk.Proofs.Intent.Running
import TableTalk.Proofs.Store.Drilling

/-!
# Drilling down into a group

The records of a group under a text are those that a filter for this text keeps, so the value of the
group is the one that the same aggregate has without the grouping and with this filter besides
(`Intent.execute_drilled`).
-/

namespace TableTalk

open Sql

namespace Scope

variable {first : Row} {c : String}

/-- A column of the first row holds cells of one type. -/
theorem exists_cell (h : c ∈ first.keys) (rest : List Row) (name : String) :
    ∃ k type, (ofRows (first :: rest)).ref? c = some (.cell k (some type)) ∧
      ∀ x ∈ (Table.ofRows name (first :: rest)).numbered,
        type.Holds ((Ref.cell k (some type)).read (some x)) := by
  have hname : ∃ d ∈ Table.columnsOf (first :: rest), Text.sameAscii d.name c = true := by
    obtain ⟨p, hp, rfl⟩ := List.mem_map.1 h
    exact ⟨_, List.mem_map_of_mem hp, Text.sameAscii_refl _⟩
  obtain ⟨r, hr⟩ := Option.isSome_iff_exists.1 ((column?_isSome_iff c 0 _).2 hname)
  obtain ⟨k, column, hk, -, rfl⟩ := column?_eq_some hr
  obtain ⟨type, htype⟩ : ∃ type, column.type = some type := by
    obtain ⟨p, -, rfl⟩ := List.mem_map.1 (List.mem_of_getElem? hk)
    exact ⟨_, rfl⟩
  rw [htype, Nat.zero_add] at hr
  refine ⟨k, type, by simp [ofRows, ref?, hr], fun x hx => ?_⟩
  obtain ⟨n, hn, rfl⟩ := List.mem_mapIdx.1 hx
  obtain ⟨row, -, hrow⟩ := List.mem_map.1 (List.getElem_mem hn)
  have hcell : ((Table.ofRows name (first :: rest)).records[n])[k]? =
      some (type.store (Cell.ofJson (row.get? column.name))) := by
    rw [← hrow, Table.record, List.getElem?_map, hk, Option.map_some, htype]
  rw [Ref.read, hcell]
  exact Declared.holds_store type _

end Scope

theorem Analysis.aggregate_ne_compare {metric : String} {function : AggregateFunction}
    {groupBy : Option String} : (aggregate metric function groupBy).kind ≠ .compare := nofun

theorem Row.get?_group (x y : Json) :
    (ofMembers [("group", x), ("value", y)]).get? "group" = some x := by
  simp [get?, ofMembers, setMembers, setMember]

theorem Row.get?_value (x y : Json) :
    (ofMembers [("group", x), ("value", y)]).get? "value" = some y := by
  simp [get?, ofMembers, setMembers, setMember, List.lookup_cons]

namespace Intent

variable {t : Target} {schema : Schema} {rows : List Row} {s : Store} {text : String}

/-- The rows that the text of a query gives, unless it compares. -/
theorem executeOnce_eq_ok {a : Analysis} {fs : List Filter} {out : List Row}
    (hd : t.dialect = .directColumn) (hload : Store.empty.load t.source.text rows = .ok s)
    (ha : a.kind ≠ .compare) :
    Store.executeOnce t.source.text rows (a.query t schema (t.conditions fs)).text = .ok out ↔
      (∀ u ∈ (a.query t schema (t.conditions fs)).tokens, u.broken = false) ∧
        Select.joined 0 (t.conditions fs) ≤ Select.depthLimit ∧
        ∃ p cells, (Scope.ofRows rows).plan (a.data t schema (t.conditions fs)) = .ok p ∧
          p.run (Table.ofRows t.source.text rows).numbered = .ok cells ∧
          out = (⟨"", p.columns, cells⟩ : Table).rows := by
  rw [executeOnce_query hd, and_iff_right ⟨s, hload⟩]
  simp only [Analysis.finish, ha, if_false, false_implies, true_and, Except.ok.injEq]
  refine and_congr_right fun _ => and_congr_right fun _ => ?_
  constructor
  · rintro ⟨p, cells, u, hp, hcells, rfl, hout⟩
    exact ⟨p, cells, hp, hcells, hout.symm⟩
  · rintro ⟨p, cells, hp, hcells, hout⟩
    exact ⟨p, cells, _, hp, hcells, rfl, hout.symm⟩

/-- The query without the grouping and with one filter more is closed where the other one is. -/
theorem unbroken_drilled (hd : t.dialect = .directColumn) {metric group label : String}
    {function : AggregateFunction} {before after : List Filter} (hclean : Clean label)
    (h : ∀ u ∈ ((Analysis.aggregate metric function (some group)).query t schema
      (t.conditions (before ++ after))).tokens, u.broken = false) :
    ∀ u ∈ ((Analysis.aggregate metric function none).query t schema
      (t.conditions (before ++ ⟨group, .eq, .text label⟩ :: after))).tokens, u.broken = false := by
  rw [unbroken_iff, Analysis.literals_query rfl] at h ⊢
  have hextra : Sql.literals (tokensOf (t.condition ⟨group, .eq, .text label⟩).pieces) =
      [t.columnToken group, .text label] := Target.literals_condition (by simp)
  simp only [Analysis.literals, Target.conditions_direct hd, List.map_append, List.map_cons,
    List.flatMap_append, List.flatMap_cons, hextra, List.forall_mem_append, List.forall_mem_cons]
    at h ⊢
  obtain ⟨⟨⟨hgroup, -⟩, ⟨hvalue, hbefore, hafter⟩⟩, -⟩ := h
  exact ⟨hvalue, hbefore, ⟨hgroup, broken_text hclean, by simp⟩, hafter⟩

theorem compile_drilled {metric group : String} {function : AggregateFunction}
    {before after : List Filter} {c : Float} {r : String} (label : String)
    (h : (analyze (.aggregate metric function (some group)) (before ++ after) c r).compile t schema =
      .ok text) :
    (analyze (.aggregate metric function none) (before ++ ⟨group, .eq, .text label⟩ :: after) c
        r).compile t schema =
      .ok ((Analysis.aggregate metric function none).query t schema
        (t.conditions (before ++ ⟨group, .eq, .text label⟩ :: after))).text := by
  obtain ⟨q, hq, -⟩ := map_eq_ok.1 h
  obtain ⟨hcolumns, -⟩ := query_eq_ok.1 hq
  refine map_eq_ok.2 ⟨_, query_eq_ok.2 ⟨fun d hd => hcolumns d ?_, rfl⟩, rfl⟩
  simp only [Analysis.checkedColumns, List.map_append, List.map_cons, Option.toList_none,
    Option.toList_some] at hd ⊢
  split_ifs at hd ⊢ <;> grind

section Drilled

variable {metric group label : String} {function : AggregateFunction} {before after : List Filter}
  {c : Float} {r : String}

/-- The drilled query gives one row with the value of the group, if its conditions are not too
deep. -/
theorem execute_value {out : List Row} {row : Row} (hd : t.dialect = .directColumn)
    (hload : Store.empty.load t.source.text rows = .ok s)
    (hkeys : ∀ d ∈ (analyze (.aggregate metric function (some group)) (before ++ after) c
      r).readColumns schema, ∃ first ∈ rows.head?, d ∈ first.keys)
    (hout : Store.executeOnce t.source.text rows ((Analysis.aggregate metric function
      (some group)).query t schema (t.conditions (before ++ after))).text = .ok out)
    (hrow : row ∈ out) (hgroup : row.get? "group" = some (.str label)) (hclean : Clean label)
    (hdepth : Select.joined 0 (t.conditions (before ++ ⟨group, .eq, .text label⟩ :: after)) ≤
      Select.depthLimit) :
    ∃ v, row.get? "value" = some v ∧
      Store.executeOnce t.source.text rows ((Analysis.aggregate metric function none).query t schema
        (t.conditions (before ++ ⟨group, .eq, .text label⟩ :: after))).text =
          .ok [Row.ofMembers [("value", v)]] := by
  obtain ⟨hunbroken, -, p, cells, hp, hcells, rfl⟩ :=
    (executeOnce_eq_ok hd hload Analysis.aggregate_ne_compare).1 hout
  have hcolumn : group ∈ (analyze (.aggregate metric function (some group)) (before ++ after) c
      r).readColumns schema := by
    rw [readColumns, Analysis.itemColumns]
    split_ifs <;> simp
  obtain ⟨first, hfirst, hkey⟩ := hkeys group hcolumn
  obtain ⟨rest, rfl⟩ := List.head?_eq_some_iff.1 hfirst
  obtain ⟨k, type, href, hholds⟩ := Scope.exists_cell hkey rest t.source.text
  have hnames : ∀ f ∈ before ++ after, (Scope.ofRows (first :: rest)).Names f.column :=
    fun f hf => by
      have hread := hkeys f.column (List.mem_append_right _ (List.mem_map_of_mem hf))
      obtain ⟨_, ⟨⟩, hmem⟩ := hread
      exact Scope.names_ofRows.2 (Row.answers_of_mem hmem)
  obtain ⟨e, cb, ca, hconditions, hkeyed, hitems, hcolumns, hagg, hplan⟩ :=
    Scope.plan_drilled hd href hnames hp label
  obtain ⟨record, hrecord, hrow⟩ := List.mem_map.1 hrow
  obtain ⟨-, key, v, -, rfl, hkey, -⟩ := Plan.exists_key hkeyed hitems hholds hcells hrecord
  simp only [hcolumns] at hrow
  have hrow : row = Row.ofMembers [("group", Table.value ⟨"group", some type⟩ key),
      ("value", Table.value ⟨"value", e.type?⟩ v)] := hrow.symm
  have hlabel : Table.value ⟨"group", some type⟩ key = .str label := by
    rw [hrow, Row.get?_group] at hgroup
    exact Option.some.inj hgroup
  have hkey := Table.eq_text_of_value hkey hlabel
  rw [hkey] at hrecord
  have hrun : Plan.run ⟨[⟨"value", e.type?⟩], [e],
      cb ++ .compare .eq (.column (.cell k (some type))) (.text label) :: ca, none, none, none⟩
      (Table.ofRows t.source.text (first :: rest)).numbered = .ok [[v]] :=
    Plan.run_drilled hconditions rfl hkeyed hitems rfl rfl rfl rfl hagg rfl hholds hcells hrecord
  refine ⟨_, by rw [hrow, Row.get?_value], ?_⟩
  exact (executeOnce_eq_ok hd hload Analysis.aggregate_ne_compare).2
    ⟨unbroken_drilled hd hclean hunbroken, hdepth, _, _, hplan, hrun, rfl⟩

/-- A query that is closed is refused if its conditions are too deep. -/
theorem execute_deep {a : Analysis} {fs : List Filter} (hd : t.dialect = .directColumn)
    (hload : Store.empty.load t.source.text rows = .ok s)
    (hclosed : ∀ u ∈ (a.query t schema (t.conditions fs)).tokens, u.broken = false)
    (hdepth : Select.depthLimit < Select.joined 0 (t.conditions fs)) :
    Store.executeOnce t.source.text rows (a.query t schema (t.conditions fs)).text =
      .error (.refused .tooDeep) := by
  rw [Store.executeOnce, hload, bind_ok]
  exact Store.execute_tooDeep (a.wellFormed_direct hd fs) hclosed fun hfits =>
    Nat.not_le.2 hdepth ((Analysis.fits_query a).1 hfits)

/-- The value of a group under a text, without the grouping: a filter for the text, wherever it
stands, gives one row with this value, unless it makes the tree of conditions too deep. -/
theorem execute_drilled {out : List Row} {row : Row} (hd : t.dialect = .directColumn)
    (hload : Store.empty.load t.source.text rows = .ok s)
    (h : (analyze (.aggregate metric function (some group)) (before ++ after) c r).compile t schema =
      .ok text)
    (hkeys : ∀ d ∈ (analyze (.aggregate metric function (some group)) (before ++ after) c
      r).readColumns schema, ∃ first ∈ rows.head?, d ∈ first.keys)
    (hout : Store.executeOnce t.source.text rows text = .ok out) (hrow : row ∈ out)
    (hgroup : row.get? "group" = some (.str label)) (hclean : Clean label) :
    ∃ drilled, (analyze (.aggregate metric function none) (before ++ ⟨group, .eq, .text label⟩ ::
        after) c r).compile t schema = .ok drilled ∧
      (Select.joined 0 (t.conditions (before ++ ⟨group, .eq, .text label⟩ :: after)) ≤
          Select.depthLimit →
        ∃ v, row.get? "value" = some v ∧
          Store.executeOnce t.source.text rows drilled = .ok [Row.ofMembers [("value", v)]]) ∧
      (Select.depthLimit <
          Select.joined 0 (t.conditions (before ++ ⟨group, .eq, .text label⟩ :: after)) →
        Store.executeOnce t.source.text rows drilled = .error (.refused .tooDeep)) := by
  have hdrilled := compile_drilled label h
  obtain ⟨q, hq, rfl⟩ := map_eq_ok.1 h
  obtain ⟨-, rfl⟩ := query_eq_ok.1 hq
  have hunbroken := ((executeOnce_eq_ok hd hload Analysis.aggregate_ne_compare).1 hout).1
  exact ⟨_, hdrilled, execute_value hd hload hkeys hout hrow hgroup hclean,
    execute_deep hd hload (unbroken_drilled hd hclean hunbroken)⟩

end Drilled

end Intent

/-- One condition again and again makes a tree one level deeper each time. -/
theorem Sql.Select.joined_replicate {e : Expr Name} : ∀ {n depth : Nat}, e.height ≤ depth →
    0 < depth → joined depth (List.replicate n e) = depth + n
  | 0, _, _, _ => rfl
  | n + 1, depth, he, hd => by
    have hjoin : joinedDepth depth e.height = depth + 1 := by
      unfold joinedDepth
      rw [if_neg (by omega)]
      omega
    have hlist : joined depth (List.replicate (n + 1) e) =
        joined (joinedDepth depth e.height) (List.replicate n e) := rfl
    rw [hlist, hjoin, joined_replicate (by omega) (by omega)]
    omega

theorem mapM_replicate_ok {ε α β : Type} {f : α → Except ε β} {x : α} {y : β} (h : f x = .ok y) :
    ∀ n, (List.replicate n x).mapM f = .ok (List.replicate n y)
  | 0 => rfl
  | n + 1 => mapM_cons_eq_ok.2 ⟨y, _, h, mapM_replicate_ok h n, rfl⟩

theorem Sql.Expr.allHold_replicate {x : Record} {e : Expr Ref} {c : Cell}
    (h : e.evaluate (.single x) = .ok c) (hc : c.holds = true) :
    ∀ n, allHold x (List.replicate n e) = .ok true
  | 0 => rfl
  | n + 1 => by
    rw [List.replicate_succ, allHold, h, bind_ok, if_pos hc, allHold_replicate h hc n]

namespace Intent

/-- The rows of a table with one cell. -/
def lone : List Row := [⟨[("p", .str "A")], by decide⟩]

/-- Its group, however often it is filtered for its text. -/
def repeated (n : Nat) : Intent :=
  .analyze (.aggregate "p" .count (some "p")) (List.replicate n ⟨"p", .eq, .text "A"⟩) 1 ""

theorem joined_repeated (n : Nat) : Select.joined 0 (Target.conditions ⟨.directColumn, none, none⟩
    (List.replicate (n + 1) ⟨"p", .eq, .text "A"⟩)) = n + 2 := by
  rw [Target.conditions_direct rfl, List.map_replicate]
  refine (Select.joined_replicate (n := n) (by decide) (show 0 < 2 by decide)).trans ?_
  omega

theorem query_repeated (n : Nat) :
    (repeated n).query ⟨.directColumn, none, none⟩ (Profile.ofRows lone) =
      .ok ((Analysis.aggregate "p" .count (some "p")).query ⟨.directColumn, none, none⟩
        (Profile.ofRows lone) (Target.conditions ⟨.directColumn, none, none⟩
          (List.replicate n ⟨"p", .eq, .text "A"⟩))) := by
  have hchecked : Analysis.checkedColumns (Profile.ofRows lone)
      (.aggregate "p" .count (some "p")) = ["p", "p"] := by decide
  refine query_eq_ok.2 ⟨fun d hd => ?_, rfl⟩
  have hp : d = "p" := by
    rw [hchecked, List.map_replicate, List.mem_append, List.mem_replicate] at hd
    rcases hd with hd | hd
    · simpa using hd
    · exact hd.2
  rw [hp]
  decide

theorem clean_repeated (n : Nat) :
    ∀ s ∈ (repeated n).texts ⟨.directColumn, none, none⟩, Clean s := by
  have hp : Clean "p" := by decide
  have hA : Clean "A" := by decide
  intro s hs
  simp only [texts, repeated, columns, filters, Analysis.columns, List.map_replicate,
    List.mem_append, List.mem_filterMap, List.mem_replicate] at hs
  rcases hs with (hs | hs | hs) | ⟨g, ⟨-, rfl⟩, hg⟩
  · rcases hs with hs | hs <;> cases hs
  · have hs : s = "p" := by simpa using hs
    exact hs ▸ hp
  · exact hs.2 ▸ hp
  · cases hg
    exact hA

theorem plan_repeated (n : Nat) : (Scope.ofRows lone).plan
    ((Analysis.aggregate "p" .count (some "p")).data ⟨.directColumn, none, none⟩
      (Profile.ofRows lone) (Target.conditions ⟨.directColumn, none, none⟩
        (List.replicate n ⟨"p", .eq, .text "A"⟩))) =
    .ok ⟨[⟨"group", some .varchar⟩, ⟨"value", none⟩],
      [.column (.cell 0 (some .varchar)), .aggregate .count (.column (.cell 0 (some .varchar)))],
      List.replicate n (.compare .eq (.column (.cell 0 (some .varchar))) (.text "A")),
      some (.column (.cell 0 (some .varchar))),
      some (.aggregate .count (.column (.cell 0 (some .varchar))), .desc), some 100⟩ := by
  let e : Expr Ref := .column (.cell 0 (some .varchar))
  have hlabel : ∀ items, (Scope.ofRows lone).resolve items
      (Target.condition ⟨.directColumn, none, none⟩ ⟨"p", .eq, .text "A"⟩) =
        .ok (.compare .eq e (.text "A")) := fun items => Scope.resolve_label rfl rfl items "A"
  rw [Target.conditions_direct rfl, List.map_replicate]
  refine Scope.plan_eq_ok.2 ⟨[(some "group", ⟨"group", some .varchar⟩, e),
    (some "value", ⟨"value", none⟩, .aggregate .count e)], _, _, _, rfl,
    mapM_replicate_ok (hlabel _) n, rfl, rfl, fun d hd => ?_, rfl⟩
  rw [(List.mem_replicate.1 hd).2]
  rfl

theorem execute_repeated {n : Nat} (hn : n ≤ 999) (hload : Store.empty.load defaultTable lone = .ok s) :
    ∃ text, (repeated n).compile ⟨.directColumn, none, none⟩ (Profile.ofRows lone) = .ok text ∧
      Store.executeOnce defaultTable lone text =
        .ok [Row.ofMembers [("group", .str "A"), ("value", .int 1)]] := by
  have hnumbers : ∀ f ∈ (repeated n).filters, ∀ x, f.value = .number x → x.isFinite = true := by
    rintro f hf x hx
    rw [(List.mem_replicate.1 hf).2] at hx
    cases hx
  have hdepth : Select.joined 0 (Target.conditions ⟨.directColumn, none, none⟩
      (List.replicate n ⟨"p", .eq, .text "A"⟩)) ≤ Select.depthLimit := by
    cases n with
    | zero => exact Nat.zero_le _
    | succ n =>
      rw [joined_repeated, Select.depthLimit]
      omega
  have hrun := Plan.run_single (x := ⟨1, [.text "A"]⟩) (n := 99)
    (Expr.allHold_replicate (e := .compare .eq (.column (.cell 0 (some .varchar))) (.text "A")) rfl
      (by decide) n)
    (p := ⟨[⟨"group", some .varchar⟩, ⟨"value", none⟩], [.column (.cell 0 (some .varchar)),
      .aggregate .count (.column (.cell 0 (some .varchar)))], _,
      some (.column (.cell 0 (some .varchar))),
      some (.aggregate .count (.column (.cell 0 (some .varchar))), .desc), some 100⟩)
    rfl rfl (by decide) rfl rfl rfl
  refine ⟨_, map_eq_ok.2 ⟨_, query_repeated n, rfl⟩, ?_⟩
  exact (executeOnce_eq_ok (t := ⟨.directColumn, none, none⟩) rfl hload
    Analysis.aggregate_ne_compare).2 ⟨unbroken_tokens (query_repeated n) hnumbers (clean_repeated n),
      hdepth, _, _, plan_repeated n, hrun, rfl⟩

theorem keys_repeated (n : Nat) : ∀ d ∈ (repeated n).readColumns (Profile.ofRows lone),
    ∃ first ∈ lone.head?, d ∈ first.keys := by
  have hitems : Analysis.itemColumns (Profile.ofRows lone) (.aggregate "p" .count (some "p")) =
      ["p", "p"] := by decide
  intro d hd
  rw [repeated, readColumns, hitems, List.map_replicate, List.mem_append, List.mem_replicate] at hd
  have hp : d = "p" := by
    rcases hd with hd | hd
    · simpa using hd
    · exact hd.2
  exact ⟨_, rfl, hp ▸ List.mem_cons_self⟩

theorem load_lone : ∃ s, Store.empty.load defaultTable lone = .ok s :=
  Store.load_default (by decide)

/-- With one filter for it already, another one gives the same count. -/
theorem execute_drilled_lone : ∃ text drilled,
    (repeated 1).compile ⟨.directColumn, none, none⟩ (Profile.ofRows lone) = .ok text ∧
      Store.executeOnce defaultTable lone text =
        .ok [Row.ofMembers [("group", .str "A"), ("value", .int 1)]] ∧
      (analyze (.aggregate "p" .count none) (List.replicate 2 ⟨"p", .eq, .text "A"⟩) 1 "").compile
        ⟨.directColumn, none, none⟩ (Profile.ofRows lone) = .ok drilled ∧
      Store.executeOnce defaultTable lone drilled = .ok [Row.ofMembers [("value", .int 1)]] := by
  obtain ⟨s, hload⟩ := load_lone
  obtain ⟨text, htext, hout⟩ := execute_repeated (n := 1) (by decide) hload
  have hgroup : (Row.ofMembers [("group", .str "A"), ("value", .int 1)]).get? "group" =
      some (.str "A") := Row.get?_group _ _
  have htext' : (analyze (.aggregate "p" .count (some "p"))
      ([] ++ [⟨"p", .eq, .text "A"⟩]) 1 "").compile ⟨.directColumn, none, none⟩
      (Profile.ofRows lone) = .ok text := htext
  obtain ⟨drilled, hdrilled, hvalue, -⟩ := execute_drilled (t := ⟨.directColumn, none, none⟩) rfl
    hload htext' (keys_repeated 1) hout List.mem_cons_self hgroup (by decide)
  obtain ⟨v, hv, hrows⟩ := hvalue (by decide)
  rw [Row.get?_value] at hv
  cases hv
  exact ⟨text, drilled, htext, hout, hdrilled, hrows⟩

/-- A thousand filters are one too many. -/
theorem execute_drilled_deep : ∃ s text drilled row,
    Store.empty.load defaultTable lone = .ok s ∧
      (repeated 999).compile ⟨.directColumn, none, none⟩ (Profile.ofRows lone) = .ok text ∧
      (∀ d ∈ (repeated 999).readColumns (Profile.ofRows lone),
        ∃ first ∈ lone.head?, d ∈ first.keys) ∧
      Store.executeOnce defaultTable lone text = .ok [row] ∧
      row.get? "group" = some (.str "A") ∧
      (analyze (.aggregate "p" .count none) (List.replicate 1000 ⟨"p", .eq, .text "A"⟩) 1
        "").compile ⟨.directColumn, none, none⟩ (Profile.ofRows lone) = .ok drilled ∧
      ¬∃ out, Store.executeOnce defaultTable lone drilled = .ok out := by
  let t : Target := ⟨.directColumn, none, none⟩
  let fs : List Filter := List.replicate 999 ⟨"p", .eq, .text "A"⟩
  obtain ⟨s, hload⟩ := load_lone
  obtain ⟨text, htext, hout⟩ := execute_repeated (n := 999) (by decide) hload
  have hfilters : (repeated 999).compile t (Profile.ofRows lone) =
      (analyze (.aggregate "p" .count (some "p")) ([] ++ fs) 1 "").compile t
        (Profile.ofRows lone) := rfl
  have hdrilled := compile_drilled "A" (hfilters.symm.trans htext)
  obtain ⟨q, hq, rfl⟩ := map_eq_ok.1 htext
  obtain ⟨-, rfl⟩ := query_eq_ok.1 hq
  have hunbroken := ((executeOnce_eq_ok (t := t) rfl hload Analysis.aggregate_ne_compare).1 hout).1
  have hclosed : ∀ u ∈ ((Analysis.aggregate "p" .count none).query t (Profile.ofRows lone)
      (t.conditions ([] ++ ⟨"p", .eq, .text "A"⟩ :: fs))).tokens, u.broken = false :=
    unbroken_drilled rfl (by decide) hunbroken
  have hdepth : Select.depthLimit < Select.joined 0 (t.conditions (⟨"p", .eq, .text "A"⟩ :: fs)) := by
    have hjoined : Select.joined 0 (t.conditions (⟨"p", .eq, .text "A"⟩ :: fs)) = 1001 :=
      joined_repeated 999
    rw [hjoined]
    decide
  have hdeep := execute_deep (t := t) rfl hload hclosed hdepth
  refine ⟨s, _, _, _, hload, htext, keys_repeated 999, hout, rfl, hdrilled, ?_⟩
  rintro ⟨out, h⟩
  have herror : Except.ok out = .error _ := h.symm.trans hdeep
  cases herror

end Intent

end TableTalk
