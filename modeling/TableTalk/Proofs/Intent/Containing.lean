import TableTalk.Proofs.Intent.Insertion
import TableTalk.Proofs.Store.Patterns

/-!
# Texts that have a part

A value that a text is asked to contain becomes a pattern, so it stands for more than itself: a
percent sign in it for any characters, and an underscore for any one. A filter keeps the texts that
have a part for which the value stands in this way (`Text.HasPart`, `Intent.execute_containing`). A
text with the value itself in it is always one of them, and it is the only kind if the value has
neither sign.
-/

namespace TableTalk

open Sql

namespace Text

/-- Whether a text has a part that a value stands for as a pattern. -/
def HasPart (value s : String) : Prop := ∃ part, part <:+: s.toList ∧ Fits value.toList part

/-- Whether a text has a value in it, in whatever case its letters are. -/
def HasCased (value s : String) : Prop :=
  value.toList.map Char.toLower <:+: s.toList.map Char.toLower

instance (value s : String) : Decidable (HasCased value s) :=
  inferInstanceAs (Decidable (_ <:+: _))

variable {value s : String}

theorem hasCased_iff : HasCased value s ↔
    ∃ part, part <:+: s.toList ∧ value.toList.map Char.toLower = part.map Char.toLower := by
  constructor
  · rintro ⟨front, back, h⟩
    obtain ⟨most, ends, hs, hmost, -⟩ := List.map_eq_append_iff.1 h.symm
    obtain ⟨begins, part, hpart, -, hvalue⟩ := List.map_eq_append_iff.1 hmost
    exact ⟨part, ⟨begins, ends, by rw [← hpart, hs]⟩, hvalue.symm⟩
  · rintro ⟨part, ⟨front, back, hs⟩, hvalue⟩
    refine ⟨front.map Char.toLower, back.map Char.toLower, ?_⟩
    rw [hvalue, ← hs, List.map_append, List.map_append]

theorem HasCased.hasPart (h : HasCased value s) : HasPart value s := by
  obtain ⟨part, hpart, hvalue⟩ := hasCased_iff.1 h
  exact ⟨part, hpart, Fits.of_map_eq hvalue⟩

theorem hasPart_iff (hpercent : '%' ∉ value.toList) (hany : '_' ∉ value.toList) :
    HasPart value s ↔ HasCased value s := by
  rw [hasCased_iff]
  exact exists_congr fun part => and_congr_right fun _ => Fits.plain_iff hpercent hany

theorem hasPart_iff_fits (value s : String) :
    HasPart value s ↔ Fits ("%" ++ value ++ "%").toList s.toList := by
  have hpattern : ("%" ++ value ++ "%").toList = '%' :: (value.toList ++ ['%']) := by
    rw [String.toList_append, String.toList_append]
    rfl
  rw [hpattern, Fits.between_iff]
  constructor
  · rintro ⟨part, ⟨front, back, hs⟩, h⟩
    exact ⟨front, part, back, hs.symm, h⟩
  · rintro ⟨front, part, back, hs, h⟩
    exact ⟨part, ⟨front, back, hs.symm⟩, h⟩

end Text

open Text

theorem Filter.holds_contains {type : Option Declared} {column value s : String}
    (hvalue : Clean value) (hs : Clean s) :
    (⟨column, .contains, .text value⟩ : Filter).holds type (.text s) = true ↔
      HasPart value s := by
  have hpercent : Clean "%" := by decide
  rw [hasPart_iff_fits, ← Cell.like_lower_iff hs ((hpercent.append hvalue).append hpercent)]
  exact decide_eq_true_iff

/-- What a filter that asks for a value keeps of some records: those whose text has such a part, as
far as their rows have a text. -/
def Row.KeepsParts (first : Row) (rest : List Row) (column value : String)
    (base kept : List Record) : Prop :=
  kept.Sublist base ∧ ∀ n row s, row.get? column = some (.str s) → Clean s →
    ⟨n, Table.record (Table.columnsOf (first :: rest)) row⟩ ∈ base →
      (⟨n, Table.record (Table.columnsOf (first :: rest)) row⟩ ∈ kept ↔ HasPart value s)

namespace Intent

variable {t : Target} {a : Analysis} {first : Row} {rest out : List Row}
  {before after : List Filter} {c : Float} {r text column value head : String}

theorem exists_counted (hd : t.dialect = .directColumn)
    (hload : ∃ s, Store.empty.load t.source.text (first :: rest) = .ok s)
    (hcolumn : column ∈ first.keys) (c : Float) (r : String) : ∃ text out,
    (analyze (.aggregate column .count none) [] c r).compile t (Profile.ofRows (first :: rest)) =
      .ok text ∧ Store.executeOnce t.source.text (first :: rest) text = .ok out := by
  have hchecked : ∀ d ∈ (Analysis.aggregate column .count none).checkedColumns
      (Profile.ofRows (first :: rest)), d = column := fun d hd => by
    simpa [Analysis.columns] using Analysis.checkedColumns_subset _ _ d hd
  have hitems : ∀ d ∈ (Analysis.aggregate column .count none).itemColumns
      (Profile.ofRows (first :: rest)), d = column := fun d hd =>
    hchecked d (Analysis.itemColumns_subset _ _ d hd)
  have hnone : t.conditions [] = [] := Target.conditions_direct hd []
  obtain ⟨hname, hkeys⟩ := Store.clean_of_load hload
  obtain ⟨s, hload⟩ := hload
  have hquery : (analyze (.aggregate column .count none) [] c r).query t
      (Profile.ofRows (first :: rest)) = .ok _ := query_eq_ok.2 ⟨fun d hd => by
    rw [List.map_nil, List.append_nil] at hd
    rw [hchecked d hd]
    exact Profile.contains_ofRows.2 ⟨first, List.mem_cons_self, hcolumn⟩, rfl⟩
  have hclosed : ∀ u ∈ ((Analysis.aggregate column .count none).query t
      (Profile.ofRows (first :: rest)) (t.conditions [])).tokens, u.broken = false := by
    refine unbroken_query.2 ⟨broken_name hname, fun d hd' => ?_, by simp [hnone]⟩
    rw [hitems d hd', Target.columnToken, hd]
    exact broken_name (hkeys first rfl column hcolumn)
  have hbinds : (Scope.ofRows (first :: rest)).Binds t (Profile.ofRows (first :: rest))
      (.aggregate column .count none) [] :=
    ⟨fun d hd' => hitems d hd' ▸ Scope.names_ofRows.2 (Row.answers_of_mem hcolumn),
      List.forall_mem_nil _⟩
  obtain ⟨p, hp, hsafe⟩ := Scope.exists_plan (P := fun _ => True) hd hbinds
    (List.forall_mem_nil _) (List.forall_mem_nil _) (by rintro c ⟨⟩)
  obtain ⟨cells, hcells⟩ := Plan.run_isOk hsafe fun _ _ => trivial
  obtain ⟨out, hout⟩ := (executeOnce_isOk_iff hd hload).2
    ⟨hclosed, by simp [hnone, Select.joined], by rintro ⟨⟩, p, cells, hp, hcells⟩
  exact ⟨_, out, map_eq_ok.2 ⟨_, hquery, rfl⟩, hout⟩

section Kept

variable (hd : t.dialect = .directColumn) (hcolumn : first.get? column = some (.str head))
  (hvalue : Clean value)
  (hpattern : ("%" ++ value ++ "%").utf8ByteSize ≤ Cell.patternLimit)

include hd hcolumn hvalue hpattern

/-- A query that runs does so with the filter, too, and keeps such texts. -/
theorem execute_part
    (h : (analyze a (before ++ after) c r).compile t (Profile.ofRows (first :: rest)) = .ok text)
    (hout : Store.executeOnce t.source.text (first :: rest) text = .ok out) :
    ∃ base kept,
      a.kept t (Profile.ofRows (first :: rest)) (before ++ after) (first :: rest) = .ok base ∧
      a.kept t (Profile.ofRows (first :: rest))
        (before ++ ⟨column, .contains, .text value⟩ :: after) (first :: rest) = .ok kept ∧
      first.KeepsParts rest column value base kept ∧
      ∃ text', (analyze a (before ++ ⟨column, .contains, .text value⟩ :: after) c r).compile t
          (Profile.ofRows (first :: rest)) = .ok text' ∧
        (Select.joined 0 (t.conditions (before ++ ⟨column, .contains, .text value⟩ :: after)) ≤
            Select.depthLimit →
          ∃ out', Store.executeOnce t.source.text (first :: rest) text' = .ok out' ∧
            a.summary t (Profile.ofRows (first :: rest)) (first :: rest) kept = .ok out') := by
  have hkey : column ∈ first.keys := Row.mem_keys_of_get? hcolumn
  obtain ⟨_, _, _, _, ⟨⟩, -, htext⟩ := exists_analyze h
  have hload := ((executeOnce_query hd a).1 (htext ▸ hout)).1
  obtain ⟨base, hbase, -⟩ := exists_summary hd (htext ▸ hout)
  have hclear : (⟨column, .contains, .text value⟩ : Filter).Clear first := ⟨hkey, nofun, nofun⟩
  obtain ⟨kept, hkept, hinsert, text', htext', hrun⟩ :=
    execute_insert hd h hout hbase hclear (by rintro _ ⟨⟩; exact hpattern)
  refine ⟨base, kept, hbase, hinsert, ⟨?_, fun n row s hcell hs hmem => ?_⟩, text', htext',
    hrun (by rintro _ ⟨⟩; exact hvalue)⟩
  · rw [hkept]
    exact List.filter_sublist
  · have hstored : (Scope.ofRows (first :: rest)).cell column
        ⟨n, Table.record (Table.columnsOf (first :: rest)) row⟩ = .text s := by
      rw [Scope.cell_ofRows hload hkey, Row.stored, hcolumn, hcell]
      rfl
    rw [hkept, List.mem_filter, and_iff_right hmem, hstored]
    exact Filter.holds_contains hvalue hs

/-- The texts that a filter keeps, alone and among others. -/
theorem execute_containing (hload : ∃ s, Store.empty.load t.source.text (first :: rest) = .ok s) :
    (∃ text kept out, (analyze (.aggregate column .count none)
        [⟨column, .contains, .text value⟩] c r).compile t (Profile.ofRows (first :: rest)) =
          .ok text ∧
      Store.executeOnce t.source.text (first :: rest) text = .ok out ∧
      (Analysis.aggregate column .count none).kept t (Profile.ofRows (first :: rest))
        [⟨column, .contains, .text value⟩] (first :: rest) = .ok kept ∧
      first.KeepsParts rest column value
        (Table.ofRows t.source.text (first :: rest)).numbered kept) ∧
    (∀ a before after c r text out,
      (analyze a (before ++ after) c r).compile t (Profile.ofRows (first :: rest)) = .ok text →
      Store.executeOnce t.source.text (first :: rest) text = .ok out →
      ∃ base kept,
        a.kept t (Profile.ofRows (first :: rest)) (before ++ after) (first :: rest) = .ok base ∧
        a.kept t (Profile.ofRows (first :: rest))
          (before ++ ⟨column, .contains, .text value⟩ :: after) (first :: rest) = .ok kept ∧
        first.KeepsParts rest column value base kept ∧
        ∃ text', (analyze a (before ++ ⟨column, .contains, .text value⟩ :: after) c r).compile t
            (Profile.ofRows (first :: rest)) = .ok text' ∧
          (Select.joined 0 (t.conditions (before ++ ⟨column, .contains, .text value⟩ :: after)) ≤
              Select.depthLimit →
            ∃ out', Store.executeOnce t.source.text (first :: rest) text' = .ok out' ∧
              a.summary t (Profile.ofRows (first :: rest)) (first :: rest) kept = .ok out')) ∧
    (∀ s, HasCased value s → HasPart value s) ∧
    ('%' ∉ value.toList → '_' ∉ value.toList → ∀ s, HasPart value s ↔ HasCased value s) := by
  refine ⟨?_, fun a before after c r text out => execute_part hd hcolumn hvalue hpattern,
    fun s => HasCased.hasPart, fun hpercent hany s => hasPart_iff hpercent hany⟩
  obtain ⟨text, out, htext, hout⟩ :=
    exists_counted hd hload (Row.mem_keys_of_get? hcolumn) c r
  have htext' : (analyze (.aggregate column .count none) ([] ++ []) c r).compile t
      (Profile.ofRows (first :: rest)) = .ok text := htext
  obtain ⟨base, kept, hbase, hkept, hparts, text', htext', hrun⟩ :=
    execute_part hd hcolumn hvalue hpattern htext' hout
  obtain rfl := kept_unfiltered hd hbase
  have hdepth : Select.joined 0 (t.conditions [⟨column, .contains, .text value⟩]) ≤
      Select.depthLimit := by
    rw [Target.conditions_direct hd]
    simp [Target.condition, Target.pattern, Target.column, hd, Select.joined, Select.joinedDepth,
      Expr.height, Select.depthLimit]
  obtain ⟨out', hout', -⟩ := hrun hdepth
  exact ⟨text', kept, out', htext', hout', hkept, hparts⟩

end Kept

/-- Two names, one of which starts with what is looked for in the other case. -/
def widgets : List Row := [⟨[("p", .str "Widget")], by decide⟩, ⟨[("p", .str "gadget")], by decide⟩]

/-- Of two names one has the three letters. -/
theorem execute_containing_widgets : ∃ text kept out,
    (analyze (.aggregate "p" .count none) [⟨"p", .contains, .text "WID"⟩] 1 "").compile
      ⟨.directColumn, none, none⟩ (Profile.ofRows widgets) = .ok text ∧
    Store.executeOnce defaultTable widgets text = .ok out ∧
    (Analysis.aggregate "p" .count none).kept ⟨.directColumn, none, none⟩ (Profile.ofRows widgets)
      [⟨"p", .contains, .text "WID"⟩] widgets = .ok kept ∧
    ⟨1, [.text "Widget"]⟩ ∈ kept ∧ ⟨2, [.text "gadget"]⟩ ∉ kept := by
  have hload : ∃ s, Store.empty.load defaultTable widgets = .ok s := Store.load_default (by decide)
  have hnumbered : (Table.ofRows defaultTable widgets).numbered =
      [⟨1, [.text "Widget"]⟩, ⟨2, [.text "gadget"]⟩] := rfl
  obtain ⟨⟨text, kept, out, htext, hout, hkept, -, hparts⟩, -, -, hplain⟩ :=
    execute_containing (t := ⟨.directColumn, none, none⟩) (c := 1) (r := "") rfl
      (show (⟨[("p", .str "Widget")], by decide⟩ : Row).get? "p" = some (.str "Widget") from rfl)
      (show Clean "WID" by decide) (by decide) hload
  have hplain := hplain (by decide) (by decide)
  refine ⟨text, kept, out, htext, hout, hkept, ?_, ?_⟩
  · refine (hparts 1 ⟨[("p", .str "Widget")], by decide⟩ "Widget" rfl (by decide) ?_).2
      ((hplain _).2 (by decide))
    exact List.mem_cons_self
  · refine fun hmem => absurd ((hplain _).1 ((hparts 2 ⟨[("p", .str "gadget")], by decide⟩ "gadget"
      rfl (by decide) ?_).1 hmem)) (by decide)
    exact List.mem_cons_of_mem _ List.mem_cons_self

/-- An underscore stands for any character, so it is found where there is none. -/
theorem execute_containing_sign : ∃ text,
    (analyze (.aggregate "*" .count none) [⟨"p", .contains, .text "_"⟩] 1 "").compile
      ⟨.directColumn, none, none⟩ (Profile.ofRows lone) = .ok text ∧
    Store.executeOnce defaultTable lone text = .ok [Row.ofMembers [("value", .int 1)]] ∧
    lone = [⟨[("p", .str "A")], by decide⟩] ∧ ¬HasCased "_" "A" := by
  obtain ⟨text, out, htext, hout⟩ := exists_unfiltered (a := .aggregate "*" .count none) load_lone
    (by decide +kernel) rfl (by decide) (by decide)
  have htext' : (analyze (.aggregate "*" .count none) ([] ++ []) 1 "").compile
      ⟨.directColumn, none, none⟩ (Profile.ofRows lone) = .ok text := htext
  have hvalue : Clean "_" := by decide
  have hcolumn : (⟨[("p", .str "A")], by decide⟩ : Row).get? "p" = some (.str "A") := rfl
  obtain ⟨base, kept, hbase, -, ⟨hsub, hparts⟩, text', htext', hrun⟩ :=
    execute_part (t := ⟨.directColumn, none, none⟩) rfl hcolumn hvalue (by decide) htext' hout
  obtain rfl := kept_unfiltered rfl hbase
  obtain ⟨out', hout', hsummary⟩ := hrun (by decide)
  rw [Analysis.summary_count (by decide), Except.ok.injEq] at hsummary
  have hpart : HasPart "_" "A" := ⟨['A'], List.infix_rfl, .any 'A' .nil⟩
  have hmem : ⟨1, [.text "A"]⟩ ∈ kept :=
    (hparts 1 ⟨[("p", .str "A")], by decide⟩ "A" rfl (by decide) List.mem_cons_self).2 hpart
  have hlength : kept.length = 1 :=
    Nat.le_antisymm hsub.length_le (List.length_pos_of_mem hmem)
  rw [hlength] at hsummary
  exact ⟨text', htext', hsummary ▸ hout', rfl, by decide⟩

end Intent

end TableTalk
