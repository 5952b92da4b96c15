import TableTalk.Proofs.Intent.Insertion
import TableTalk.Proofs.Store.Trichotomy

/-!
# Comparisons split the rows

With other filters around it, a comparison of a column with a value keeps each of their rows, or its
opposite does, unless the cell of the row reads as nothing beside the value
(`Intent.execute_trichotomy`). The value is one that no column of the table stands for.
-/

namespace TableTalk

open Sql Decimal

namespace Cell

theorem literal_spec {s : String} (h : Token.IsNumeral s.toList) :
    (literal s).isNumber = true ∧ (literal s).Genuine := by
  obtain ⟨n, hn⟩ : ∃ n, numericText? s.toList = some (false, n) := by
    obtain ⟨whole, rest, hs, hne, hwhole, rfl | ⟨fraction, rfl, hfraction⟩⟩ := h
    · have hdigits : Digits whole none [] := ⟨hwhole, nofun, nofun, nofun⟩
      exact ⟨_, hs ▸ numericText?_digits hdigits hne⟩
    · have hdigits : Digits whole (some fraction) [] :=
        ⟨hwhole, by rintro _ ⟨⟩; exact hfraction, nofun, nofun⟩
      exact ⟨_, hs ▸ numericText?_digits hdigits hne⟩
  obtain ⟨c, hc⟩ : ∃ c, numeric? s = some c := by
    rw [numeric?, hn]
    exact ⟨_, rfl⟩
  rw [literal, hc, Option.getD_some]
  exact ⟨isNumber_of_numeric? hc, genuine_of_numeric? hc⟩

end Cell

namespace FilterValue

variable {v : FilterValue} {c : Cell}

theorem cell_ne_null (h : ∀ x, v = number x → x.isFinite = true) : v.cell ≠ .null := by
  cases v with
  | bool b => cases b <;> rintro ⟨⟩
  | number x =>
    obtain ⟨hnumber, hgenuine⟩ := Cell.literal_spec (isNumeral_magnitudeText (h x rfl))
    rw [cell]
    split_ifs
    · exact Cell.negate_ne_null hnumber hgenuine
    · rintro hnull
      rw [hnull] at hnumber
      cases hnumber
  | text s => rintro ⟨⟩

/-- Whether a cell reads as nothing beside a value: a number goes with what can be cast to one. -/
def unread : FilterValue → Cell → Bool
  | number _, c => c.tryCastDouble.isNone
  | _, c => c == .null

theorem unread_iff (hc : c.Genuine) : v.unread c = true ↔ v.reading.cell c = .null := by
  cases v with
  | bool | text => exact beq_iff_eq
  | number x =>
    have hnumber : ∀ y ∈ c.tryCastDouble, y.isNaN = false := by
      cases c with
      | int n => rintro _ ⟨⟩; exact isNaN_ofInt n
      | real y => rintro _ ⟨⟩; exact hc y rfl
      | text s =>
        intro y hy
        exact isNaN_of_isFinite (Option.filter_eq_some_iff.1 hy).2
      | null | loose | blob => rintro _ ⟨⟩
    have hcell : (number x).reading.cell c = .ofFloat? c.tryCastDouble := rfl
    rw [hcell, unread]
    rcases hcast : c.tryCastDouble with _ | y
    · exact iff_of_true rfl rfl
    · rw [Cell.ofFloat?, Cell.ofFloat, hnumber y hcast]
      constructor <;> rintro ⟨⟩

end FilterValue

namespace Filter

variable {type : Option Declared} {column : String} {v : FilterValue} {c : Cell}

theorem holds_comparison {op : Operator} {k : Comparison} (h : op.comparison? = some k) :
    (⟨column, op, v⟩ : Filter).holds type c =
      (k.apply (if v.reading = .numeric then none else type) (v.reading.cell c) v.cell).holds := by
  cases op <;> cases h <;> rfl

/-- A cell reads as nothing beside a value, or it has one place in the order of the two. -/
theorem unread_or_order (type : Option Declared) (column : String) (hv : v.cell ≠ .null)
    (hc : c.Genuine) :
    (v.unread c = true ∧ ∀ op k, op.comparison? = some k →
      (⟨column, op, v⟩ : Filter).holds type c = false) ∨
    (v.unread c = false ∧ ∃ o, ∀ op k, op.comparison? = some k →
      (⟨column, op, v⟩ : Filter).holds type c = k.holds o) := by
  cases hunread : v.unread c
  · have hcell : v.reading.cell c ≠ .null := fun hcell => by
      rw [(FilterValue.unread_iff hc).2 hcell] at hunread
      cases hunread
    obtain ⟨o, ho⟩ := Comparison.exists_order (if v.reading = .numeric then none else type) hcell hv
    exact .inr ⟨rfl, o, fun op k hk => (holds_comparison hk).trans (ho k)⟩
  · have hcell := (FilterValue.unread_iff hc).1 hunread
    refine .inl ⟨rfl, fun op k hk => ?_⟩
    rw [holds_comparison hk, hcell, Comparison.holds_null]

end Filter

section Splitting

variable {α : Type} {xs : List α} {p q u : α → Bool}

theorem filter_append_filter_perm (h : ∀ x ∈ xs, p x = true → q x = false) :
    (xs.filter p ++ xs.filter q).Perm (xs.filter fun x => p x || q x) := by
  have hfirst : (xs.filter fun x => p x || q x).filter p = xs.filter p := by
    rw [List.filter_filter]
    exact List.filter_congr fun x _ => by cases p x <;> rfl
  have hsecond : (xs.filter fun x => p x || q x).filter (fun x => !p x) = xs.filter q := by
    rw [List.filter_filter]
    exact List.filter_congr fun x hx => by
      cases hp : p x
      · rfl
      · rw [h x hx hp]
        rfl
  rw [← hfirst, ← hsecond]
  exact List.filter_append_perm _ _

/-- A condition, another one and a third split a list if each element satisfies one of them. -/
theorem split_perm (hu : ∀ x ∈ xs, u x = true → p x = false ∧ q x = false)
    (hpq : ∀ x ∈ xs, u x = false → q x = !p x) :
    (xs.filter p ++ xs.filter q ++ xs.filter u).Perm xs := by
  have hapart : ∀ x ∈ xs, p x = true → q x = false := fun x hx hp => by
    cases hux : u x
    · rw [hpq x hx hux, hp]
      rfl
    · exact (hu x hx hux).2
  have hrest : ∀ x ∈ xs, (p x || q x) = true → u x = false := fun x hx h => by
    by_contra hux
    obtain ⟨hp, hq⟩ := hu x hx (Bool.not_eq_false _ ▸ hux)
    rw [hp, hq] at h
    cases h
  have hall : xs.filter (fun x => p x || q x || u x) = xs := by
    refine List.filter_eq_self.2 fun x hx => ?_
    cases hux : u x
    · rw [hpq x hx hux]
      cases p x <;> rfl
    · exact Bool.or_true _
  have hunion := filter_append_filter_perm hrest
  rw [hall] at hunion
  exact ((filter_append_filter_perm hapart).append_right _).trans hunion

end Splitting

namespace Filter

variable {α : Type} {xs : List α} {cell : α → Cell} {v : FilterValue} (type : Option Declared)
  (column : String) (hv : v.cell ≠ .null) (hcells : ∀ x ∈ xs, (cell x).Genuine)

include hv hcells

theorem split_opposite {op op' : Operator} {k k' : Comparison} (hk : op.comparison? = some k)
    (hk' : op'.comparison? = some k') (hopposite : ∀ o, k'.holds o = !k.holds o) :
    (xs.filter (fun x => (⟨column, op, v⟩ : Filter).holds type (cell x)) ++
      xs.filter (fun x => (⟨column, op', v⟩ : Filter).holds type (cell x)) ++
      xs.filter fun x => v.unread (cell x)).Perm xs := by
  refine split_perm (fun x hx hunread => ?_) fun x hx hread => ?_
  · rcases unread_or_order type column hv (hcells x hx) with ⟨-, hnone⟩ | ⟨hread, -⟩
    · exact ⟨hnone op k hk, hnone op' k' hk'⟩
    · rw [hread] at hunread
      cases hunread
  · rcases unread_or_order type column hv (hcells x hx) with ⟨hunread, -⟩ | ⟨-, o, ho⟩
    · rw [hread] at hunread
      cases hunread
    · rw [ho op k hk, ho op' k' hk', hopposite]

/-- What is at most a value is less, or it is equal. -/
theorem split_lte : (xs.filter fun x => (⟨column, .lte, v⟩ : Filter).holds type (cell x)).Perm
    (xs.filter (fun x => (⟨column, .lt, v⟩ : Filter).holds type (cell x)) ++
      xs.filter fun x => (⟨column, .eq, v⟩ : Filter).holds type (cell x)) := by
  have hcases : ∀ x ∈ xs, (⟨column, .lte, v⟩ : Filter).holds type (cell x) =
        ((⟨column, .lt, v⟩ : Filter).holds type (cell x) ||
          (⟨column, .eq, v⟩ : Filter).holds type (cell x)) ∧
      ((⟨column, .lt, v⟩ : Filter).holds type (cell x) = true →
        (⟨column, .eq, v⟩ : Filter).holds type (cell x) = false) := fun x hx => by
    rcases unread_or_order type column hv (hcells x hx) with ⟨-, hnone⟩ | ⟨-, o, ho⟩
    · rw [hnone .lte .le rfl, hnone .lt .lt rfl, hnone .eq .eq rfl]
      exact ⟨rfl, fun _ => rfl⟩
    · rw [ho .lte .le rfl, ho .lt .lt rfl, ho .eq .eq rfl]
      cases o <;> decide
  rw [List.filter_congr fun x hx => (hcases x hx).1]
  exact (filter_append_filter_perm fun x hx => (hcases x hx).2).symm

end Filter

namespace Intent

variable {t : Target} {out : List Row} {a : Analysis} {before after : List Filter}

/-- The six comparisons of a column with a value, each among the same other filters. -/
theorem execute_trichotomy {first : Row} {rest : List Row} {c : Float} {r text column : String}
    {v : FilterValue} (hd : t.dialect = .directColumn)
    (h : (analyze a (before ++ after) c r).compile t (Profile.ofRows (first :: rest)) = .ok text)
    (hout : Store.executeOnce t.source.text (first :: rest) text = .ok out)
    (hcolumn : column ∈ first.keys) (hfinite : ∀ x, v = .number x → x.isFinite = true)
    (hwords : ∀ w ∈ v.expr.words, ∀ k ∈ first.keys, Text.sameAscii k w = false)
    (hnumbers : ∀ row ∈ first :: rest, ∀ x, row.get? column = some (.double x) →
      x.isNaN = false) :
    ∃ (base unread : List Record) (kept : Operator → List Record),
      a.kept t (Profile.ofRows (first :: rest)) (before ++ after) (first :: rest) = .ok base ∧
      base.Nodup ∧
      unread = (base.filter fun x => v.unread ((Scope.ofRows (first :: rest)).cell column x)) ∧
      (∀ op k, op.comparison? = some k →
        a.kept t (Profile.ofRows (first :: rest)) (before ++ ⟨column, op, v⟩ :: after)
          (first :: rest) = .ok (kept op) ∧
        ∃ text', (analyze a (before ++ ⟨column, op, v⟩ :: after) c r).compile t
            (Profile.ofRows (first :: rest)) = .ok text' ∧
          ((∀ s ∈ v.text?, Clean s) → Select.joined 0 (t.conditions
              (before ++ ⟨column, op, v⟩ :: after)) ≤ Select.depthLimit →
            ∃ out', Store.executeOnce t.source.text (first :: rest) text' = .ok out' ∧
              a.summary t (Profile.ofRows (first :: rest)) (first :: rest) (kept op) =
                .ok out')) ∧
      (kept .eq ++ kept .neq ++ unread).Perm base ∧ (kept .lt ++ kept .gte ++ unread).Perm base ∧
      (kept .gt ++ kept .lte ++ unread).Perm base ∧ (kept .lte).Perm (kept .lt ++ kept .eq) := by
  obtain ⟨_, _, _, _, ⟨⟩, -, htext⟩ := exists_analyze h
  rw [htext] at hout
  have hload := ((executeOnce_query hd a).1 hout).1
  obtain ⟨base, hbase, -⟩ := exists_summary hd hout
  obtain ⟨p, hp, -⟩ := bind_eq_ok.1 hbase
  have hfilter := Analysis.kept_eq_alone hd hp hbase
  have hsub : ∀ x ∈ base, x ∈ (Table.ofRows t.source.text (first :: rest)).numbered := fun x hx =>
    (List.mem_filter.1 (hfilter ▸ hx)).1
  have hcells : ∀ x ∈ base, ((Scope.ofRows (first :: rest)).cell column x).Genuine := by
    intro x hx
    obtain ⟨n, row, hrow, rfl⟩ := Table.exists_row (hsub x hx)
    rw [Scope.cell_ofRows hload hcolumn]
    exact Declared.genuine_store _ (hnumbers row hrow)
  have hv := FilterValue.cell_ne_null hfinite
  refine ⟨base, _, fun op => base.filter fun x => (⟨column, op, v⟩ : Filter).holds
    (some (.ofCell (first.get? column))) ((Scope.ofRows (first :: rest)).cell column x), hbase, ?_,
    rfl, fun op k hk => ?_, Filter.split_opposite _ column hv hcells rfl rfl (by decide),
    Filter.split_opposite _ column hv hcells rfl rfl (by decide),
    Filter.split_opposite _ column hv hcells rfl rfl (by decide),
    Filter.split_lte _ column hv hcells⟩
  · rw [hfilter]
    exact (Table.nodup_numbered _).filter _
  · have hpattern : (⟨column, op, v⟩ : Filter).pattern? = none := by
      cases op <;> first | rfl | cases hk
    have hclear : (⟨column, op, v⟩ : Filter).Clear first :=
      ⟨hcolumn, hfinite, by simpa [Filter.words, hpattern] using hwords⟩
    obtain ⟨_, rfl, hkept, hrun⟩ := execute_insert hd h (htext ▸ hout) hbase hclear
      (by simp [hpattern])
    exact ⟨hkept, hrun⟩

/-- Three rows, of which one does not say whether it is ticked. -/
def ticked : List Row := [⟨[("ticked", .bool true)], by decide⟩, ⟨[("ticked", .null)], by decide⟩,
  ⟨[("ticked", .bool false)], by decide⟩]

/-- One row in three is neither ticked nor not. -/
theorem execute_trichotomy_ticked : ∃ (text : String) (out : List Row) (base unread : List Record)
    (kept : Operator → List Record),
    (analyze (.aggregate "*" .count none) [] 1 "").compile ⟨.directColumn, none, none⟩
      (Profile.ofRows ticked) = .ok text ∧
    Store.executeOnce defaultTable ticked text = .ok out ∧
    (Analysis.aggregate "*" .count none).kept ⟨.directColumn, none, none⟩ (Profile.ofRows ticked) []
      ticked = .ok base ∧
    (∀ op k, op.comparison? = some k → (Analysis.aggregate "*" .count none).kept
      ⟨.directColumn, none, none⟩ (Profile.ofRows ticked) [⟨"ticked", op, .bool true⟩] ticked =
        .ok (kept op)) ∧
    base.length = 3 ∧ unread.length = 1 ∧ (kept .eq ++ kept .neq ++ unread).Perm base := by
  have hload : ∃ s, Store.empty.load defaultTable ticked = .ok s := Store.load_default (by decide)
  obtain ⟨text, out, htext, hout⟩ := exists_unfiltered (a := .aggregate "*" .count none) hload
    (by decide +kernel) rfl (by decide) (by decide)
  have htext' : (analyze (.aggregate "*" .count none) ([] ++ []) 1 "").compile
      ⟨.directColumn, none, none⟩ (Profile.ofRows ticked) = .ok text := htext
  have hfinite : ∀ x, FilterValue.bool true = .number x → x.isFinite = true := nofun
  have hwords : ∀ w ∈ (FilterValue.bool true).expr.words, ∀ k ∈ ["ticked"],
      Text.sameAscii k w = false := by decide
  have hnumbers : ∀ row ∈ ticked, ∀ x, row.get? "ticked" = some (.double x) → x.isNaN = false := by
    simp [ticked, Row.get?]
  obtain ⟨base, unread, kept, hbase, -, hunread, hkept, hsplit, -⟩ :=
    execute_trichotomy (t := ⟨.directColumn, none, none⟩) rfl htext' hout List.mem_cons_self hfinite
      hwords hnumbers
  obtain rfl := kept_unfiltered rfl hbase
  refine ⟨text, out, _, unread, kept, htext, hout, hbase, fun op k hk => (hkept op k hk).1, rfl, ?_,
    hsplit⟩
  rw [hunread]
  decide +kernel

end Intent

end TableTalk
