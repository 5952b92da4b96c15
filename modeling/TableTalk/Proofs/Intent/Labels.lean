import TableTalk.Proofs.Intent.Counting
import TableTalk.Proofs.Intent.Ranking

/-!
# The labels of a result

Groups are told apart by cells, and a result shows a value for each. Distinct cells have distinct
values but for two losses (`Table.value_eq_iff`): nothing and an infinite number are both null, and
all whole numbers but zero are true in a column of booleans. So two rows have one label only where
their groups are lost in this way, which the buckets of a date never are.
-/

namespace TableTalk

open Sql

namespace Cell

/-- What some column can keep of a value of a document. -/
def Kept (c : Cell) : Prop := ∃ type : Declared, type.Holds c

/-- What JSON has no value for: nothing, and a double that is not finite. -/
def Void (c : Cell) : Prop := c = null ∨ ∃ x, c = real x ∧ x.isFinite = false

/-- Cells that the values of a column do not tell apart. -/
inductive Merged (type : Option Declared) : Cell → Cell → Prop
  | void {c d : Cell} (hc : c.Void) (hd : d.Void) : Merged type c d
  | truth {m n : Int} (h : type = some .boolean) (hm : m ≠ 0) (hn : n ≠ 0) :
    Merged type (int m) (int n)

/-- What a column shows of a cell. -/
inductive Shows (type : Option Declared) : Cell → Json → Prop
  | void {c : Cell} (hc : c.Void) : Shows type c .null
  | truth {n : Int} {b : Bool} (h : type = some .boolean) (hb : (n != 0) = b) :
    Shows type (int n) (.bool b)
  | int (n : Int) : Shows type (int n) (.int n)
  | real (x : Float) : Shows type (real x) (.double x)
  | text (s : String) : Shows type (text s) (.str s)

variable {type : Option Declared} {c d : Cell}

/-- Beside booleans, merged cells are one and the same or not both finite. -/
theorem Merged.not_finite (h : Merged type c d) (hne : c.same d = false)
    (htype : type ≠ some .boolean) (hc : c.Finite) : ¬d.Finite := by
  have hnull : ∀ {e : Cell}, e.Void → e.Finite → e = null := fun hvoid hfinite =>
    hvoid.resolve_right fun ⟨x, hx, hinfinite⟩ => by
      rw [hfinite x hx] at hinfinite
      cases hinfinite
  intro hd
  cases h with
  | truth h => exact htype h
  | void hvc hvd =>
    rw [hnull hvc hc, hnull hvd hd, same_refl] at hne
    cases hne

/-- Cells of which no two are the same are their own kinds. -/
theorem Kinds.perm {cs kinds : List Cell} (h : Kinds cs kinds)
    (happart : cs.Pairwise fun v w => v.same w = false) : kinds.Perm cs := by
  have hnodup : ∀ {cs : List Cell}, (cs.Pairwise fun v w => v.same w = false) → cs.Nodup :=
    fun h => h.imp fun hne heq => by
      rw [heq, same_refl] at hne
      cases hne
  have hsymm : Std.Symm fun v w : Cell => v.same w = false :=
    ⟨fun _ _ hvw => (same_comm _ _).trans hvw⟩
  refine (List.perm_ext_iff_of_nodup (hnodup h.apart) (hnodup happart)).2 fun v =>
    ⟨h.mem v, fun hv => ?_⟩
  obtain ⟨w, hw, hsame⟩ := h.cover v hv
  have heq : w = v := by
    by_contra hne
    rw [happart.forall (h.mem w hw) hv hne] at hsame
    cases hsame
  exact heq ▸ hw

theorem kept_bucket (g : Grain) (c : Cell) : (c.bucket g).Kept := by
  rw [bucket]
  rcases (c.timestamp?.bind fun t => g.start? t.date).map Date.render with - | s
  · exact ⟨.varchar, trivial⟩
  · exact ⟨.varchar, .inl rfl⟩

theorem finite_bucket (g : Grain) (c : Cell) : (c.bucket g).Finite := by
  rw [bucket]
  rcases (c.timestamp?.bind fun t => g.start? t.date).map Date.render with - | s <;>
    rintro x ⟨⟩

end Cell

namespace Table

variable {name : String} {type : Option Declared} {c d : Cell}

theorem shows_value (hc : c.Kept) : Cell.Shows type c (value ⟨name, type⟩ c) := by
  have hshown : Cell.Shows type c c.toJson := by
    cases c with
    | null => exact .void (.inl rfl)
    | int n => exact .int n
    | text s => exact .text s
    | real x =>
      rw [Cell.toJson, Json.ofFloat]
      split_ifs with hx
      · exact .real x
      · exact .void (.inr ⟨x, rfl, Bool.eq_false_iff.2 hx⟩)
    | loose | blob =>
      obtain ⟨_, hc⟩ := hc
      cases hc
  unfold value
  split
  · exact .truth ‹_› rfl
  · exact hshown

theorem value_void (hc : c.Void) : value ⟨name, type⟩ c = .null := by
  have hshown : c.toJson = .null := by
    rcases hc with rfl | ⟨x, rfl, hx⟩
    · rfl
    · rw [Cell.toJson, Json.ofFloat, hx]
      rfl
  unfold value
  split
  · rcases hc with hc | ⟨x, hc, -⟩ <;> cases hc
  · exact hshown

theorem value_eq_of_merged (h : Cell.Merged type c d) :
    value ⟨name, type⟩ c = value ⟨name, type⟩ d := by
  cases h with
  | void hvc hvd => rw [value_void hvc, value_void hvd]
  | truth htype hm hn =>
    rw [htype]
    exact congrArg Json.bool ((bne_iff_ne.2 hm).trans (bne_iff_ne.2 hn).symm)

/-- Distinct cells have distinct values unless they are merged. -/
theorem value_eq_iff (hc : c.Kept) (hd : d.Kept) (hne : c.same d = false) :
    value ⟨name, type⟩ c = value ⟨name, type⟩ d ↔ Cell.Merged type c d := by
  have hdiffer : c ≠ d := by
    rintro rfl
    rw [Cell.same_refl] at hne
    cases hne
  refine ⟨fun h => ?_, value_eq_of_merged⟩
  have hsc : Cell.Shows type c (value ⟨name, type⟩ c) := shows_value hc
  have hsd : Cell.Shows type d (value ⟨name, type⟩ c) := h ▸ shows_value hd
  generalize value ⟨name, type⟩ c = j at hsc hsd
  cases hsc with
  | void hvc =>
    cases hsd with
    | void hvd => exact .void hvc hvd
  | @truth m b htype hm =>
    cases hsd with
    | @truth n _ _ hn =>
      -- false stands for zero alone, true for all other numbers
      cases b with
      | true => exact .truth htype (bne_iff_ne.1 hm) (bne_iff_ne.1 hn)
      | false =>
        rw [bne_eq_false_iff_eq] at hm hn
        exact absurd (hm.trans hn.symm ▸ rfl) hdiffer
  | int | real | text =>
    cases hsd
    exact absurd rfl hdiffer

theorem kept_of_mem {name : String} {rows : List Row} {x : Record}
    (hx : x ∈ (ofRows name rows).numbered) {c : Cell} (hc : c ∈ x.cells) : c.Kept := by
  obtain ⟨n, row, hrow, rfl⟩ := exists_row hx
  obtain ⟨column, hcolumn, rfl⟩ := List.mem_map.1 hc
  cases rows with
  | nil => cases hrow
  | cons first rest =>
    obtain ⟨m, -, rfl⟩ := List.mem_map.1 hcolumn
    exact ⟨_, Declared.holds_store _ _⟩

end Table

theorem Scope.kept_cell {s : Scope} {name : String} {rows : List Row} {x : Record}
    (hx : x ∈ (Table.ofRows name rows).numbered) (c : String) : (s.cell c x).Kept := by
  rw [cell]
  rcases s.ref? c with - | r
  · exact ⟨.varchar, trivial⟩
  · cases r with
    | rowId => exact ⟨.integer, by rintro ⟨⟩⟩
    | cell k type =>
      rw [Option.map_some, Option.getD_some, Ref.read]
      rcases hk : x.cells[k]? with - | d
      · exact ⟨.varchar, trivial⟩
      · exact Table.kept_of_mem hx (List.mem_of_getElem? hk)

theorem Analysis.kept_key {s : Scope} {name : String} {rows : List Row} {x : Record}
    (hx : x ∈ (Table.ofRows name rows).numbered) (a : Analysis) : (a.key s x).Kept := by
  cases a with
  | aggregate metric function groupBy =>
    cases groupBy with
    | none => exact ⟨.varchar, trivial⟩
    | some c => exact Scope.kept_cell hx c
  | topList | distribution => exact Scope.kept_cell hx _
  | trend | compare | cohort => exact Cell.kept_bucket _ _

theorem Analysis.label_ne_value {t : Target} (schema : Schema) {a : Analysis}
    {l : String × Expr Name} (hl : l ∈ a.label? t) : l.1 ≠ (a.value t schema).1 := by
  intro h
  have hapart : Text.sameAscii l.1 (a.value t schema).1 = false :=
    Scope.label_apart hl (Text.sameAscii_refl l.1)
  rw [← h, Text.sameAscii_refl] at hapart
  cases hapart

theorem Row.get?_first {n m : String} (h : n ≠ m) (v w : Json) :
    (ofMembers ([n, m].zip [v, w])).get? n = some v := by
  have hcells : (ofMembers [(n, v), (m, w)]).cells = [(n, v), (m, w)] :=
    cells_ofMembers (by simpa using h)
  rw [get?, List.zip_cons_cons, List.zip_cons_cons, List.zip_nil_left, hcells,
    List.lookup_cons_self]

namespace Intent

variable {t : Target} {schema : Schema} {rows out : List Row} {a : Analysis} {fs : List Filter}
  {l : String × Expr Name}

/-- A result has a row for each kind of what the groups are told apart by, up to its bound. -/
theorem execute_labels (hd : t.dialect = .directColumn) (hkind : a.kind ≠ .compare)
    (hl : l ∈ a.label? t) (hout : Store.executeOnce t.source.text rows
      (a.query t schema (t.conditions fs)).text = .ok out) :
    ∃ kept kinds, a.kept t schema fs rows = .ok kept ∧
      Cell.Kinds (kept.map (a.key (.ofRows rows))) kinds ∧
      out.map (·.get? l.1) = (kinds.map fun v =>
        some (Table.value ⟨l.1, a.keyType (.ofRows rows)⟩ v)).take a.bound := by
  obtain ⟨kept, gs, hkept, hsplits, -, rfl⟩ := execute_grouped hd hkind hl hout
  refine ⟨kept, _, hkept, hsplits.kinds, ?_⟩
  have hapart : l.1 ≠ (a.value t schema).1 := Analysis.label_ne_value schema hl
  rw [List.map_take, List.map_map, List.map_map]
  refine congrArg _ (List.map_congr_left fun g _ => ?_)
  rw [Function.comp_apply, Analysis.row, (Analysis.cap_of_label schema hkind hl).2,
    Row.get?_first hapart]
  rfl

/-- Two cells that are shown alike make a label come twice where no records share a cell. -/
theorem not_nodup_labels (hd : t.dialect = .directColumn) (hkind : a.kind ≠ .compare)
    (hl : l ∈ a.label? t) {kept : List Record} (hkept : a.kept t schema fs rows = .ok kept)
    (happart : (kept.map (a.key (.ofRows rows))).Pairwise fun v w => v.same w = false)
    (hlength : kept.length ≤ a.bound) {v w : Cell} (hv : v ∈ kept.map (a.key (.ofRows rows)))
    (hw : w ∈ kept.map (a.key (.ofRows rows))) (hne : v ≠ w)
    (hmerged : Cell.Merged (a.keyType (.ofRows rows)) v w)
    (hout : Store.executeOnce t.source.text rows (a.query t schema (t.conditions fs)).text =
      .ok out) : ¬(out.map (·.get? l.1)).Nodup := by
  obtain ⟨_, kinds, hkept', hkinds, hlabels⟩ := execute_labels hd hkind hl hout
  cases hkept.symm.trans hkept'
  have hperm : kinds.Perm (kept.map (a.key (.ofRows rows))) := hkinds.perm happart
  rw [hlabels, List.take_of_length_le (by simpa [hperm.length_eq] using hlength)]
  intro hnodup
  exact hne (List.inj_on_of_nodup_map hnodup (hperm.mem_iff.2 hv) (hperm.mem_iff.2 hw)
    (congrArg some (Table.value_eq_of_merged hmerged)))

/-- Two groups have one label exactly if their cells are merged. So no label comes twice where the
groups are the buckets of a date, nor where a column that is not of booleans has finite cells. -/
theorem execute_labelled {c : Float} {r text : String} (hd : t.dialect = .directColumn)
    (hkind : a.kind ≠ .compare) (hl : l ∈ a.label? t)
    (h : (analyze a fs c r).compile t schema = .ok text)
    (hout : Store.executeOnce t.source.text rows text = .ok out) :
    ∃ kept kinds, a.kept t schema fs rows = .ok kept ∧
      Cell.Kinds (kept.map (a.key (.ofRows rows))) kinds ∧
      out.map (·.get? l.1) = (kinds.map fun v =>
        some (Table.value ⟨l.1, a.keyType (.ofRows rows)⟩ v)).take a.bound ∧
      (kinds.Pairwise fun v w => Table.value ⟨l.1, a.keyType (.ofRows rows)⟩ v =
        Table.value ⟨l.1, a.keyType (.ofRows rows)⟩ w ↔
          Cell.Merged (a.keyType (.ofRows rows)) v w) ∧
      (a.keyType (.ofRows rows) ≠ some .boolean →
        (∀ x ∈ kept, (a.key (.ofRows rows) x).Finite) → (out.map (·.get? l.1)).Nodup) ∧
      (a.bucket?.isSome = true → (out.map (·.get? l.1)).Nodup) := by
  obtain ⟨_, _, _, _, ⟨⟩, -, rfl⟩ := exists_analyze h
  obtain ⟨kept, kinds, hkept, hkinds, hlabels⟩ := execute_labels hd hkind hl hout
  have hkeys : ∀ v ∈ kinds, ∃ x ∈ kept, a.key (.ofRows rows) x = v := fun v hv =>
    List.mem_map.1 (hkinds.mem v hv)
  have hmem : ∀ v ∈ kinds, v.Kept := fun v hv => by
    obtain ⟨x, hx, rfl⟩ := hkeys v hv
    obtain ⟨p, -, hselected⟩ := bind_eq_ok.1 hkept
    exact a.kept_key (Plan.mem_of_selected hselected x hx)
  have hmerged : kinds.Pairwise fun v w => Table.value ⟨l.1, a.keyType (.ofRows rows)⟩ v =
      Table.value ⟨l.1, a.keyType (.ofRows rows)⟩ w ↔
        Cell.Merged (a.keyType (.ofRows rows)) v w :=
    hkinds.apart.imp_of_mem fun hv hw hne => Table.value_eq_iff (hmem _ hv) (hmem _ hw) hne
  have hunique : a.keyType (.ofRows rows) ≠ some .boolean →
      (∀ x ∈ kept, (a.key (.ofRows rows) x).Finite) → (out.map (·.get? l.1)).Nodup :=
    fun htype hfinite => by
      have hshown : ∀ v ∈ kinds, v.Finite := fun v hv => by
        obtain ⟨x, hx, rfl⟩ := hkeys v hv
        exact hfinite x hx
      rw [hlabels]
      refine .sublist (List.take_sublist _ _) (List.pairwise_map.2 ?_)
      refine (hkinds.apart.and hmerged).imp_of_mem fun hv hw hboth heq => ?_
      exact (hboth.2.1 (Option.some.inj heq)).not_finite hboth.1 htype (hshown _ hv) (hshown _ hw)
  refine ⟨kept, kinds, hkept, hkinds, hlabels, hmerged, hunique, fun hbucket => ?_⟩
  cases a with
  | aggregate | topList | distribution => cases hbucket
  | trend | compare | cohort => exact hunique nofun fun x _ => Cell.finite_bucket _ _

/-- Each letter comes once. -/
theorem execute_labelled_letters : ∃ text out,
    (analyze (.distribution "count" "letter") [] 1 "").compile ⟨.directColumn, none, none⟩
      (Profile.ofRows letters) = .ok text ∧
    Store.executeOnce defaultTable letters text = .ok out ∧
    (out.map (·.get? "label")).Nodup := by
  have hload : ∃ s, Store.empty.load defaultTable letters = .ok s := Store.load_default (by decide)
  obtain ⟨text, out, htext, hout⟩ := exists_unfiltered (a := .distribution "count" "letter") hload
    (by decide +kernel) rfl (by decide) (by decide)
  obtain ⟨kept, -, hkept, -, -, -, hunique, -⟩ := execute_labelled
    (t := ⟨.directColumn, none, none⟩) (a := .distribution "count" "letter") rfl nofun rfl htext
    hout
  have hcell : ∀ x ∈ (Table.ofRows defaultTable letters).numbered,
      ∃ s ∈ ["A", "B", "C"], (Scope.ofRows letters).cell "letter" x = .text s := by
    decide +kernel
  refine ⟨text, out, htext, hout, hunique (by decide) fun x hx => ?_⟩
  obtain ⟨s, -, hs⟩ := hcell x (kept_unfiltered rfl hkept ▸ hx)
  rw [Analysis.key, hs]
  nofun

/-- The rows of a table with a column of booleans, one of which is a number. -/
def switches : List Row := [⟨[("b", .bool true)], by decide⟩, ⟨[("b", .int 2)], by decide⟩]

/-- The rows of a table with a column of numbers, one of which is too large and one is missing. -/
def measures : List Row := [⟨[("b", .int 1)], by decide⟩, ⟨[("b", .str "1e400")], by decide⟩,
  ⟨[("b", .null)], by decide⟩]

/-- How many rows there are for each value of a column. -/
def census : Intent := analyze (.distribution "count" "b") [] 1 ""

theorem exists_census (hload : ∃ s, Store.empty.load defaultTable rows = .ok s)
    (htext : (census.compile ⟨.directColumn, none, none⟩ (Profile.ofRows rows)).toOption.isSome =
      true) (hkeys : ∃ first ∈ rows.head?, "b" ∈ first.keys) (hlength : rows.length ≤ 20)
    {c d : Cell} (hne : c ≠ d) (hmerged : Cell.Merged ((Scope.ofRows rows).type? "b") c d)
    (happart : ((Table.ofRows defaultTable rows).numbered.map
      ((Scope.ofRows rows).cell "b")).Pairwise fun v w => v.same w = false)
    (hc : c ∈ (Table.ofRows defaultTable rows).numbered.map ((Scope.ofRows rows).cell "b"))
    (hd : d ∈ (Table.ofRows defaultTable rows).numbered.map ((Scope.ofRows rows).cell "b")) :
    ∃ text out, census.compile ⟨.directColumn, none, none⟩ (Profile.ofRows rows) = .ok text ∧
      Store.executeOnce defaultTable rows text = .ok out ∧
      ¬(out.map (·.get? "label")).Nodup := by
  obtain ⟨text, out, htext, hout⟩ := exists_unfiltered (a := .distribution "count" "b") hload htext
    rfl (by decide) (List.forall_mem_singleton.2 hkeys)
  refine ⟨text, out, htext, hout, ?_⟩
  obtain ⟨_, _, _, _, ⟨⟩, -, rfl⟩ := exists_analyze htext
  obtain ⟨kept, -, hkept, -⟩ := execute_labels (t := ⟨.directColumn, none, none⟩)
    (a := .distribution "count" "b") rfl nofun rfl hout
  cases kept_unfiltered rfl hkept
  have hcells : (Table.ofRows defaultTable rows).numbered.length ≤ 20 := by
    simpa [Table.ofRows, Table.numbered] using hlength
  exact not_nodup_labels (t := ⟨.directColumn, none, none⟩) (a := .distribution "count" "b") rfl
    nofun rfl hkept happart hcells hc hd hne hmerged hout

/-- One and two are both true, and a number that is too large is null like a missing one. -/
theorem execute_labelled_twice :
    (∃ text out, census.compile ⟨.directColumn, none, none⟩ (Profile.ofRows switches) = .ok text ∧
      Store.executeOnce defaultTable switches text = .ok out ∧
      ¬(out.map (·.get? "label")).Nodup) ∧
    ∃ text out, census.compile ⟨.directColumn, none, none⟩ (Profile.ofRows measures) = .ok text ∧
      Store.executeOnce defaultTable measures text = .ok out ∧
      ¬(out.map (·.get? "label")).Nodup := by
  have hswitches : ∃ s, Store.empty.load defaultTable switches = .ok s :=
    Store.load_default (by decide)
  have hmeasures : ∃ s, Store.empty.load defaultTable measures = .ok s :=
    Store.load_default (by decide)
  have htruth : Cell.Merged ((Scope.ofRows switches).type? "b") (.int 1) (.int 2) :=
    .truth rfl (by decide) (by decide)
  have hvoid : Cell.Merged ((Scope.ofRows measures).type? "b") .null
      (Declared.double.store (.text "1e400")) :=
    .void (.inl rfl) (.inr ⟨_, rfl, by decide +kernel⟩)
  exact ⟨exists_census hswitches (by decide +kernel) (by decide) (by decide) (by decide) htruth
      (by decide +kernel) (by decide +kernel) (by decide +kernel),
    exists_census hmeasures (by decide +kernel) (by decide) (by decide) (by decide +kernel) hvoid
      (by decide +kernel) (by decide +kernel) (by decide +kernel)⟩

end Intent

end TableTalk
