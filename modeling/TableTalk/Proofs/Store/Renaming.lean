import TableTalk.Proofs.Sql.Clauses
import TableTalk.Proofs.Store.Loading
import TableTalk.Proofs.Store.Planning
import TableTalk.Proofs.Table.Rows

/-!
# Renaming columns

A query names columns between quotes. If these names are replaced, and the columns of the table too,
an expression stands for the same as before (`Scope.resolve_rename`), as long as the words that it
says without quotes, numbers that are none and truth values, name the same columns as before.
The table of renamed rows has the same records under the other names (`Table.records_rename`).
-/

namespace TableTalk

open Sql

namespace Sql

def Name.rename (f : String → String) : Name → Name
  | bare s => .bare s
  | quoted s => .quoted (f s)

namespace Expr

/-- The expression with other names between quotes. -/
def rename (f : String → String) : Expr Name → Expr Name
  | column n => column (n.rename f)
  | number s => number s
  | text s => text s
  | truth b => truth b
  | paren e => paren (e.rename f)
  | negate e => negate (e.rename f)
  | compare op l r => compare op (l.rename f) (r.rename f)
  | like l r => like (l.rename f) (r.rename f)
  | ilike l r => ilike (l.rename f) (r.rename f)
  | arithmetic op l r => arithmetic op (l.rename f) (r.rename f)
  | member d k => member (d.rename f) (k.rename f)
  | cast e t => cast (e.rename f) t
  | call h e => call h (e.rename f)
  | call2 h l r => call2 h (l.rename f) (r.rename f)
  | aggregate h e => aggregate h (e.rename f)
  | countRows => countRows
  | lag e o => lag (e.rename f) (o.rename f)

def truthWord (b : Bool) : String := if b then "TRUE" else "FALSE"

/-- The words without quotes that a column could have for its name. -/
def words : Expr Name → List String
  | column (.bare s) => [s]
  | column (.quoted _) => []
  | number _ => []
  | text _ => []
  | truth b => [truthWord b]
  | paren e => e.words
  | negate e => e.words
  | compare _ l r => l.words ++ r.words
  | like l r => l.words ++ r.words
  | ilike l r => l.words ++ r.words
  | arithmetic _ l r => l.words ++ r.words
  | member d k => d.words ++ k.words
  | cast e _ => e.words
  | call _ e => e.words
  | call2 _ l r => l.words ++ r.words
  | aggregate _ e => e.words
  | countRows => []
  | lag e o => e.words ++ o.words

theorem height_rename (f : String → String) (e : Expr Name) : (e.rename f).height = e.height := by
  induction e with
  | column | number | text | truth | countRows => rfl
  | paren e ih | negate e ih | cast e _ ih | call _ e ih | aggregate _ e ih =>
    simp only [rename, height, ih]
  | compare _ l r ihl ihr | like l r ihl ihr | ilike l r ihl ihr | arithmetic _ l r ihl ihr
  | member l r ihl ihr | call2 _ l r ihl ihr | lag l r ihl ihr =>
    simp only [rename, height, ihl, ihr]

end Expr

theorem Select.joined_rename (f : String → String) (depth : Nat) (cs : List (Expr Name)) :
    joined depth (cs.map (Expr.rename f)) = joined depth cs := by
  simp only [joined, List.foldl_map, Expr.height_rename]

/-- The selection with other names between quotes. What it is ordered by are names of its own. -/
def Select.rename (f : String → String) (q : Select) : Select :=
  { q with
    items := match q.items with
      | .all => .all
      | .list items => .list (items.map fun i => ⟨i.expr.rename f, i.alias?⟩)
    conditions := q.conditions.map (Expr.rename f)
    groupBy := q.groupBy.map (Expr.rename f) }

end Sql

namespace Scope

/-- The first column with a name, also one that is hidden. -/
def cell? (s : Scope) (name : String) : Option Ref := column? name 0 (s.columns ++ s.hidden)

/-- The columns of an expression are found under their new names where they were, and its words
are names of the same columns as before. -/
structure Follows (f : String → String) (s s' : Scope) (e : Expr Name) : Prop where
  columns : ∀ c, .quoted c ∈ e.names → ∃ r, s.ref? c = some r ∧ s'.ref? (f c) = some r
  words : ∀ w ∈ e.words, s'.cell? w = s.cell? w
  numbered : s'.numbered = s.numbered

variable {f : String → String} {s s' : Scope} {items : List (Option String × Expr Ref)}

theorem Follows.append {e l r : Expr Name} (h : Follows f s s' e) (hnames : e.names = l.names ++ r.names)
    (hwords : e.words = l.words ++ r.words) : Follows f s s' l ∧ Follows f s s' r := by
  obtain ⟨hcolumns, hsame, hnumbered⟩ := h
  rw [hnames] at hcolumns
  rw [hwords] at hsame
  exact ⟨⟨fun c hc => hcolumns c (List.mem_append_left _ hc),
      fun w hw => hsame w (List.mem_append_left _ hw), hnumbered⟩,
    ⟨fun c hc => hcolumns c (List.mem_append_right _ hc),
      fun w hw => hsame w (List.mem_append_right _ hw), hnumbered⟩⟩

theorem resolve_rename {e : Expr Name} (h : Follows f s s' e) :
    s'.resolve items (e.rename f) = s.resolve items e := by
  simp only [resolve]
  induction e with
  | column n =>
    cases n with
    | bare w =>
      have hw : s'.ref? w = s.ref? w := by
        have hcell := h.words w List.mem_cons_self
        rw [cell?, cell?] at hcell
        rw [ref?, ref?, hcell, h.numbered]
      simp only [Expr.rename, Expr.bind, Name.rename, Name.text, lookup, hw]
    | quoted c =>
      obtain ⟨r, hr, hr'⟩ := h.columns c List.mem_cons_self
      simp only [Expr.rename, Expr.bind, Name.rename, Name.text, lookup, hr, hr']
  | truth b =>
    have hb : s'.truth b = s.truth b := by
      have hcell := h.words _ List.mem_cons_self
      rw [cell?, cell?, Expr.truthWord] at hcell
      rw [truth, truth, hcell]
    simp only [Expr.rename, Expr.bind, hb]
  | number | text | countRows => rfl
  | paren e ih | negate e ih | cast e _ ih | call _ e ih | aggregate _ e ih =>
    simp only [Expr.rename, Expr.bind, ih ⟨h.columns, h.words, h.numbered⟩]
  | compare _ l r ihl ihr | like l r ihl ihr | ilike l r ihl ihr | arithmetic _ l r ihl ihr
  | member l r ihl ihr | call2 _ l r ihl ihr | lag l r ihl ihr =>
    obtain ⟨hl, hr⟩ := h.append (l := l) (r := r) rfl rfl
    simp only [Expr.rename, Expr.bind, ihl hl, ihr hr]

theorem mapM_rename {es : List (Expr Name)} (h : ∀ e ∈ es, Follows f s s' e) :
    (es.map (Expr.rename f)).mapM (s'.resolve items) = es.mapM (s.resolve items) := by
  induction es with
  | nil => rfl
  | cons e es ih =>
    obtain ⟨he, hes⟩ := List.forall_mem_cons.1 h
    rw [List.map_cons, List.mapM_cons, List.mapM_cons, resolve_rename he, ih hes]

theorem items_rename {ls : List (String × Expr Name)} (h : ∀ l ∈ ls, Follows f s s' l.2) :
    s'.items (.list (ls.map fun l => ⟨l.2.rename f, some l.1⟩)) =
      s.items (.list (ls.map fun l => ⟨l.2, some l.1⟩)) := by
  simp only [Scope.items]
  induction ls with
  | nil => rfl
  | cons l ls ih =>
    obtain ⟨hl, hls⟩ := List.forall_mem_cons.1 h
    rw [List.map_cons, List.map_cons, List.mapM_cons, List.mapM_cons, ih hls, resolve_rename hl]
    rfl

theorem groupKey_rename {e : Expr Name} (h : Follows f s s' e) :
    s'.groupKey items (e.rename f) = s.groupKey items e := by
  have hordinal : ordinal? items (e.rename f) = ordinal? items e := by
    cases e <;> rfl
  rw [groupKey, groupKey, hordinal, resolve_rename h]

/-- A selection has the same plan once all its columns are followed. -/
theorem plan_rename {t : Target} {schema : Schema} {cs : List (Expr Name)} {a : Analysis} {p : Plan}
    (hitems : ∀ l ∈ (a.label? t).toList ++ [a.value t schema], Follows f s s' l.2)
    (hconditions : ∀ e ∈ cs, Follows f s s' e) (hgroup : ∀ e ∈ a.grouping t, Follows f s s' e)
    (h : s.plan (a.data t schema cs) = .ok p) :
    s'.plan ((a.data t schema cs).rename f) = .ok p := by
  obtain ⟨all, conditions, orderBy, groupBy, hall, hcs, horder, hkey, hagg, rfl⟩ := plan_eq_ok.1 h
  have hnames : (named all).map Prod.fst =
      ((a.label? t).toList ++ [a.value t schema]).map fun l => some l.1 := by
    refine map_of_mapM (fun l i hi => ?_) (named_items hall)
    obtain ⟨e, -, rfl⟩ := map_eq_ok.1 hi
    rfl
  refine plan_eq_ok.2 ⟨all, conditions, orderBy, groupBy, ?_, ?_, ?_, ?_, hagg, rfl⟩
  · rw [← hall]
    simp only [Select.rename, Analysis.data, List.map_map]
    exact items_rename hitems
  · exact (mapM_rename hconditions).trans hcs
  · rw [← horder]
    -- an order goes by an item, so it needs no scope
    show (a.order.mapM fun k => (s'.orderKey (named all) k.1).map fun e => (e, k.2)) =
      a.order.mapM fun k => (s.orderKey (named all) k.1).map fun e => (e, k.2)
    rcases ho : a.order with - | k
    · rfl
    · obtain ⟨i, -, hi⟩ := exists_key hnames (k := k) ho
      simp only [Option.mapM_some, orderKey, hi]
  · rw [← hkey]
    show (a.grouping t |>.map (Expr.rename f)).mapM (s'.groupKey (named all)) =
      (a.grouping t).mapM (s.groupKey (named all))
    rcases hg : a.grouping t with - | e
    · rfl
    · rw [Option.map_some, Option.mapM_some, Option.mapM_some, groupKey_rename (hgroup e hg)]

end Scope

section Tables

variable {f : String → String} {rows : List Row} {r : Row}

def Column.rename (f : String → String) (c : Column) : Column := { c with name := f c.name }

/-- A name stands for the same column as another one did before if it is the name of the same. -/
theorem Scope.column?_rename {name name' : String} : ∀ {i : Nat} {cs : List Column},
    (∀ c ∈ cs, Text.sameAscii (f c.name) name' = Text.sameAscii c.name name) →
      column? name' i (cs.map (Column.rename f)) = column? name i cs
  | _, [], _ => rfl
  | i, c :: cs, h => by
    obtain ⟨hc, hcs⟩ := List.forall_mem_cons.1 h
    simp only [List.map_cons, column?, Column.rename, hc]
    split_ifs
    · rfl
    · exact column?_rename hcs

/-- A renaming of the columns of some rows that leaves them apart, case ignored. -/
structure Renames (f : String → String) (rows : List Row) : Prop where
  clean : ∀ r ∈ rows, ∀ c ∈ r.keys, '\x00' ∉ (f c).toList
  apart : ∀ r ∈ rows, ∀ r' ∈ rows, ∀ c ∈ r.keys, ∀ d ∈ r'.keys,
    Text.sameAscii (f c) (f d) = true → c = d

namespace Renames

theorem inj (h : Renames f rows) {r' : Row} (hr : r ∈ rows) (hr' : r' ∈ rows) {c d : String}
    (hc : c ∈ r.keys) (hd : d ∈ r'.keys) (he : f c = f d) : c = d :=
  h.apart r hr r' hr' c hc d hd (he ▸ Text.sameAscii_refl _)

theorem keys (h : Renames f rows) (hr : r ∈ rows) : (r.rename f).keys = r.keys.map f :=
  Row.keys_rename fun _ hc _ hd => h.inj hr hr hc hd

variable {first : Row} {rest : List Row}

theorem name_mem {c : Column} (hc : c ∈ Table.columnsOf (first :: rest)) : c.name ∈ first.keys := by
  obtain ⟨m, hm, rfl⟩ := List.mem_map.1 hc
  exact List.mem_map_of_mem hm

theorem columnsOf (h : Renames f (first :: rest)) :
    Table.columnsOf ((first :: rest).map (Row.rename f)) =
      (Table.columnsOf (first :: rest)).map (Column.rename f) := by
  have hcells := Row.cells_rename fun c hc d hd =>
    h.inj (r := first) List.mem_cons_self List.mem_cons_self hc hd
  simp only [List.map_cons, Table.columnsOf, hcells, List.map_map]
  rfl

/-- The records are the same under the other names. -/
theorem records (h : Renames f (first :: rest)) (name : String) :
    (Table.ofRows name ((first :: rest).map (Row.rename f))).records =
      (Table.ofRows name (first :: rest)).records := by
  simp only [Table.ofRows, h.columnsOf]
  rw [List.map_map]
  refine List.map_congr_left fun r hr => ?_
  simp only [Function.comp_apply, Table.record, List.map_map]
  refine List.map_congr_left fun c hc => ?_
  have hget : (r.rename f).get? (f c.name) = r.get? c.name :=
    Row.get?_rename (fun _ hd _ he => h.inj hr hr hd he)
      fun _ hd => h.inj hr List.mem_cons_self hd (name_mem hc)
  simp only [Function.comp_apply, Column.rename, hget]

theorem load_isOk (h : Renames f (first :: rest)) {name : String}
    (hload : ∃ s, Store.empty.load name (first :: rest) = .ok s) :
    ∃ s, Store.empty.load name ((first :: rest).map (Row.rename f)) = .ok s := by
  obtain ⟨hblank, hname, hreserved, hsome, hmakes⟩ := Store.load_isOk_iff.1 hload
  refine Store.load_isOk_iff.2 ⟨hblank, hname, hreserved, ?_, ?_⟩ <;> rw [h.columnsOf]
  · exact fun hnil => hsome (List.map_eq_nil_iff.1 hnil)
  · refine ⟨fun c hc => ?_, ?_, fun _ _ _ hn => absurd hn List.not_mem_nil, ?_⟩
    · obtain ⟨d, hd, rfl⟩ := List.mem_map.1 hc
      exact h.clean first List.mem_cons_self d.name (name_mem hd)
    · rw [List.length_map]
      exact hmakes.size
    · refine List.pairwise_map.2 (hmakes.distinct.imp_of_mem fun {a b} ha hb hapart => ?_)
      by_contra hsame
      have heq := h.apart first List.mem_cons_self first List.mem_cons_self _ (name_mem hb) _
        (name_mem ha) (Bool.not_eq_false _ ▸ hsame)
      rw [heq, Text.sameAscii_refl] at hapart
      cases hapart

end Renames

end Tables

end TableTalk
