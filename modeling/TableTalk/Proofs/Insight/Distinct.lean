import TableTalk.Proofs.Chart.Roles
import TableTalk.Proofs.Decimal.Spelling
import TableTalk.Proofs.Intent.Counting
import TableTalk.Proofs.Store.Figures

/-!
# Distinct values

How many distinct values a column has is said twice: among the headline figures, by the texts of the
cells, and by the number of groups of a distribution, by what the table stores for them. Both count
the same once they tell the same cells apart (`Cell.Kinds.length_eq`). They do so for cells that the
type of the column is made for, as long as no text is taken for nothing (`Json.Suits.category_eq_iff`).
-/

namespace TableTalk

theorem exists_map_eq {α β : Type} {f : α → β} {xs : List α} : ∀ {ys : List β},
    (∀ y ∈ ys, y ∈ xs.map f) → ∃ zs : List α, zs.map f = ys ∧ ∀ z ∈ zs, z ∈ xs
  | [], _ => ⟨[], rfl, nofun⟩
  | y :: ys, h => by
    obtain ⟨hy, hys⟩ := List.forall_mem_cons.1 h
    obtain ⟨x, hx, rfl⟩ := List.mem_map.1 hy
    obtain ⟨zs, rfl, hzs⟩ := exists_map_eq hys
    exact ⟨x :: zs, rfl, List.forall_mem_cons.2 ⟨hx, hzs⟩⟩

namespace Cell

/-- There are as many kinds of cells as names if both tell the same elements apart. -/
theorem Kinds.length_eq {α : Type} {xs : List α} {cell : α → Cell} {name : α → String}
    {kinds : List Cell} {names : List String} (hkinds : Kinds (xs.map cell) kinds)
    (hnames : Firsts (xs.map name) names)
    (h : ∀ x ∈ xs, ∀ y ∈ xs, name x = name y ↔ (cell x).same (cell y) = true) :
    kinds.length = names.length := by
  obtain ⟨zs, rfl, hzs⟩ := exists_map_eq hkinds.mem
  have hnodup : (zs.map name).Nodup := by
    refine List.pairwise_map.2 ((List.pairwise_map.1 hkinds.apart).imp_of_mem
      fun {x y} hx hy happart hname => ?_)
    rw [(h x (hzs x hx) y (hzs y hy)).1 hname] at happart
    cases happart
  have hmem : ∀ s, s ∈ zs.map name ↔ s ∈ names := by
    intro s
    rw [hnames.mem_iff]
    constructor
    · intro hs
      obtain ⟨z, hz, rfl⟩ := List.mem_map.1 hs
      exact List.mem_map_of_mem (hzs z hz)
    · intro hs
      obtain ⟨x, hx, rfl⟩ := List.mem_map.1 hs
      obtain ⟨v, hv, hsame⟩ := hkinds.cover _ (List.mem_map_of_mem hx)
      obtain ⟨z, hz, rfl⟩ := List.mem_map.1 hv
      exact List.mem_map.2 ⟨z, hz, (h z (hzs z hz) x hx).2 hsame⟩
  have hperm := (List.perm_ext_iff_of_nodup hnodup hnames.nodup).2 hmem
  rw [List.length_map, ← hperm.length_eq, List.length_map]

theorem same_text {s t : String} : (text s).same (text t) = true ↔ s = t := by
  have hcompare : (text s).compare (text t) = compareText s t := rfl
  rw [same_iff, hcompare, compareText]
  split_ifs with hlt heq
  · exact iff_of_false (by decide) fun he => String.lt_irrefl t (he ▸ hlt)
  · exact iff_of_true rfl heq
  · exact iff_of_false (by decide) heq

end Cell

/-- What a column keeps of a cell that is known by a text. -/
def Declared.known : Declared → String → Cell
  | boolean, s => if s = "true" then .int 1 else if s = "false" then .int 0 else .text s
  | _, s => .text s

namespace Declared

theorem same_known (type : Declared) (s t : String) :
    (type.known s).same (type.known t) = true ↔ s = t := by
  cases type with
  | boolean =>
    rw [known, known]
    split_ifs with hs hs' ht ht' ht ht'
    all_goals first
      | exact Cell.same_text
      | exact iff_of_true (by decide) (by simp_all)
      | exact iff_of_false Bool.false_ne_true (by simp_all [eq_comm])
  | double | varchar | integer | unnamed => exact Cell.same_text

/-- A text that spells neither a number nor a truth value is kept as it is. -/
theorem store_word {type : Declared} {s : String} (h : Cell.numeric? s = none) (htrue : s ≠ "true")
    (hfalse : s ≠ "false") : type.store (.text s) = type.known s := by
  cases type with
  | varchar => rfl
  | boolean => rw [store_text (by decide), h, known, if_neg htrue, if_neg hfalse]; rfl
  | double | integer | unnamed => rw [store_text (by decide), h]; rfl

theorem same_null_known (type : Declared) (s : String) :
    Cell.null.same (type.known s) = false := by
  cases type with
  | boolean => rw [known]; split_ifs <;> rfl
  | double | varchar | integer | unnamed => rfl

end Declared

namespace Decimal

theorem generalChars_ne_null : ∀ b : Binary, generalChars b ≠ "null".toList
  | .nan => by decide
  | .infinite negative => by cases negative <;> decide
  | .finite negative m e => by
    -- every layout of a finite number has a point or an exponent
    have hpoint : '.' ∈ generalChars (.finite negative m e) ∨
        'e' ∈ generalChars (.finite negative m e) := by
      have hmarked : ∀ d, '.' ∈ positionalMarked d := by
        intro d
        rw [positionalMarked]
        split <;> simp
      simp only [generalChars]
      split_ifs <;> simp [hmarked]
    intro h
    rw [h] at hpoint
    exact absurd hpoint (by decide)

end Decimal

namespace Json

/-- A missing cell, or one that is null. -/
def Void (v : Option Json) : Prop := v = none ∨ v = some .null

/-- A text that starts as an array or an object does. -/
def Bracketed (s : String) : Prop := s.toList.head? = some '[' ∨ s.toList.head? = some '\x7b'

instance (s : String) : Decidable (Bracketed s) := inferInstanceAs (Decidable (_ ∨ _))

theorem bracketed_arr (items : List Json) : Bracketed (arr items).compact := by
  simp [Bracketed, compact]

theorem bracketed_obj (members : List (String × Json)) : Bracketed (obj members).compact := by
  simp [Bracketed, compact]

theorem Bracketed.ne {s t : String} (h : Bracketed s) (ht : ¬Bracketed t) : s ≠ t :=
  fun hs => ht (hs ▸ h)

theorem Bracketed.numeric? {s : String} (h : Bracketed s) : Cell.numeric? s = none := by
  have hnone : Decimal.numericText? s.toList = none := by
    rcases h with h | h <;> obtain ⟨cs, hcs⟩ := List.head?_eq_some_iff.1 h <;> rw [hcs] <;> rfl
  rw [Cell.numeric?, hnone]
  rfl

/-- A cell of a kind that the type of its column is made for. -/
inductive Suits : Declared → Option Json → Prop
  | void {type : Declared} {v : Option Json} (h : Void v) : Suits type v
  | truth (b : Bool) : Suits .boolean (some (.bool b))
  | word (s : String) (h : Cell.numeric? s = none) (htrue : s ≠ "true") (hfalse : s ≠ "false") :
    Suits .boolean (some (.str s))
  | text (s : String) : Suits .varchar (some (.str s))
  | array {type : Declared} (items : List Json) : Suits type (some (.arr items))
  | object {type : Declared} (members : List (String × Json)) : Suits type (some (.obj members))
  | whole (n : Int) (h : Cell.fits n = true) : Suits .varchar (some (.int n))
  | double (x : Float) (h : Decimal.general x = doubleText x) : Suits .varchar (some (.double x))

theorem category_void {v : Option Json} (h : Void v) : category v = "null" := by
  rcases h with rfl | rfl <;> rfl

theorem store_void {type : Declared} {v : Option Json} (h : Void v) :
    type.store (.ofJson v) = .null := by
  rcases h with rfl | rfl <;> cases type <;> rfl

/-- The table keeps such a cell by the text that it is known by. -/
theorem Suits.store_eq {type : Declared} {v : Option Json} (h : Suits type v) (hv : ¬Void v) :
    type.store (.ofJson v) = type.known (category v) := by
  cases h with
  | void h => exact absurd h hv
  | truth b => cases b <;> rfl
  | word s h htrue hfalse => exact Declared.store_word h htrue hfalse
  | text => rfl
  | array items =>
    have h := bracketed_arr items
    exact Declared.store_word h.numeric? (h.ne (by decide)) (h.ne (by decide))
  | object members =>
    have h := bracketed_obj members
    exact Declared.store_word h.numeric? (h.ne (by decide)) (h.ne (by decide))
  | whole n h =>
    rw [Cell.ofJson, if_pos h]
    rfl
  | double x h => exact congrArg Cell.text h

theorem Suits.category_ne {type : Declared} {v : Option Json} (h : Suits type v) (hv : ¬Void v)
    (hnull : v ≠ some (.str "null")) : category v ≠ "null" := by
  cases h with
  | void h => exact absurd h hv
  | truth b => cases b <;> decide
  | text | word => exact fun hs => hnull (congrArg (some ∘ Json.str) hs)
  | array items => exact (bracketed_arr items).ne (by decide)
  | object members => exact (bracketed_obj members).ne (by decide)
  | whole n h =>
    intro hs
    have hnumber := Decimal.numericText?_toString n
    have hn : toString n = "null" := hs
    rw [hn, show Decimal.numericText? "null".toList = none by decide] at hnumber
    cases hnumber
  | double x h =>
    intro hs
    refine Decimal.generalChars_ne_null (.ofDouble x) ?_
    rw [← h.trans hs, Decimal.general, String.toList_ofList]

/-- What is stored for such cells tells them apart as their texts do, but for a text that is taken
for nothing. -/
theorem Suits.category_eq_iff {type : Declared} {v w : Option Json} (hv : Suits type v)
    (hw : Suits type w) (hvw : Void v → w ≠ some (.str "null"))
    (hwv : Void w → v ≠ some (.str "null")) :
    category v = category w ↔ (type.store (.ofJson v)).same (type.store (.ofJson w)) = true := by
  by_cases hvoid : Void v <;> by_cases hwoid : Void w
  · rw [category_void hvoid, category_void hwoid, store_void hvoid, store_void hwoid]
    exact iff_of_true rfl (Cell.same_refl _)
  · rw [category_void hvoid, store_void hvoid, hw.store_eq hwoid, Declared.same_null_known]
    exact iff_of_false (hw.category_ne hwoid (hvw hvoid)).symm Bool.false_ne_true
  · rw [category_void hwoid, store_void hwoid, hv.store_eq hvoid, Cell.same_comm,
      Declared.same_null_known]
    exact iff_of_false (hv.category_ne hvoid (hwv hwoid)) Bool.false_ne_true
  · rw [hv.store_eq hvoid, hw.store_eq hwoid, Declared.same_known]

end Json

namespace Insight

/-- The number of distinct values is the last of the figures. -/
theorem getLast_ofRows {rows : List Row} {schema : Schema} {column : String} (hrows : rows ≠ [])
    (hcolumn : (schema.columnsOf .text).head? = some column) :
    (ofRows rows schema).getLast? = some (unique rows column) := by
  have hlength : ∀ o : Option Insight, o.toList.length ≤ 1 := by
    intro o
    cases o <;> simp
  rw [ofRows, if_neg (by simpa using hrows), ofColumns, hcolumn, List.take_of_length_le]
  · exact List.getLast?_concat
  · have htotal := hlength ((schema.columnsOf .number).head?.map (total rows))
    have htop := hlength ((some column).bind fun t => (schema.columnsOf .number).head?.bind fun n =>
      top? rows t n)
    have haverage := hlength ((schema.columnsOf .number).head?.bind (average? rows))
    have hunique := hlength ((some column).map (unique rows))
    simp only [List.length_append, List.length_singleton, limit]
    omega

variable {first : Row} {rest : List Row} {column : String}

/-- The rows by their values in a column, counted. -/
def distribution (column : String) (confidence : Float) (reasoning : String) : Intent :=
  .analyze (.distribution "count" column) [] confidence reasoning

/-- A distribution has a group for each kind of what the table stores in its column. -/
theorem exists_distribution (hload : ∃ s, Store.empty.load defaultTable (first :: rest) = .ok s)
    (hcolumn : column ∈ first.keys) (confidence : Float) (reasoning : String) :
    ∃ text out kinds, (distribution column confidence reasoning).compile
        ⟨.directColumn, none, none⟩ (Profile.ofRows (first :: rest)) = .ok text ∧
      Store.executeOnce defaultTable (first :: rest) text = .ok out ∧
      Cell.Kinds ((first :: rest).map (first.stored · column)) kinds ∧
      out.length = min 20 kinds.length := by
  have hcontains : (Profile.ofRows (first :: rest)).contains column = true :=
    Profile.contains_ofRows.2 ⟨first, List.mem_cons_self, hcolumn⟩
  have hclean : Clean column := by
    obtain ⟨-, -, -, -, hmakes⟩ := Store.load_isOk_iff.1 hload
    obtain ⟨m, hm, rfl⟩ := List.mem_map.1 hcolumn
    have hmade : ⟨m.1, some (.ofCell (some m.2))⟩ ∈ Table.columnsOf (first :: rest) :=
      List.mem_map_of_mem hm
    exact hmakes.clean _ hmade
  have hcompile : ((Intent.analyze (.distribution "count" column) [] 1 "").compile
      ⟨.directColumn, none, none⟩ (Profile.ofRows (first :: rest))).toOption.isSome = true := by
    rw [Intent.compile, Intent.query_eq_ok.2 ⟨fun d hd => ?_, rfl⟩]
    · rfl
    · cases List.mem_singleton.1 (show d ∈ [column] from hd)
      exact hcontains
  obtain ⟨text, out, htext, hout⟩ := Intent.exists_unfiltered hload hcompile rfl
    (List.forall_mem_cons.2 ⟨by decide, List.forall_mem_singleton.2 hclean⟩)
    (List.forall_mem_singleton.2 ⟨first, rfl, hcolumn⟩)
  obtain ⟨_, _, _, _, ⟨⟩, -, rfl⟩ := Intent.exists_analyze htext
  have hclear : ∀ f ∈ ([] : List Filter), f.Clear first := nofun
  obtain ⟨kinds, hkinds, rfl, -⟩ := Intent.execute_distribution (t := ⟨.directColumn, none, none⟩)
    rfl hclear (by decide) hcolumn hout
  have hmatching : first.matching rest [] = first :: rest :=
    List.filter_eq_self.2 fun row _ => rfl
  rw [hmatching] at hkinds
  refine ⟨_, _, kinds, htext, hout, hkinds, ?_⟩
  rw [List.length_take, List.length_map]

/-- The first column of texts has as many distinct values in the headline figures as groups in a
distribution, if they are no more than a distribution shows and the texts of two cells are equal
exactly where the table stores the same for them. That is so if each cell is what the type of the
column is made for and no text is taken for a missing cell. -/
theorem unique_distribution (hload : ∃ s, Store.empty.load defaultTable (first :: rest) = .ok s)
    (hcolumn : ((Profile.ofRows (first :: rest)).columnsOf .text).head? = some column)
    (confidence : Float) (reasoning : String) :
    ∃ text out names kinds, (distribution column confidence reasoning).compile
        ⟨.directColumn, none, none⟩ (Profile.ofRows (first :: rest)) = .ok text ∧
      Store.executeOnce defaultTable (first :: rest) text = .ok out ∧
      (ofRows (first :: rest) (Profile.ofRows (first :: rest))).getLast? =
        some (unique (first :: rest) column) ∧
      Firsts ((first :: rest).map (·.category column)) names ∧
      (unique (first :: rest) column).value = toString names.length ∧
      Cell.Kinds ((first :: rest).map (first.stored · column)) kinds ∧
      out.length = min 20 kinds.length ∧
      (names.length ≤ 20 →
        (∀ row ∈ first :: rest, ∀ other ∈ first :: rest,
          row.category column = other.category column ↔
            (first.stored row column).same (first.stored other column) = true) →
        (unique (first :: rest) column).value = toString out.length) ∧
      (names.length ≤ 20 →
        (∀ row ∈ first :: rest, Json.Suits (.ofCell (first.get? column)) (row.get? column)) →
        ((∃ row ∈ first :: rest, Json.Void (row.get? column)) →
          ∀ row ∈ first :: rest, row.get? column ≠ some (.str "null")) →
        (unique (first :: rest) column).value = toString out.length) := by
  have hkeys : column ∈ first.keys := by
    have hmem := List.mem_of_head? hcolumn
    rw [Profile.columnsOf_of_known (by decide)] at hmem
    exact (List.mem_filter.1 hmem).1
  obtain ⟨text, out, kinds, htext, hout, hkinds, hlength⟩ :=
    exists_distribution hload hkeys confidence reasoning
  have hnames : Firsts ((first :: rest).map (·.category column)) _ := Profile.firsts_fresh _
  have hequal : distinctCount (first :: rest) column ≤ 20 →
      (∀ row ∈ first :: rest, ∀ other ∈ first :: rest,
        row.category column = other.category column ↔
          (first.stored row column).same (first.stored other column) = true) →
      (unique (first :: rest) column).value = toString out.length := by
    intro hfew hagree
    have hcount : kinds.length = distinctCount (first :: rest) column :=
      hkinds.length_eq hnames hagree
    rw [hlength, hcount, Nat.min_eq_right hfew]
    rfl
  refine ⟨text, out, _, kinds, htext, hout, getLast_ofRows (List.cons_ne_nil _ _) hcolumn, hnames,
    rfl, hkinds, hlength, hequal, fun hfew hsuits hnull => hequal hfew fun row hrow other hother => ?_⟩
  exact (hsuits row hrow).category_eq_iff (hsuits other hother)
    (fun hvoid => hnull ⟨row, hrow, hvoid⟩ other hother)
    fun hvoid => hnull ⟨other, hother, hvoid⟩ row hrow

/-- Texts, numbers and missing cells in a column of texts. -/
def mixture : List Row := [⟨[("c", .str "x")], by decide⟩, ⟨[("c", .null)], by decide⟩,
  ⟨[("c", .int 7)], by decide⟩, ⟨[("c", .str "7")], by decide⟩, Row.empty,
  ⟨[("c", .double 1.5)], by decide⟩, ⟨[("c", .str "1.5")], by decide⟩]

theorem unique_distribution_mixture : ∃ text out,
    (distribution "c" 1 "").compile ⟨.directColumn, none, none⟩ (Profile.ofRows mixture) =
      .ok text ∧
    Store.executeOnce defaultTable mixture text = .ok out ∧
    (ofRows mixture (Profile.ofRows mixture)).getLast? =
      some ⟨.comparison, "Unique c", "Number of distinct c values", "4"⟩ ∧
    "4" = toString out.length := by
  have hload : ∃ s, Store.empty.load defaultTable mixture = .ok s := Store.load_default (by decide)
  have hcolumn : ((Profile.ofRows mixture).columnsOf .text).head? = some "c" := by decide
  obtain ⟨text, out, names, kinds, htext, hout, hlast, hnames, hvalue, -, -, -, hequal⟩ :=
    unique_distribution hload hcolumn 1 ""
  have hcount : distinctCount mixture "c" = 4 := by decide +kernel
  have hfew : names.length ≤ 20 := by
    rw [hnames.unique (Profile.firsts_fresh _)]
    exact hcount.trans_le (by decide)
  have hsuits : ∀ row ∈ mixture, Json.Suits .varchar (row.get? "c") := by
    simp only [mixture, List.forall_mem_cons]
    exact ⟨.text "x", .void (.inr rfl), .whole 7 (by decide), .text "7", .void (.inl rfl),
      .double 1.5 (by decide +kernel), .text "1.5", List.forall_mem_nil _⟩
  have hnull : ∀ row ∈ mixture, row.get? "c" ≠ some (.str "null") := by
    simp only [mixture, List.forall_mem_cons]
    exact ⟨by simp [Row.get?], by simp [Row.get?], by simp [Row.get?], by simp [Row.get?],
      by simp [Row.get?, Row.empty], by simp [Row.get?], by simp [Row.get?], List.forall_mem_nil _⟩
  have hunique : unique mixture "c" =
      ⟨.comparison, "Unique c", "Number of distinct c values", "4"⟩ := by
    rw [unique, hcount]
    rfl
  exact ⟨text, out, htext, hout, hlast.trans (congrArg some hunique),
    (congrArg Insight.value hunique).symm.trans (hequal hfew hsuits fun _ => hnull)⟩

/-- A number is a truth value to the column, but has a text of its own. -/
def flags : List Row := [⟨[("flag", .bool true)], by decide⟩, ⟨[("flag", .int 1)], by decide⟩]

theorem unique_distribution_flags : ∃ text out,
    (∃ s, Store.empty.load defaultTable flags = .ok s) ∧
    ((Profile.ofRows flags).columnsOf .text).head? = some "flag" ∧
    (distribution "flag" 1 "").compile ⟨.directColumn, none, none⟩ (Profile.ofRows flags) =
      .ok text ∧
    Store.executeOnce defaultTable flags text = .ok out ∧
    (ofRows flags (Profile.ofRows flags)).getLast? =
      some ⟨.comparison, "Unique flag", "Number of distinct flag values", "2"⟩ ∧ out.length = 1 := by
  have hload : ∃ s, Store.empty.load defaultTable flags = .ok s := Store.load_default (by decide)
  have hcolumn : "flag" ∈ flags[0].keys := by decide
  obtain ⟨text, out, kinds, htext, hout, hkinds, hlength⟩ :=
    exists_distribution hload hcolumn 1 ""
  have hnames : Firsts (flags.map fun _ => "") [""] := Profile.firsts_fresh _
  have hone : kinds.length = 1 := hkinds.length_eq hnames (by decide)
  exact ⟨text, out, hload, by decide, htext, hout, by decide, by rw [hlength, hone]; rfl⟩

end Insight

end TableTalk
