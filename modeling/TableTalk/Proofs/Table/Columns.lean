import Mathlib.Data.List.Induction
import TableTalk.Proofs.Store.Loading
import TableTalk.Proofs.Table.Rows

/-!
# The columns of a profile

A list has one list of what first occurs in it (`Firsts.unique`), and the columns of a profile are
that of the keys of its rows (`Profile.firsts_fresh`). Each has the type that its cell in the first
row gives it (`Profile.ofRows_eq`). So a later row can add columns of unknown type and do nothing
else, and a sample of one row is as good as all rows (`Profile.ofRows_determined`).
-/

namespace TableTalk

/-- `ys` has what occurs in `xs`, each element once, in order of first occurrence. -/
structure Firsts (xs ys : List String) : Prop where
  nodup : ys.Nodup
  mem_iff : ∀ x, x ∈ ys ↔ x ∈ xs
  order : ys.Pairwise fun x y => xs.idxOf x < xs.idxOf y

namespace Firsts

variable {xs ys zs : List String}

theorem nil : Firsts [] [] := ⟨.nil, by simp, .nil⟩

/-- One more element is listed behind all others, unless it is listed already. -/
theorem concat (h : Firsts xs ys) (x : String) :
    Firsts (xs ++ [x]) (if x ∈ xs then ys else ys ++ [x]) := by
  have hidx : ∀ y ∈ ys, (xs ++ [x]).idxOf y = xs.idxOf y := fun y hy =>
    List.idxOf_append_of_mem ((h.mem_iff y).1 hy)
  have horder : ys.Pairwise fun y z => (xs ++ [x]).idxOf y < (xs ++ [x]).idxOf z :=
    h.order.imp_of_mem fun {y z} hy hz hlt => by rwa [hidx y hy, hidx z hz]
  split_ifs with hx
  · refine ⟨h.nodup, fun y => ?_, horder⟩
    rw [h.mem_iff, List.mem_append, List.mem_singleton]
    exact ⟨.inl, fun hy => hy.elim id fun he => he ▸ hx⟩
  · have hnew : x ∉ ys := fun hy => hx ((h.mem_iff x).1 hy)
    refine ⟨(List.perm_append_singleton x ys).nodup_iff.2 (h.nodup.cons hnew), fun y => ?_, ?_⟩
    · rw [List.mem_append, List.mem_append, h.mem_iff]
    · refine List.pairwise_append.2 ⟨horder, List.pairwise_singleton _ _, fun y hy z hz => ?_⟩
      have hlt : xs.idxOf y < xs.length := List.idxOf_lt_length_of_mem ((h.mem_iff y).1 hy)
      rw [List.mem_singleton.1 hz, hidx y hy, List.idxOf_append_of_notMem hx]
      omega

theorem unique (h : Firsts xs ys) (h' : Firsts xs zs) : ys = zs := by
  have hperm : ys.Perm zs := (List.perm_ext_iff_of_nodup h.nodup h'.nodup).2 fun x =>
    (h.mem_iff x).trans (h'.mem_iff x).symm
  exact hperm.eq_of_pairwise (fun x y _ _ hxy hyx => absurd hxy (Nat.lt_asymm hyx)) h.order h'.order

end Firsts

/-- The elements by what a function says of them, for all that it says. -/
theorem perm_flatMap_filter {α β : Type} [DecidableEq β] (f : α → β) :
    ∀ {names : List β} (xs : List α), names.Nodup → (∀ x ∈ xs, f x ∈ names) →
      (names.flatMap fun n => xs.filter fun x => f x = n).Perm xs
  | [], xs, _, h => by
    rw [List.eq_nil_iff_forall_not_mem.2 fun x hx => List.not_mem_nil (h x hx)]
    exact .nil
  | n :: names, xs, hnodup, h => by
    obtain ⟨hn, hnames⟩ := List.nodup_cons.1 hnodup
    have hrest : ∀ m ∈ names, (xs.filter fun x => f x = m) =
        (xs.filter fun x => !decide (f x = n)).filter fun x => f x = m := fun m hm => by
      rw [List.filter_filter]
      refine List.filter_congr fun x _ => ?_
      have hne : m ≠ n := fun e => hn (e ▸ hm)
      by_cases hx : f x = m
      · simp [hx, hne]
      · simp [hx]
    have hsplit := perm_flatMap_filter f (xs.filter fun x => !decide (f x = n)) hnames
      fun x hx => by
        obtain ⟨hmem, hx⟩ := List.mem_filter.1 hx
        exact (List.mem_cons.1 (h x hmem)).resolve_left (by simpa using hx)
    rw [List.flatMap_cons, List.flatMap_congr hrest]
    exact (hsplit.append_left _).trans (List.filter_append_perm _ xs)

namespace Schema

theorem retype_of_notMem {name : String} (type : ColumnType) :
    ∀ {types : List (String × ColumnType)}, name ∉ types.map Prod.fst →
      retype name type types = types ++ [(name, type)]
  | [], _ => rfl
  | (n, t) :: types, h => by
    rw [List.map_cons, List.mem_cons, not_or] at h
    rw [retype, if_neg fun e => h.1 e.symm, retype_of_notMem type h.2, List.cons_append]

theorem contains_iff {s : Schema} {name : String} :
    s.contains name = true ↔ name ∈ s.types.map Prod.fst := by
  simp [contains]

/-- Pairs with names of their own are kept as they are. -/
theorem ofPairs_eq {pairs : List (String × ColumnType)} (h : (pairs.map Prod.fst).Nodup) :
    ofPairs pairs = ⟨pairs.map Prod.fst, pairs⟩ := by
  induction pairs using List.reverseRecOn with
  | nil => rfl
  | append_singleton pairs p ih =>
    rw [List.map_append] at h
    have hnew : p.1 ∉ pairs.map Prod.fst := fun hp =>
      List.disjoint_of_nodup_append h hp List.mem_cons_self
    have hcontains : (⟨pairs.map Prod.fst, pairs⟩ : Schema).contains p.1 = false := by
      rw [← Bool.not_eq_true, contains_iff]
      exact hnew
    have hconcat : ofPairs (pairs ++ [p]) = (ofPairs pairs).insert p.1 p.2 := by
      rw [ofPairs, List.foldl_append]
      rfl
    rw [hconcat, ih h.of_append_left, insert, hcontains, retype_of_notMem _ hnew, List.map_append]
    rfl

end Schema

namespace Profile

variable {rows : List Row} {c : String}

theorem fresh_concat (x : String) : ∀ (xs seen : List String), fresh seen (xs ++ [x]) =
    if x ∈ seen ∨ x ∈ xs then fresh seen xs else fresh seen xs ++ [x]
  | [], seen => by
    by_cases hx : x ∈ seen <;> simp [fresh, hx]
  | y :: xs, seen => by
    rw [List.cons_append, fresh, fresh, fresh_concat x xs, fresh_concat x xs]
    by_cases hy : y ∈ seen
    · have hiff : x ∈ seen ∨ x ∈ y :: xs ↔ x ∈ seen ∨ x ∈ xs := by
        rw [List.mem_cons]
        constructor
        · rintro (hx | rfl | hx)
          · exact .inl hx
          · exact .inl hy
          · exact .inr hx
        · rintro (hx | hx)
          · exact .inl hx
          · exact .inr (.inr hx)
      simp only [if_pos hy, hiff]
    · have hiff : x ∈ y :: seen ∨ x ∈ xs ↔ x ∈ seen ∨ x ∈ y :: xs := by
        rw [List.mem_cons, List.mem_cons, or_assoc, or_left_comm]
      simp only [if_neg hy, hiff]
      split_ifs <;> rfl

theorem firsts_fresh (xs : List String) : Firsts xs (fresh [] xs) := by
  induction xs using List.reverseRecOn with
  | nil => exact .nil
  | append_singleton xs x ih =>
    have hconcat := ih.concat x
    rw [fresh_concat]
    simpa using hconcat

/-- Elements without repetition stand in front of what comes behind them. -/
theorem fresh_append : ∀ {xs seen : List String} (ys : List String), xs.Nodup →
    (∀ x ∈ xs, x ∉ seen) → ∃ later, fresh seen (xs ++ ys) = xs ++ later ∧ ∀ y ∈ later, y ∉ xs
  | [], seen, ys, _, _ => ⟨fresh seen ys, rfl, nofun⟩
  | x :: xs, seen, ys, hnodup, hseen => by
    obtain ⟨hx, hxs⟩ := List.nodup_cons.1 hnodup
    obtain ⟨hxseen, hrest⟩ := List.forall_mem_cons.1 hseen
    have hfresh : ∀ z ∈ xs, z ∉ x :: seen := fun z hz => by
      rw [List.mem_cons, not_or]
      exact ⟨fun e => hx (e ▸ hz), hrest z hz⟩
    obtain ⟨later, heq, hlater⟩ := fresh_append ys hxs hfresh
    refine ⟨later, ?_, fun y hy => ?_⟩
    · rw [List.cons_append, fresh, if_neg hxseen, heq, List.cons_append]
    · have hnotSeen : y ∉ x :: seen := (mem_fresh.1 (heq ▸ List.mem_append_right xs hy)).2
      rw [List.mem_cons, not_or] at hnotSeen ⊢
      exact ⟨hnotSeen.1, hlater y hy⟩

theorem columnNames_cons (first : Row) (rest : List Row) : ∃ later,
    columnNames (first :: rest) = first.keys ++ later ∧ ∀ c ∈ later, c ∉ first.keys := by
  rw [columnNames, List.flatMap_cons]
  exact fresh_append _ first.nodup fun _ _ => List.not_mem_nil

theorem ofColumns_eq {columns : List String} (h : columns.Nodup) (sample : List Row) :
    ofColumns columns sample = ⟨columns, columns.map fun c => (c, columnType sample c)⟩ := by
  have hnames : (columns.map fun c => (c, columnType sample c)).map Prod.fst = columns := by
    rw [List.map_map]
    exact List.map_id columns
  rw [ofColumns, Schema.ofPairs_eq (hnames.symm ▸ h), hnames]

theorem ofRows_eq (rows : List Row) : ofRows rows =
    ⟨columnNames rows, (columnNames rows).map fun c => (c, columnType rows c)⟩ :=
  ofColumns_eq (firsts_fresh _).nodup rows

theorem ofSample_eq (rows : List Row) (size : Nat) : ofSample rows size =
    ⟨columnNames rows, (columnNames rows).map fun c => (c, columnType (rows.take size) c)⟩ :=
  ofColumns_eq (firsts_fresh _).nodup _

theorem columnType_eq (rows : List Row) (c : String) : columnType rows c =
    ((rows.head?.bind fun first => first.get? c).map cellType).getD .unknown := by
  cases rows <;> rfl

theorem columns_ofRows (rows : List Row) : (ofRows rows).columns = columnNames rows := by
  rw [ofRows_eq]

theorem lookup_map {α : Type} (f : String → α) : ∀ columns : List String,
    (columns.map fun c => (c, f c)).lookup c = if c ∈ columns then some (f c) else none
  | [] => rfl
  | d :: columns => by
    rw [List.map_cons, List.lookup_cons, lookup_map f columns]
    by_cases h : c = d
    · simp [h]
    · simp [beq_eq_false_iff_ne.2 h, h]

theorem type?_ofRows : (ofRows rows).type? c =
    if c ∈ columnNames rows then some (columnType rows c) else none := by
  rw [ofRows_eq]
  exact lookup_map _ _

theorem type?_ofSample {size : Nat} : (ofSample rows size).type? c =
    if c ∈ columnNames rows then some (columnType (rows.take size) c) else none := by
  rw [ofSample_eq]
  exact lookup_map _ _

theorem ofRows_congr {rows' : List Row} (hhead : rows'.head? = rows.head?)
    (hnames : columnNames rows' = columnNames rows) : ofRows rows' = ofRows rows := by
  have htypes : columnType rows' = columnType rows := by
    funext c
    rw [columnType_eq, columnType_eq, hhead]
  rw [ofRows_eq, ofRows_eq, hnames, htypes]

theorem ofSample_of_pos {size : Nat} (h : 1 ≤ size) : ofSample rows size = ofRows rows := by
  have htypes : columnType (rows.take size) = columnType rows := by
    funext c
    rw [columnType_eq, columnType_eq, List.head?_take, if_neg (by omega)]
  rw [ofSample_eq, ofRows_eq, htypes]

/-- A column of known type has a cell in the first row. -/
theorem exists_first (h : columnType rows c ≠ .unknown) :
    ∃ first rest, rows = first :: rest ∧ c ∈ first.keys := by
  cases rows with
  | nil => exact absurd rfl h
  | cons first rest =>
    rw [columnType_eq, List.head?_cons, Option.bind_some] at h
    rcases hv : first.get? c with - | v
    · rw [hv] at h
      exact absurd rfl h
    · exact ⟨first, rest, rfl, Row.mem_keys_of_get? hv⟩

/-- What the profile of some rows depends on: their keys in order of first occurrence, and the
cells of the first row. -/
theorem ofRows_determined (rows : List Row) :
    Firsts (rows.flatMap Row.keys) (ofRows rows).columns ∧
      (∀ c ∈ (ofRows rows).columns, (ofRows rows).type? c =
        some (((rows.head?.bind fun first => first.get? c).map cellType).getD .unknown)) ∧
      (∀ rows' columns, rows'.head? = rows.head? → Firsts (rows.flatMap Row.keys) columns →
        Firsts (rows'.flatMap Row.keys) columns → ofRows rows' = ofRows rows) ∧
      (∀ size, 1 ≤ size → ofSample rows size = ofRows rows) ∧
      ((ofSample rows 0).columns = (ofRows rows).columns ∧
        ∀ c ∈ (ofRows rows).columns, (ofSample rows 0).type? c = some .unknown) ∧
      ∀ c type, (ofRows rows).type? c = some type → type ≠ .unknown →
        ∃ first rest, rows = first :: rest ∧ c ∈ first.keys ∧
          ∀ s s' name, Store.load s name rows = .ok s' →
            ∃ t, s'.table? name = some t ∧ c ∈ t.columns.map Column.name := by
  rw [columns_ofRows]
  refine ⟨firsts_fresh _, fun c hc => ?_, fun rows' columns hhead hfirsts hfirsts' => ?_,
    fun size hsize => ofSample_of_pos hsize, ⟨?_, fun c hc => ?_⟩, fun c type htype hknown => ?_⟩
  · rw [type?_ofRows, if_pos hc, columnType_eq]
  · exact ofRows_congr hhead
      (((firsts_fresh _).unique hfirsts').trans ((firsts_fresh _).unique hfirsts).symm)
  · rw [ofSample_eq]
  · rw [type?_ofSample, if_pos hc]
    rfl
  · rw [type?_ofRows, Option.ite_none_right_eq_some, Option.some.injEq] at htype
    obtain ⟨first, rest, rfl, hc⟩ := exists_first (htype.2 ▸ hknown)
    refine ⟨first, rest, rfl, hc, fun s s' name hload => ⟨_, Store.table?_of_load hload, ?_⟩⟩
    simpa [Table.ofRows, Table.columnsOf, Row.keys] using hc

/-- Later rows with other cells, and in another number. -/
theorem ofRows_determined_ragged : ∃ first r r' r'' : Row,
    first.cells = [("a", .str "10"), ("b", .null)] ∧ r.cells = [("a", .str "x"), ("c", .int 1)] ∧
      r'.cells = [("c", .str "2024-01-01")] ∧ r''.cells = [("b", .int 2), ("a", .null)] ∧
      ofRows [first, r', r''] = ofRows [first, r] := by
  let first : Row := ⟨[("a", .str "10"), ("b", .null)], by decide⟩
  let r : Row := ⟨[("a", .str "x"), ("c", .int 1)], by decide⟩
  let r' : Row := ⟨[("c", .str "2024-01-01")], by decide⟩
  let r'' : Row := ⟨[("b", .int 2), ("a", .null)], by decide⟩
  have hfirsts : Firsts ([first, r].flatMap Row.keys) ["a", "b", "c"] := firsts_fresh _
  have hfirsts' : Firsts ([first, r', r''].flatMap Row.keys) ["a", "b", "c"] := firsts_fresh _
  exact ⟨first, r, r', r'', rfl, rfl, rfl, rfl,
    (ofRows_determined [first, r]).2.2.1 _ _ rfl hfirsts hfirsts'⟩

end Profile

end TableTalk
