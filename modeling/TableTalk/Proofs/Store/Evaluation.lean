import TableTalk.Proofs.Outcome
import TableTalk.Store.Selection
import Mathlib.Tactic.SplitIfs

/-!
# Selections that cannot fail

Few expressions fail on some record: one that matches a pattern that is too long, one that looks into
a document, and a bucket in front of the calendar. All others have a value in every frame if their
parts have (`Expr.Safe`). A plan of safe expressions gives a result over any records
(`Plan.run_isOk`): every frame that it makes has records of the table only (`Frame.Within`).
-/

namespace TableTalk

open Sql

/-- All records of a frame are such. -/
structure Frame.Within (P : Record → Prop) (f : Frame) : Prop where
  record : ∀ r ∈ f.record, P r
  group : ∀ r ∈ f.group, P r
  before : ∀ r ∈ f.before, P r

theorem Frame.within_single {P : Record → Prop} {r : Record} (h : P r) :
    (Frame.single r).Within P :=
  ⟨by rintro _ ⟨⟩; exact h, fun _ hs => List.mem_singleton.1 hs ▸ h, by rintro _ ⟨⟩⟩

theorem Frame.within_ofGroup {P : Record → Prop} {rs : List Record} (h : ∀ r ∈ rs, P r) :
    (Frame.ofGroup rs).Within P :=
  ⟨fun r hr => h r (List.mem_of_head? hr), h, by rintro _ ⟨⟩⟩

namespace Sql.Expr

variable {P : Record → Prop} {e l r : Expr Ref}

/-- An expression with a value in every frame of such records. -/
def Safe (P : Record → Prop) (e : Expr Ref) : Prop :=
  ∀ f : Frame, f.Within P → ∃ c, e.evaluate f = .ok c

theorem safe_column (n : Ref) : (column n).Safe P := fun _ _ => ⟨_, rfl⟩

theorem safe_number (s : String) : (number s).Safe P := fun _ _ => ⟨_, rfl⟩

theorem safe_text (s : String) : (text s).Safe P := fun _ _ => ⟨_, rfl⟩

theorem safe_truth (b : Bool) : (truth b).Safe P := fun _ _ => ⟨_, rfl⟩

theorem safe_countRows : countRows.Safe P := fun _ _ => ⟨_, rfl⟩

theorem Safe.paren (h : e.Safe P) : e.paren.Safe P := h

theorem Safe.negate (h : e.Safe P) : e.negate.Safe P := fun f hf => isOk_map (h f hf) _

theorem Safe.call (g : Function) (h : e.Safe P) : (e.call g).Safe P := fun f hf =>
  isOk_map (h f hf) _

theorem Safe.compare (op : Comparison) (hl : l.Safe P) (hr : r.Safe P) :
    (compare op l r).Safe P := fun f hf =>
  isOk_bind (hl f hf) fun _ _ => isOk_bind (hr f hf) fun _ _ => ⟨_, rfl⟩

theorem Safe.arithmetic (op : Arithmetic) (hl : l.Safe P) (hr : r.Safe P) :
    (arithmetic op l r).Safe P := fun f hf =>
  isOk_bind (hl f hf) fun _ _ => isOk_bind (hr f hf) fun _ _ => ⟨_, rfl⟩

/-- Of the functions of two values only the bucket of a date can fail. -/
theorem Safe.call2 {g : Function2} (hg : g ≠ .dateTrunc) (hl : l.Safe P) (hr : r.Safe P) :
    (call2 g l r).Safe P := fun f hf =>
  isOk_bind (hl f hf) fun a _ => isOk_bind (hr f hf) fun b _ => by
    cases g with
    | dateTrunc => exact absurd rfl hg
    | nullif => exact ⟨_, rfl⟩
    | round => exact ⟨_, rfl⟩

/-- A bucket has a value if the date of each record has one. -/
theorem safe_dateTrunc {g : String} (h : ∀ f : Frame, f.Within P → ∃ c, e.evaluate f = .ok c ∧
    ∃ d, Function2.dateTrunc.apply (.text g) c = .ok d) : (call2 .dateTrunc (text g) e).Safe P :=
  fun f hf => by
    obtain ⟨c, hc, d, hd⟩ := h f hf
    exact ⟨d, by rw [evaluate, hc]; exact hd⟩

/-- A pattern that is not too long is matched. -/
theorem Safe.like (hl : l.Safe P) {p : String} (hr : ∀ f, r.evaluate f = .ok (.text p))
    (hp : p.utf8ByteSize ≤ Cell.patternLimit) : (like l r).Safe P := fun f hf => by
  obtain ⟨a, ha⟩ := hl f hf
  rw [evaluate, ha, bind_ok, hr f, bind_ok, Cell.matching, Cell.shown, if_neg (Nat.not_lt.2 hp)]
  exact ⟨_, rfl⟩

/-- One that is too long is refused, whatever it is matched with. -/
theorem evaluate_like_long {f : Frame} {a : Cell} (hl : l.evaluate f = .ok a) {p : String}
    (hr : r.evaluate f = .ok (.text p)) (hp : Cell.patternLimit < p.utf8ByteSize) :
    (like l r).evaluate f = .error .longPattern := by
  rw [evaluate, hl, bind_ok, hr, bind_ok, Cell.matching, Cell.shown, if_pos hp]

theorem Safe.aggregate (g : AggregateFunction) (h : e.Safe P) : (aggregate g e).Safe P :=
  fun _ hf =>
    isOk_map (isOk_of_mapM fun r hr => h (.single r) (Frame.within_single (hf.group r hr))) _

theorem Safe.lag (o : Expr Ref) (h : e.Safe P) : (lag e o).Safe P := fun f hf => by
  rw [evaluate]
  split
  · exact ⟨_, rfl⟩
  · exact h _ (Frame.within_single (hf.before _ (by assumption)))

theorem allHold_isOk {x : Record} (hx : P x) : ∀ {es : List (Expr Ref)}, (∀ e ∈ es, e.Safe P) →
    ∃ b, allHold x es = .ok b
  | [], _ => ⟨true, rfl⟩
  | e :: es, h => by
    obtain ⟨c, hc⟩ := h e List.mem_cons_self _ (Frame.within_single hx)
    obtain ⟨b, hb⟩ := allHold_isOk hx fun d hd => h d (List.mem_cons_of_mem e hd)
    rw [allHold, hc, bind_ok]
    split_ifs
    · exact ⟨b, hb⟩
    · exact ⟨false, rfl⟩

end Sql.Expr

/-- A plan of such expressions. Frames go by the order of a window only where nothing is grouped. -/
structure Plan.Safe (P : Record → Prop) (p : Plan) : Prop where
  conditions : ∀ e ∈ p.conditions, e.Safe P
  items : ∀ e ∈ p.items, e.Safe P
  groupBy : ∀ e ∈ p.groupBy, e.Safe P
  orderBy : ∀ k ∈ p.orderBy, k.1.Safe P
  windows : (∀ e ∈ p.items, e.aggregate? = none) → ∀ e ∈ p.items, ∀ o ∈ e.lagOrder?, o.Safe P

namespace Plan

variable {P : Record → Prop} {p : Plan}

theorem selected_isOk (hc : ∀ e ∈ p.conditions, e.Safe P) : ∀ {rs : List Record},
    (∀ r ∈ rs, P r) → ∃ kept, p.selected rs = .ok kept ∧ ∀ r ∈ kept, P r
  | [], _ => ⟨[], rfl, by simp⟩
  | r :: rs, h => by
    obtain ⟨b, hb⟩ := Expr.allHold_isOk (h r List.mem_cons_self) hc
    obtain ⟨kept, hkept, hP⟩ := selected_isOk hc fun s hs => h s (List.mem_cons_of_mem r hs)
    refine ⟨if b then r :: kept else kept, by rw [selected, hb, bind_ok, hkept, bind_ok], ?_⟩
    split_ifs
    · exact List.forall_mem_cons.2 ⟨h r List.mem_cons_self, hP⟩
    · exact hP

theorem keyed_isOk {α : Type} {key : α → Except Fault Cell} {xs : List α}
    (h : ∀ x ∈ xs, ∃ c, key x = .ok c) : ∃ ks, keyed key xs = .ok ks :=
  isOk_of_mapM fun x hx => isOk_map (h x hx) _

theorem mem_of_keyed {α : Type} {key : α → Except Fault Cell} {xs : List α}
    {ks : List (Cell × α)} (h : keyed key xs = .ok ks) {k : Cell × α} (hk : k ∈ ks) : k.2 ∈ xs := by
  obtain ⟨x, hx, hkey⟩ := mem_of_mapM h k hk
  obtain ⟨c, -, rfl⟩ := map_eq_ok.1 hkey
  exact hx

theorem mem_sorted {α : Type} {o : SortOrder} {ks : List (Cell × α)} {k : Cell × α} :
    k ∈ sorted o ks ↔ k ∈ ks := List.mem_mergeSort

theorem mem_groups {o : SortOrder} {ks : List (Cell × Record)} {g : List Record}
    (hg : g ∈ groups o ks) {r : Record} (hr : r ∈ g) : ∃ k ∈ ks, k.2 = r := by
  unfold groups at hg
  obtain ⟨c, -, rfl⟩ := List.mem_map.1 hg
  obtain ⟨k, hk, rfl⟩ := List.mem_map.1 hr
  exact ⟨k, (List.mem_filter.1 hk).1, rfl⟩

theorem within_linked : ∀ {before : Option Record} {fs : List Frame}, (∀ r ∈ before, P r) →
    (∀ f ∈ fs, f.Within P) → ∀ f ∈ linked before fs, f.Within P
  | _, [], _, _, _, hf => by cases hf
  | before, g :: fs, hb, h, f, hf => by
    have hg := h g List.mem_cons_self
    rcases List.mem_cons.1 hf with rfl | hf
    · exact ⟨hg.record, hg.group, hb⟩
    · exact within_linked hg.record (fun f hf => h f (List.mem_cons_of_mem g hf)) f hf

/-- Frames have the records that they are made of. -/
theorem within_of_frames {rs : List Record} {fs : List Frame} (hrs : ∀ r ∈ rs, P r)
    (h : p.frames rs = .ok fs) : ∀ f ∈ fs, f.Within P := by
  intro f hf
  unfold frames at h
  split at h
  · obtain ⟨ks, hks, h⟩ := bind_eq_ok.1 h
    cases h
    obtain ⟨g, hgroup, rfl⟩ := List.mem_map.1 hf
    refine Frame.within_ofGroup fun r hr => ?_
    obtain ⟨k, hk, rfl⟩ := mem_groups hgroup hr
    exact hrs _ (mem_of_keyed hks hk)
  · split_ifs at h
    · cases h
      exact List.mem_singleton.1 hf ▸ Frame.within_ofGroup hrs
    split at h
    · cases h
      obtain ⟨r, hr, rfl⟩ := List.mem_map.1 hf
      exact Frame.within_single (hrs r hr)
    · obtain ⟨ks, hks, h⟩ := bind_eq_ok.1 h
      cases h
      refine within_linked (by rintro _ ⟨⟩) (fun g hg => ?_) f hf
      obtain ⟨k, hk, rfl⟩ := List.mem_map.1 hg
      exact Frame.within_single (hrs _ (mem_of_keyed hks (mem_sorted.1 hk)))

theorem frames_isOk (h : p.Safe P) {rs : List Record} (hrs : ∀ r ∈ rs, P r) :
    ∃ fs, p.frames rs = .ok fs := by
  have hkeyed : ∀ {e : Expr Ref}, e.Safe P →
      ∃ ks, keyed (fun r => e.evaluate (.single r)) rs = .ok ks := fun he =>
    keyed_isOk fun r hr => he _ (Frame.within_single (hrs r hr))
  unfold frames
  split
  · rename_i key hkey
    exact isOk_bind (hkeyed (h.groupBy key hkey)) fun _ _ => ⟨_, rfl⟩
  · split_ifs with hagg
    · exact ⟨_, rfl⟩
    have hnone : ∀ e ∈ p.items, e.aggregate? = none := by
      simpa using hagg
    split
    · exact ⟨_, rfl⟩
    · rename_i order horder
      obtain ⟨e, he, ho⟩ := List.exists_of_findSome?_eq_some horder
      exact isOk_bind (hkeyed (h.windows hnone e he order ho)) fun _ _ => ⟨_, rfl⟩

theorem mem_of_ordered {fs gs : List Frame} (h : p.ordered fs = .ok gs) {f : Frame} (hf : f ∈ gs) :
    f ∈ fs := by
  unfold ordered at h
  split at h
  · cases h
    exact hf
  · obtain ⟨ks, hks, h⟩ := bind_eq_ok.1 h
    cases h
    obtain ⟨k, hk, rfl⟩ := List.mem_map.1 hf
    exact mem_of_keyed hks (mem_sorted.1 hk)

theorem ordered_isOk (ho : ∀ k ∈ p.orderBy, k.1.Safe P) {fs : List Frame}
    (hfs : ∀ f ∈ fs, f.Within P) : ∃ gs, p.ordered fs = .ok gs := by
  unfold ordered
  split
  · exact ⟨fs, rfl⟩
  · rename_i e o hk
    exact isOk_bind (keyed_isOk fun f hf => ho _ hk f (hfs f hf)) fun _ _ => ⟨_, rfl⟩

theorem mem_limited {α : Type} {xs : List α} {x : α} (h : x ∈ p.limited xs) : x ∈ xs := by
  unfold limited at h
  split at h
  · exact List.mem_of_mem_take h
  · exact h

/-- The result of a plan does not fail behind its conditions if all else in it is safe. -/
theorem run_isOk_of_selected (h : ({ p with conditions := [] } : Plan).Safe P)
    {rs kept : List Record} (hkept : p.selected rs = .ok kept) (hP : ∀ r ∈ kept, P r) :
    ∃ out, p.run rs = .ok out := by
  obtain ⟨fs, hframes⟩ : ∃ fs, p.frames kept = .ok fs := frames_isOk h hP
  have hfs := within_of_frames hP hframes
  obtain ⟨gs, hordered⟩ : ∃ gs, p.ordered fs = .ok gs := ordered_isOk h.orderBy hfs
  have hrecord : ∀ f ∈ p.limited gs, ∃ cells, p.record f = .ok cells := fun f hf =>
    isOk_of_mapM fun e he => h.items e he f (hfs f (mem_of_ordered hordered (mem_limited hf)))
  obtain ⟨out, hout⟩ := isOk_of_mapM hrecord
  exact ⟨out, by rw [run, hkept, bind_ok, hframes, bind_ok, hordered, bind_ok, hout]⟩

/-- A plan of safe expressions has a result over any such records. -/
theorem run_isOk (h : p.Safe P) {rs : List Record} (hrs : ∀ r ∈ rs, P r) :
    ∃ out, p.run rs = .ok out := by
  obtain ⟨kept, hkept, hP⟩ := selected_isOk h.conditions hrs
  exact run_isOk_of_selected ⟨nofun, h.items, h.groupBy, h.orderBy, h.windows⟩ hkept hP

/-- Which records are kept depends on the conditions only. -/
theorem selected_congr {q : Plan} (h : p.conditions = q.conditions) :
    ∀ rs, p.selected rs = q.selected rs
  | [] => rfl
  | r :: rs => by rw [selected, selected, h, selected_congr h rs]

/-- Without conditions all records are kept. -/
theorem selected_all (h : p.conditions = []) : ∀ rs, p.selected rs = .ok rs
  | [] => rfl
  | r :: rs => by
    rw [selected, h, Expr.allHold, bind_ok, selected_all h rs]
    rfl

end Plan

end TableTalk
