import TableTalk.Proofs.Intent.Labels
import TableTalk.Proofs.Intent.Periods

/-!
# Buckets in the order of their texts

A later moment has the same bucket or a later one (`Grain.start?_mono`). Results list buckets in the
order of their texts, which is that of time as long as the years are spelled in their order. So a
result of years with four digits is chronological, and where it is cut off it keeps the earliest
buckets (`Intent.execute_chronological`).
-/

namespace TableTalk

open Sql

namespace Date

variable {d e : Date} {shown hidden : List Date}

theorem not_spelledBefore_self (y : Int) : ¬SpelledBefore y y := by
  unfold SpelledBefore
  omega

/-- Two years are spelled in their order, if they are not the same. -/
def SpelledInOrder (y z : Int) : Prop :=
  (y < z ↔ SpelledBefore y z) ∧ (z < y ↔ SpelledBefore z y)

theorem spelledInOrder_self (y : Int) : SpelledInOrder y y :=
  ⟨iff_of_false (lt_irrefl y) (not_spelledBefore_self y),
    iff_of_false (lt_irrefl y) (not_spelledBefore_self y)⟩

theorem spelledInOrder_of_digits {y z : Int} (hy : 0 ≤ y ∧ y ≤ 9999) (hz : 0 ≤ z ∧ z ≤ 9999) :
    SpelledInOrder y z :=
  ⟨(spelledBefore_iff hy hz).symm, (spelledBefore_iff hz hy).symm⟩

/-- Days in the order of their texts are in order exactly if their years are spelled so. -/
theorem before_iff_of_render_lt (h : d.render < e.render) :
    d.Before e ↔ SpelledInOrder d.year e.year := by
  have hnot : ¬SpelledBefore e.year d.year := fun hspelled =>
    lt_irrefl _ (h.trans (render_lt_iff_spelled.2 (.inl hspelled)))
  rcases render_lt_iff_spelled.1 h with hspelled | ⟨hyear, hrest⟩
  · have hne : d.year ≠ e.year := fun hyear => hnot (hyear ▸ hyear ▸ hspelled)
    rw [SpelledInOrder, iff_true_right hspelled, iff_false_right hnot, Before]
    omega
  · rw [hyear]
    exact iff_of_true (.inr ⟨hyear, hrest⟩) (spelledInOrder_self _)

/-- A later day has a later text exactly if the years are spelled in their order. -/
theorem render_le_iff (h : ¬e.Before d) :
    d.render ≤ e.render ↔ SpelledInOrder d.year e.year := by
  rcases lt_trichotomy d.render e.render with hlt | heq | hgt
  · have hde : d.Before e := by
      rcases before_trichotomy d e with hde | rfl | hed
      · exact hde
      · exact absurd hlt (lt_irrefl _)
      · exact absurd hed h
    exact iff_of_true hlt.le ((before_iff_of_render_lt hlt).1 hde)
  · rw [render_inj heq]
    exact iff_of_true le_rfl (spelledInOrder_self _)
  · exact iff_of_false hgt.not_ge fun horder =>
      h ((before_iff_of_render_lt hgt).2 ⟨horder.2, horder.1⟩)

/-- A list in the order of texts is in the order of time, and is cut so, exactly if the years of what
is shown are spelled in order beside all others. -/
theorem chronological_iff (h : (shown ++ hidden).Pairwise fun d e => d.render < e.render) :
    (shown.Pairwise Before ∧ ∀ d ∈ shown, ∀ e ∈ hidden, d.Before e) ↔
      ∀ d ∈ shown, ∀ e ∈ shown ++ hidden, SpelledInOrder d.year e.year := by
  obtain ⟨hshown, -, hacross⟩ := List.pairwise_append.1 h
  constructor
  · rintro ⟨hbefore, hcut⟩ d hd e he
    rcases List.mem_append.1 he with he | he
    · have hpairs : shown.Pairwise fun d e => SpelledInOrder d.year e.year :=
        (hbefore.and hshown).imp fun hboth => (before_iff_of_render_lt hboth.2).1 hboth.1
      have hsymm : Std.Symm fun d e : Date => SpelledInOrder d.year e.year :=
        ⟨fun _ _ hde => And.symm hde⟩
      exact hpairs.forall_of_forall (fun d _ => spelledInOrder_self d.year) hd he
    · exact (before_iff_of_render_lt (hacross d hd e he)).1 (hcut d hd e he)
  · intro hyears
    refine ⟨hshown.imp_of_mem fun hd he hlt => ?_, fun d hd e he => ?_⟩
    · exact (before_iff_of_render_lt hlt).2 (hyears _ hd _ (List.mem_append_left _ he))
    · exact (before_iff_of_render_lt (hacross d hd e he)).2
        (hyears d hd e (List.mem_append_right _ he))

end Date

namespace Grain

variable {g : Grain} {d e b c : Date}

/-- A later day is in the same bucket or in a later one. -/
theorem start?_mono (hd : g.start? d = some b) (he : g.start? e = some c) (h : ¬e.Before d) :
    ¬c.Before b := by
  intro hcb
  obtain ⟨hb, hshares⟩ := starts_of_start? hd
  obtain ⟨-, hshares'⟩ := starts_of_start? he
  have heb := hb.lt hcb hshares'
  have hle := hb.le hshares
  rw [Date.before_iff] at h heb hle
  omega

end Grain

/-- Whether a moment comes before another. -/
def Timestamp.Before (t u : Timestamp) : Prop :=
  t.date.Before u.date ∨ t.date = u.date ∧ (t.hour < u.hour ∨ t.hour = u.hour ∧
    (t.minute < u.minute ∨ t.minute = u.minute ∧
      (t.second < u.second ∨ t.second = u.second ∧ t.nano < u.nano)))

theorem Timestamp.Before.not_date {t u : Timestamp} (h : t.Before u) : ¬u.date.Before t.date := by
  rcases h with h | ⟨h, -⟩
  · unfold Date.Before at h ⊢
    omega
  · rw [h]
    unfold Date.Before
    omega

/-- A later moment has a later bucket as a text exactly if the years are spelled in their order. -/
theorem Cell.dateTrunc_le_iff {g : Grain} {c d : Cell} {t u : Timestamp} {s r : String}
    (ht : c.timestamp? = some t) (hu : d.timestamp? = some u) (h : t.Before u)
    (hs : Function2.dateTrunc.apply (.text g.name) c = .ok (.text s))
    (hr : Function2.dateTrunc.apply (.text g.name) d = .ok (.text r)) :
    ∃ b e : Date, s = b.render ∧ r = e.render ∧ ¬e.Before b ∧
      (s ≤ r ↔ Date.SpelledInOrder b.year e.year) := by
  obtain ⟨b, hb, rfl⟩ := dateTrunc_eq_text ht hs
  obtain ⟨e, he, rfl⟩ := dateTrunc_eq_text hu hr
  have hmono := Grain.start?_mono hb he h.not_date
  exact ⟨b, e, rfl, rfl, hmono, Date.render_le_iff hmono⟩

namespace Period

/-- Periods in the order of their texts: first the one without a date, then those with one. -/
theorem exists_dated : ∀ {starts : List (Option Date)},
    (starts.Pairwise fun o q => Precedes q o) →
    ∃ dated : List Date, starts = (if none ∈ starts then [none] else []) ++ dated.map some ∧
      dated.Pairwise fun d e => d.render < e.render
  | [], _ => ⟨[], rfl, .nil⟩
  | o :: starts, h => by
    obtain ⟨hfirst, hrest⟩ := List.pairwise_cons.1 h
    obtain ⟨dated, hdated, hsorted⟩ := exists_dated hrest
    -- behind the first there is none without a date
    have hnone : none ∉ starts := fun hmem => (hfirst none hmem).elim
    rw [if_neg hnone, List.nil_append] at hdated
    subst hdated
    rcases o with - | d
    · exact ⟨dated, by rw [if_pos List.mem_cons_self]; rfl, hsorted⟩
    · refine ⟨d :: dated, ?_, List.pairwise_cons.2 ⟨fun e he => ?_, hsorted⟩⟩
      · rw [if_neg (by simp)]
        rfl
      · exact hfirst (some e) (List.mem_map_of_mem he)

/-- The first of some periods in the order of their texts: the one without a date, if there is one,
and then those with dates, of which only the last ones are cut off. -/
theorem exists_shown {β : Type} {starts : List (Option Date)} {bound : Nat} {labels : List β}
    {f : Option Date → β} (h : starts.Pairwise fun o q => Precedes q o) (hbound : 1 ≤ bound)
    (hlabels : labels = (starts.map f).take bound) :
    ∃ shown hidden : List Date, (∀ d, d ∈ shown ++ hidden ↔ some d ∈ starts) ∧
      (shown ++ hidden).Pairwise (fun d e => d.render < e.render) ∧
      labels = (if none ∈ starts then [f none] else []) ++ shown.map (fun d => f (some d)) ∧
      (hidden ≠ [] → labels.length = bound) := by
  obtain ⟨dated, hdated, hsorted⟩ := exists_dated h
  have hmem : ∀ d, d ∈ dated ↔ some d ∈ starts := fun d => by
    rw [hdated]
    split_ifs <;> simp
  obtain ⟨undated, hundated⟩ : ∃ undated : List (Option Date), undated =
      if none ∈ starts then [none] else [] := ⟨_, rfl⟩
  have hfirst : undated.map f = if none ∈ starts then [f none] else [] := by
    rw [hundated]
    split_ifs <;> rfl
  have hfits : undated.length ≤ bound := by
    rw [hundated]
    split_ifs
    · exact hbound
    · exact Nat.zero_le _
  rw [← hundated] at hdated
  -- what has no date stands in front and is never cut off
  let n := bound - undated.length
  have hdays : dated.take n ++ dated.drop n = dated := List.take_append_drop n dated
  refine ⟨dated.take n, dated.drop n, fun d => hdays.symm ▸ hmem d, hdays.symm ▸ hsorted, ?_,
    fun hne => ?_⟩
  · rw [hlabels, ← hfirst, hdated, List.map_append, List.take_append,
      List.take_of_length_le ((List.length_map _).trans_le hfits), List.length_map, List.map_map,
      ← List.map_take]
    rfl
  · have hlong : n < dated.length := by
      by_contra hle
      exact hne (List.drop_of_length_le (Nat.le_of_not_lt hle))
    rw [hlabels, List.length_take, List.length_map, hdated, List.length_append, List.length_map]
    omega

end Period

/-- The groups of an analysis by bucket are told apart by the days on which these start, and come in
the order of their texts. -/
theorem Analysis.bucketed {s : Scope} {a : Analysis} {b : Grain × String} (hb : b ∈ a.bucket?) :
    a.key s = (fun x => Period.label (s.start? b.2 b.1 x)) ∧ a.keyType s = none ∧
      a.ranked = false ∧ a.direction = .asc := by
  cases a with
  | aggregate | topList | distribution => cases hb
  | trend | compare | cohort =>
    cases hb
    exact ⟨rfl, rfl, rfl, rfl⟩

theorem Analysis.one_le_bound (a : Analysis) : 1 ≤ a.bound := by
  cases a with
  | aggregate metric function column => cases column <;> exact Nat.le_of_ble_eq_true rfl
  | topList => exact le_max_left _ _
  | _ => exact Nat.le_of_ble_eq_true rfl

namespace Intent

variable {t : Target} {schema : Schema} {rows out : List Row} {a : Analysis} {fs : List Filter}
  {b : Grain × String} {l : String × Expr Name}

/-- A result by bucket lists the days on which these start, in the order of their texts. -/
theorem execute_starts (hd : t.dialect = .directColumn) (hkind : a.kind ≠ .compare)
    (hb : b ∈ a.bucket?) (hl : l ∈ a.label? t) (hout : Store.executeOnce t.source.text rows
      (a.query t schema (t.conditions fs)).text = .ok out) :
    ∃ (kept : List Record) (starts : List (Option Date)), a.kept t schema fs rows = .ok kept ∧
      (∀ o, o ∈ starts ↔ ∃ x ∈ kept, (Scope.ofRows rows).start? b.2 b.1 x = o) ∧
      (starts.Pairwise fun o q => Period.Precedes q o) ∧
      out.map (·.get? l.1) =
        (starts.map fun o => some (o.elim .null fun d => .str d.render)).take a.bound := by
  obtain ⟨hkey, htype, hranked, hdirection⟩ := a.bucketed (s := .ofRows rows) hb
  obtain ⟨kept, gs, hkept, hsplits, hsorted, rfl⟩ := execute_grouped hd hkind hl hout
  rw [Analysis.place, hranked, hdirection, hkey] at hsorted
  rw [hkey] at hsplits
  obtain ⟨starts, hnodup, hstarts, rfl, hlabels, hsorted⟩ := Scope.exists_starts hsplits hsorted
  refine ⟨kept, starts, hkept, hstarts, ?_, ?_⟩
  · refine (hsorted.and hnodup).imp fun h => ?_
    exact Period.precedes_of_notAfter ((Cell.notAfter_flip .asc _ _).trans h.1) h.2.symm
  · have hapart : l.1 ≠ (a.value t schema).1 := Analysis.label_ne_value schema hl
    rw [List.map_take, List.map_map, List.map_map]
    refine congrArg _ (List.map_congr_left fun o ho => ?_)
    rw [Function.comp_apply, Function.comp_apply, Analysis.row,
      (Analysis.cap_of_label schema hkind hl).2, Row.get?_first hapart, hkey, hlabels o ho, htype]
    cases o <;> rfl

/-- Buckets of later moments have later texts, and so a result by bucket is chronological and keeps
the earliest, as far as their years are spelled in their order. Years of four digits are. -/
theorem execute_chronological (g : Grain) :
    (∀ (x y : Cell) (u v : Timestamp) (r s : String), x.timestamp? = some u →
      y.timestamp? = some v → u.Before v →
      Function2.dateTrunc.apply (.text g.name) x = .ok (.text r) →
      Function2.dateTrunc.apply (.text g.name) y = .ok (.text s) →
      ∃ d e : Date, r = d.render ∧ s = e.render ∧ ¬e.Before d ∧
        (r ≤ s ↔ Date.SpelledInOrder d.year e.year)) ∧
    (∀ y z : Int, 0 ≤ y ∧ y ≤ 9999 → 0 ≤ z ∧ z ≤ 9999 → Date.SpelledInOrder y z) ∧
    ∀ (t : Target) (schema : Schema) (rows out : List Row) (a : Analysis) (fs : List Filter)
      (c : Float) (r text date : String), (g, date) ∈ a.bucket? → ∀ l ∈ a.label? t,
      t.dialect = .directColumn → a.kind ≠ .compare →
      (analyze a fs c r).compile t schema = .ok text →
      Store.executeOnce t.source.text rows text = .ok out →
      ∃ kept shown hidden, a.kept t schema fs rows = .ok kept ∧
        (∀ d, d ∈ shown ++ hidden ↔ (Scope.ofRows rows).Starts date g kept d) ∧
        (shown ++ hidden).Pairwise (fun d e => d.render < e.render) ∧
        out.map (·.get? l.1) =
          (if none ∈ kept.map ((Scope.ofRows rows).start? date g) then [some .null] else []) ++
            shown.map (fun d => some (.str d.render)) ∧
        (hidden ≠ [] → out.length = a.bound) ∧
        ((shown.Pairwise Date.Before ∧ ∀ d ∈ shown, ∀ e ∈ hidden, d.Before e) ↔
          ∀ d ∈ shown, ∀ e, (Scope.ofRows rows).Starts date g kept e →
            Date.SpelledInOrder d.year e.year) := by
  refine ⟨fun x y u v r s hu hv h hr hs => Cell.dateTrunc_le_iff hu hv h hr hs,
    fun y z hy hz => Date.spelledInOrder_of_digits hy hz, ?_⟩
  intro t schema rows out a fs c r text date hb l hl hd hkind h hout
  obtain ⟨_, _, _, _, ⟨⟩, -, rfl⟩ := exists_analyze h
  obtain ⟨kept, starts, hkept, hstarts, hsorted, hlabels⟩ := execute_starts hd hkind hb hl hout
  obtain ⟨shown, hidden, hmem, hrender, hout, hlength⟩ :=
    Period.exists_shown hsorted a.one_le_bound hlabels
  have hdays : ∀ d, d ∈ shown ++ hidden ↔ (Scope.ofRows rows).Starts date g kept d := fun d =>
    (hmem d).trans (hstarts (some d))
  simp only [(hstarts none).trans List.mem_map.symm] at hout
  refine ⟨kept, shown, hidden, hkept, hdays, hrender, hout, fun hne => ?_, ?_⟩
  · rw [← hlength hne, List.length_map]
  · rw [Date.chronological_iff hrender]
    exact forall₂_congr fun d _ => forall_congr' fun e => imp_congr_left (hdays e)

/-- The months of three rows come in order behind the row without a date. An offset leads into the year
10000, and to a smaller text. -/
theorem execute_chronological_offset :
    (∃ text out, (analyze (.trend "v" "d" .sum .month) [] 1 "").compile ⟨.directColumn, none, none⟩
        (Profile.ofRows undated) = .ok text ∧
      Store.executeOnce defaultTable undated text = .ok out ∧
      ∃ shown hidden : List Date, out.map (·.get? "date") =
          some .null :: shown.map (fun d => some (.str d.render)) ∧
        shown.Pairwise Date.Before ∧ ∀ d ∈ shown, ∀ e ∈ hidden, d.Before e) ∧
    Function2.dateTrunc.apply (.text "month") (.text "9999-12-31T23:30:00-01:00") =
      .ok (.text "+10000-01-01") ∧
    ¬"2024-01-01" ≤ "+10000-01-01" := by
  obtain ⟨horder, hyears, hrun⟩ := execute_chronological .month
  have hload : ∃ s, Store.empty.load defaultTable undated = .ok s := Store.load_default (by decide)
  have hlimits : (analyze (.trend "v" "d" .sum .month) [] 1 "").Limits ⟨.directColumn, none, none⟩
      undated := by
    have hmonths : ∀ n ∈ (Scope.ofRows undated).ref? "d",
        ∀ x ∈ (Table.ofRows defaultTable undated).numbered,
        (Function2.dateTrunc.apply (.text Grain.month.name)
          (Function.tryCastTimestamp.apply (n.read (some x)))).toOption.isSome = true := by
      decide +kernel
    refine ⟨by decide, by decide, nofun, ?_⟩
    rintro _ _ _ _ ⟨⟩ b ⟨⟩ n hn x hx
    exact isOk_of_isSome (hmonths n hn x hx)
  obtain ⟨text, out, htext, hout⟩ := exists_execute (a := .trend "v" "d" .sum .month) hload
    (by decide +kernel) hlimits nofun (by decide)
  obtain ⟨kept, shown, hidden, hkept, hmem, -, hlabels, -, hiff⟩ := hrun ⟨.directColumn, none, none⟩
    _ undated out (.trend "v" "d" .sum .month) [] 1 "" text "d" rfl _ rfl rfl nofun htext hout
  cases kept_unfiltered rfl hkept
  have hundated : none ∈ (Table.ofRows defaultTable undated).numbered.map
      ((Scope.ofRows undated).start? "d" .month) := by decide +kernel
  have hfour : ∀ x ∈ (Table.ofRows defaultTable undated).numbered,
      ∀ d ∈ (Scope.ofRows undated).start? "d" .month x, 0 ≤ d.year ∧ d.year ≤ 9999 := by
    decide +kernel
  have hfour : ∀ d, (Scope.ofRows undated).Starts "d" .month
      (Table.ofRows defaultTable undated).numbered d → 0 ≤ d.year ∧ d.year ≤ 9999 :=
    fun d ⟨x, hx, hd⟩ => hfour x hx d hd
  have hx : (Cell.text "2024-01-15").timestamp? = some (.midnight ⟨2024, 1, 15, by decide⟩) := by
    decide +kernel
  have hy : (Cell.text "9999-12-31T23:30:00-01:00").timestamp? =
      some ⟨⟨10000, 1, 1, by decide⟩, 0, 30, 0, 0⟩ := by decide +kernel
  have hr : Function2.dateTrunc.apply (.text Grain.month.name) (.text "2024-01-15") =
      .ok (.text "2024-01-01") := by decide +kernel
  have hs : Function2.dateTrunc.apply (.text Grain.month.name) (.text "9999-12-31T23:30:00-01:00") =
      .ok (.text "+10000-01-01") := by decide +kernel
  obtain ⟨d, e, hd, he, -, hle⟩ := horder _ _ _ _ _ _ hx hy (.inl (.inl (by decide))) hr hs
  obtain rfl : d = ⟨2024, 1, 1, by decide⟩ := Date.render_inj (hd.symm.trans (by decide))
  obtain rfl : e = ⟨10000, 1, 1, by decide⟩ := Date.render_inj (he.symm.trans (by decide))
  have hspelled : ¬Date.SpelledBefore 2024 10000 := by decide
  refine ⟨⟨text, out, htext, hout, shown, hidden, ?_, hiff.2 fun d hd e he => ?_⟩, hs,
    fun h => hspelled ((hle.1 h).1.1 (by decide))⟩
  · exact hlabels.trans (congrArg (· ++ _) (if_pos hundated))
  · exact hyears _ _ (hfour d ((hmem d).1 (List.mem_append_left _ hd))) (hfour e he)

end Intent

end TableTalk
