import TableTalk.Proofs.Calendar.Days
import TableTalk.Store.Evaluate

/-!
# Buckets of time

A cell that is a timestamp has a normal form, its date and time to the second. The normal form is
its own, and it is the same timestamp as far as dates are asked for (`Cell.normal_form`).

The bucket of a date is the part of the calendar from its first day up to the first day of the next
one. Dates have the same first day as text if they are in the same bucket, and the text of a first
day stands for its whole bucket where the buckets of a longer grain are made of it
(`Cell.dateTrunc_interval`).
-/

namespace TableTalk

open Sql

namespace Grain

/-- A date with which a bucket starts. -/
def Starts : Grain → Date → Prop
  | day, _ => True
  | week, d => d.weekday = 0
  | month, d => d.day = 1
  | year, d => d.month = 1 ∧ d.day = 1

/-- Whether two dates are in one bucket. The first day of the year 1, which has the number 0, is a
Monday. -/
def Shares : Grain → Date → Date → Prop
  | day, d, e => d = e
  | week, d, e => d.dayNumber / 7 = e.dayNumber / 7
  | month, d, e => d.year = e.year ∧ d.month = e.month
  | year, d, e => d.year = e.year

/-- Whether the buckets of a grain are made of whole buckets of another. -/
def MadeOf (g f : Grain) : Prop := f = day ∨ f = g ∨ f = month ∧ g = year

variable {f g : Grain} {d e b c : Date}

theorem Shares.symm (h : g.Shares d e) : g.Shares e d := by
  cases g with
  | day => exact Eq.symm h
  | week => exact Eq.symm h
  | month => exact ⟨h.1.symm, h.2.symm⟩
  | year => exact Eq.symm h

theorem Shares.trans (h : g.Shares d e) (h' : g.Shares e b) : g.Shares d b := by
  cases g with
  | day => exact Eq.trans h h'
  | week => exact Eq.trans h h'
  | month => exact ⟨h.1.trans h'.1, h.2.trans h'.2⟩
  | year => exact Eq.trans h h'

theorem weekday_eq (d : Date) : (d.weekday : Int) = d.dayNumber % 7 :=
  Int.toNat_of_nonneg (Int.emod_nonneg _ (by decide))

/-- A bucket has one first day. -/
theorem Starts.unique (hb : g.Starts b) (hc : g.Starts c) (h : g.Shares b c) : b = c := by
  cases g with
  | day => exact h
  | week =>
    -- both numbers are multiples of seven with one quotient
    have hweek := weekday_eq b
    have hweek' := weekday_eq c
    rw [Starts] at hb hc
    rw [Shares] at h
    refine Date.dayNumber_inj.1 ?_
    omega
  | month => exact Date.eq_of_fields h.1 h.2 (Eq.trans hb (Eq.symm hc))
  | year => exact Date.eq_of_fields h (hb.1.trans hc.1.symm) (hb.2.trans hc.2.symm)

/-- A date is on or behind the first day of its bucket. -/
theorem Starts.le (hb : g.Starts b) (h : g.Shares b d) : ¬d.Before b := by
  obtain ⟨-, -, hmonth, -, hday, -⟩ := d.valid
  cases g with
  | day =>
    subst h
    unfold Date.Before
    omega
  | week =>
    have hweek := weekday_eq b
    rw [Starts] at hb
    rw [Shares] at h
    rw [Date.before_iff]
    omega
  | month =>
    rw [Starts] at hb
    rw [Shares] at h
    unfold Date.Before
    omega
  | year =>
    rw [Starts] at hb
    rw [Shares] at h
    unfold Date.Before
    omega

/-- A bucket ends in front of the first day of a later one. -/
theorem Starts.lt (he : g.Starts e) (hbe : b.Before e) (h : g.Shares b d) : d.Before e := by
  obtain ⟨-, -, hmonth, -, hday, -⟩ := b.valid
  cases g with
  | day =>
    subst h
    exact hbe
  | week =>
    have hweek := weekday_eq e
    rw [Starts] at he
    rw [Shares] at h
    rw [Date.before_iff] at hbe ⊢
    omega
  | month =>
    rw [Starts] at he
    rw [Shares] at h
    unfold Date.Before at hbe ⊢
    omega
  | year =>
    rw [Starts] at he
    rw [Shares] at h
    unfold Date.Before at hbe ⊢
    omega

/-- The first day of the bucket of a date, if it has one, is one and is in that bucket. -/
theorem starts_of_start? (h : g.start? d = some b) : g.Starts b ∧ g.Shares b d := by
  cases g with
  | day =>
    cases h
    exact ⟨trivial, rfl⟩
  | week =>
    have hback := Date.dayNumber_back h
    have hweek := weekday_eq d
    have hfirst := weekday_eq b
    constructor
    · rw [Starts]
      omega
    · rw [Shares]
      omega
  | month =>
    obtain ⟨hyear, hmonth, hday⟩ := Date.of?_eq_some.1 h
    exact ⟨hday, hyear, hmonth⟩
  | year =>
    obtain ⟨hyear, hmonth, hday⟩ := Date.of?_eq_some.1 h
    exact ⟨⟨hmonth, hday⟩, hyear⟩

theorem start?_eq_iff (hd : g.start? d = some b) (he : g.start? e = some c) :
    b = c ↔ g.Shares d e := by
  obtain ⟨hstarts, hshares⟩ := starts_of_start? hd
  obtain ⟨hstarts', hshares'⟩ := starts_of_start? he
  constructor
  · rintro rfl
    exact hshares.symm.trans hshares'
  · intro h
    exact hstarts.unique hstarts' ((hshares.trans h).trans hshares'.symm)

/-- The first day of a bucket stands for its dates under a grain that is made of it. -/
theorem start?_start? (h : f.start? d = some b) (hmade : g.MadeOf f) : g.start? b = g.start? d := by
  rcases hmade with rfl | rfl | ⟨rfl, rfl⟩
  · cases h
    rfl
  · obtain ⟨hstarts, -⟩ := starts_of_start? h
    cases f with
    | day =>
      cases h
      rfl
    | week =>
      rw [h, start?, show b.weekday = 0 from hstarts]
      rfl
    | month =>
      obtain ⟨hyear, hmonth, -⟩ := Date.of?_eq_some.1 h
      rw [start?, start?, hyear, hmonth]
    | year =>
      obtain ⟨hyear, -, -⟩ := Date.of?_eq_some.1 h
      rw [start?, start?, hyear]
  · obtain ⟨hyear, -, -⟩ := Date.of?_eq_some.1 h
    rw [start?, start?, hyear]

end Grain

namespace Cell

variable {g : Grain} {c : Cell} {t : Timestamp}

theorem truncation_congr {c d : Cell} (grain : Cell)
    (h : c.timestamp?.map Timestamp.date = d.timestamp?.map Timestamp.date) :
    truncation grain c = truncation grain d := by
  unfold truncation
  rcases hc : c.timestamp? with - | t <;> rcases hd : d.timestamp? with - | u <;>
    rw [hc, hd] at h
  · cases h
  · cases h
  · have hdate : t.date = u.date := Option.some.inj h
    cases grain with
    | text w =>
      dsimp only
      rcases Grain.ofName? (Text.lowerAscii w) with - | g
      · rfl
      · simp only [hdate]
    | null | int | real | loose | blob => rfl

theorem tryCastTimestamp_of_none (h : c.timestamp? = none) :
    Function.tryCastTimestamp.apply c = .null := by
  rw [Function.apply, tryCastTimestamp, h]
  rfl

theorem tryCastTimestamp_of_some (h : c.timestamp? = some t) :
    Function.tryCastTimestamp.apply c = .text t.render := by
  rw [Function.apply, tryCastTimestamp, h]
  rfl

theorem timestamp?_render (t : Timestamp) : (text t.render).timestamp? = some t.withoutFraction :=
  t.read?_render

theorem timestamp?_tryCast (c : Cell) : (Function.tryCastTimestamp.apply c).timestamp? =
    c.timestamp?.map Timestamp.withoutFraction := by
  rcases h : c.timestamp? with - | t
  · rw [tryCastTimestamp_of_none h]
    rfl
  · rw [tryCastTimestamp_of_some h, timestamp?_render]
    rfl

/-- The text of a timestamp is read as that timestamp without its fraction. So casting again changes
nothing, and buckets are the same with and without a cast. -/
theorem normal_form :
    (∀ (s : String) (t : Timestamp), Timestamp.read? s = some t →
      Timestamp.read? t.render = some t.withoutFraction) ∧
    (∀ c : Cell, Function.tryCastTimestamp.apply (Function.tryCastTimestamp.apply c) =
      Function.tryCastTimestamp.apply c) ∧
    ∀ grain c : Cell, Function2.dateTrunc.apply grain (Function.tryCastTimestamp.apply c) =
      Function2.dateTrunc.apply grain c := by
  refine ⟨fun _ t _ => t.read?_render, fun c => ?_, fun grain c => ?_⟩
  · rcases h : c.timestamp? with - | t
    · rw [tryCastTimestamp_of_none h]
      rfl
    · rw [tryCastTimestamp_of_some h, tryCastTimestamp_of_some (timestamp?_render t)]
      rfl
  · have hdate := congrArg (Option.map Timestamp.date) (timestamp?_tryCast c)
    rw [Option.map_map] at hdate
    rw [Function2.apply, Function2.apply, truncation_congr grain hdate]

/-- A second that is added at an offset, in front of the year 0. -/
example : (Function.tryCastTimestamp.apply (.text "0000-01-01T00:30:60.25+01:00")) =
    .text "-0001-12-31 23:30:60" := by
  decide

theorem dateTrunc_name (h : c.timestamp? = some t) :
    Function2.dateTrunc.apply (.text g.name) c =
      (g.start? t.date).elim (.error .beforeCalendar) fun b => .ok (.text b.render) := by
  have hname : Grain.ofName? (Text.lowerAscii g.name) = some g := by
    cases g <;> decide
  simp only [Function2.apply, truncation, h, hname]
  rcases g.start? t.date with - | b <;> rfl

theorem dateTrunc_tryCast (h : c.timestamp? = some t) :
    Function2.dateTrunc.apply (.text g.name) (Function.tryCastTimestamp.apply c) =
      (g.start? t.date).elim (.error .beforeCalendar) fun b => .ok (.text b.render) := by
  rw [tryCastTimestamp_of_some h, dateTrunc_name (timestamp?_render t)]
  rfl

theorem dateTrunc_eq_text {s : String} (h : c.timestamp? = some t)
    (hs : Function2.dateTrunc.apply (.text g.name) c = .ok (.text s)) :
    ∃ b, g.start? t.date = some b ∧ s = b.render := by
  rw [dateTrunc_name h] at hs
  rcases hstart : g.start? t.date with - | b <;> rw [hstart] at hs
  · cases hs
  · cases hs
    exact ⟨b, rfl, rfl⟩

/-- A bucket is an interval of the calendar, and its text stands for it. -/
theorem dateTrunc_interval {s : String} (ht : c.timestamp? = some t)
    (hs : Function2.dateTrunc.apply (.text g.name) c = .ok (.text s)) :
    (∃ b : Date, s = b.render ∧ g.Starts b ∧ ¬t.date.Before b ∧
      ∀ e, g.Starts e → b.Before e → t.date.Before e) ∧
    (∀ (d : Cell) (u : Timestamp) (r : String), d.timestamp? = some u →
      Function2.dateTrunc.apply (.text g.name) d = .ok (.text r) →
      (s = r ↔ g.Shares t.date u.date)) ∧
    ∀ h : Grain, h.MadeOf g → Function2.dateTrunc.apply (.text h.name) (.text s) =
      Function2.dateTrunc.apply (.text h.name) c := by
  obtain ⟨b, hb, rfl⟩ := dateTrunc_eq_text ht hs
  obtain ⟨hstarts, hshares⟩ := Grain.starts_of_start? hb
  refine ⟨⟨b, rfl, hstarts, hstarts.le hshares, fun e he hbe => he.lt hbe hshares⟩,
    fun d u r hu hr => ?_, fun h hmade => ?_⟩
  · obtain ⟨e, he, rfl⟩ := dateTrunc_eq_text hu hr
    rw [← Grain.start?_eq_iff hb he]
    exact ⟨Date.render_inj, fun h => h ▸ rfl⟩
  · have hread : (text b.render).timestamp? = some (.midnight b) := Timestamp.read?_date b
    rw [dateTrunc_name hread, dateTrunc_name ht, ← Grain.start?_start? hb hmade]
    rfl

/-- The first of March 2024 is a Friday, and its week starts in February. -/
theorem dateTrunc_interval_friday :
    (text "2024-03-01T10:00").timestamp? = some ⟨⟨2024, 3, 1, by decide⟩, 10, 0, 0, 0⟩ ∧
    Function2.dateTrunc.apply (.text Grain.week.name) (text "2024-03-01T10:00") =
      .ok (.text "2024-02-26") ∧
    ∃ b : Date, "2024-02-26" = b.render ∧ b.weekday = 0 ∧
      ∀ e : Date, e.weekday = 0 → b.Before e → Date.Before ⟨2024, 3, 1, by decide⟩ e := by
  have ht : (text "2024-03-01T10:00").timestamp? =
      some ⟨⟨2024, 3, 1, by decide⟩, 10, 0, 0, 0⟩ := by decide +kernel
  have hs : Function2.dateTrunc.apply (.text Grain.week.name) (text "2024-03-01T10:00") =
      .ok (.text "2024-02-26") := by decide +kernel
  obtain ⟨⟨b, hb, hstarts, -, hnext⟩, -⟩ := dateTrunc_interval ht hs
  exact ⟨ht, hs, b, hb, hstarts, hnext⟩

end Cell

end TableTalk
