import TableTalk.Intent.Encode
import TableTalk.Proofs.Outcome
import TableTalk.Proofs.Table.Rows

/-!
# Intents are read back

What an intent is written as, an object or an array, is read as this intent
(`Intent.decode_written`), if its numbers are finite and its limit has 32 bits. Both forms are
written and read field by field: each content is read back from what is written for it
(`Field.decode_encode`), the fields fill a draft (`Draft.Filled`), and a filled draft is the intent.
-/

namespace TableTalk

section Names

variable {α : Type}

variable [DecidableEq α]

/-- A name that is written for a value is one that the value has. -/
theorem choice_nameIn {names : List (String × α)} {a : α} (hnodup : (names.map Prod.fst).Nodup)
    (ha : a ∈ names.map Prod.snd) : Decode.choice names (.str (nameIn names a)) = .ok a := by
  obtain ⟨p, hp, rfl⟩ := List.mem_map.1 ha
  obtain ⟨q, hfind⟩ : ∃ q, (names.find? fun q => q.2 = p.2) = some q :=
    Option.isSome_iff_exists.1 (List.find?_isSome.2 ⟨p, hp, by simp⟩)
  have hq : q.2 = p.2 := by simpa using List.find?_some hfind
  have hlookup : names.lookup q.1 = some p.2 :=
    hq ▸ lookup_of_mem hnodup (List.mem_of_find?_eq_some hfind)
  simp only [Decode.choice, Decode.named, nameIn, hfind, Option.map_some, Option.getD_some, hlookup]

theorem Operator.choice_name (o : Operator) : Decode.choice names (.str o.name) = .ok o :=
  choice_nameIn (by decide) (by cases o <;> decide)

theorem AggregateFunction.choice_name (f : AggregateFunction) :
    Decode.choice names (.str f.name) = .ok f :=
  choice_nameIn (by decide) (by cases f <;> decide)

theorem Grain.choice_name (g : Grain) : Decode.choice names (.str g.name) = .ok g := by
  cases g <;> rfl

theorem CohortInterval.choice_name (i : CohortInterval) :
    Decode.choice names (.str i.name) = .ok i :=
  choice_nameIn (by decide) (by cases i <;> decide)

theorem ComparePeriod.choice_name (p : ComparePeriod) :
    Decode.choice names (.str p.name) = .ok p :=
  choice_nameIn (by decide) (by cases p <;> decide)

theorem SortOrder.choice_name (o : SortOrder) : Decode.choice names (.str o.name) = .ok o :=
  choice_nameIn (by decide) (by cases o <;> decide)

theorem Kind.decode_name (k : Kind) : Kind.decode (.str k.name) = .ok k := by
  cases k <;> rfl

end Names

section Filters

theorem FilterValue.decode_toJson {v : FilterValue} (h : ∀ x, v = .number x → x.isFinite = true) :
    Filter.decodeValue v.toJson = .ok v := by
  cases v with
  | bool b => rfl
  | number x =>
    rw [toJson, Json.ofFloat, if_pos (h x rfl)]
    rfl
  | text s => rfl

theorem Filter.decode_toJson {f : Filter} (h : ∀ x, f.value = .number x → x.isFinite = true) :
    Filter.decode f.toJson = .ok f := by
  have hvalue := FilterValue.decode_toJson h
  have hoperator := f.operator.choice_name
  simp only [toJson, decode, ofMembers, List.foldlM_cons, List.foldlM_nil, Draft.addMember]
  simp [Decode.text, hoperator, hvalue, Draft.filter]

theorem Filter.decodeAll_filtersJson {fs : List Filter}
    (h : ∀ f ∈ fs, ∀ x, f.value = .number x → x.isFinite = true) :
    Filter.decodeAll (filtersJson fs) = .ok fs := by
  rw [filtersJson, decodeAll]
  induction fs with
  | nil => rfl
  | cons f fs ih =>
    obtain ⟨hf, hfs⟩ := List.forall_mem_cons.1 h
    exact mapM_cons_eq_ok.2 ⟨f, fs, decode_toJson hf, ih hfs, rfl⟩

end Filters

section Numbers

theorem count_natCast {n : Nat} (h : n < UInt32.size) : Decode.count (.int n) = .ok n := by
  have hbound : (n : Int) < UInt32.size := Int.ofNat_lt.2 h
  rw [Decode.count, if_pos ⟨Int.natCast_nonneg n, hbound⟩, Int.toNat_natCast]

theorem number_ofFloat {x : Float} (h : x.isFinite = true) :
    Decode.number (.ofFloat x) = .ok x := by
  rw [Json.ofFloat, if_pos h]
  rfl

end Numbers

namespace Field

/-- What is written for the content of a field; nothing for an absent column. -/
def encode : (f : Field) → f.Content → Option Json
  | metric, c => some (.str c)
  | aggregateFunction, g => some (.str g.name)
  | groupBy, c => c.map .str
  | date, c => some (.str c)
  | timeGrain, g => some (.str g.name)
  | dimension, c => some (.str c)
  | limit, n => some (.int n)
  | order, o => some (.str o.name)
  | period, p => some (.str p.name)
  | cohortMetric, c => c.map .str
  | interval, i => some (.str i.name)
  | filters, fs => some (filtersJson fs)
  | confidence, x => some (.ofFloat x)
  | reasoning, s => some (.str s)

/-- What a field can hold in a document. -/
def Fits : (f : Field) → f.Content → Prop
  | limit, n => n < UInt32.size
  | filters, fs => ∀ f ∈ fs, ∀ x, f.value = .number x → x.isFinite = true
  | confidence, x => x.isFinite = true
  | _, _ => True

/-- A content is read from what is written for it, or from null if that is nothing. -/
theorem decode_encode (f : Field) {c : f.Content} (h : f.Fits c) :
    f.decode ((f.encode c).getD .null) = .ok c := by
  have htext : ∀ c : Option String, Decode.text? ((c.map Json.str).getD .null) = .ok c := fun c => by
    cases c <;> rfl
  cases f with
  | metric | date | dimension | reasoning => rfl
  | groupBy | cohortMetric => exact htext c
  | aggregateFunction => exact AggregateFunction.choice_name c
  | timeGrain => exact Grain.choice_name c
  | order => exact SortOrder.choice_name c
  | period => exact ComparePeriod.choice_name c
  | interval => exact CohortInterval.choice_name c
  | filters => exact Filter.decodeAll_filtersJson h
  | confidence => exact number_ofFloat h
  | limit =>
    rw [encode, Option.getD_some, decode, count_natCast h]

end Field

namespace Draft

variable {d d' : Draft} {f : Field} {c : f.Content} {ps : List ((f : Field) × f.Content)}

theorem set_self (d : Draft) (f : Field) (c : f.Content) : d.set f c f = some c := by
  simp [set]

theorem set_of_ne (d : Draft) {f g : Field} (c : f.Content) (h : f ≠ g) : d.set f c g = d g := by
  simp [set, h]

/-- A draft that has been filled with some contents. What is not written may be missing. -/
structure Filled (d' d : Draft) (ps : List ((f : Field) × f.Content)) : Prop where
  filled : ∀ p ∈ ps, d' p.1 = some p.2 ∨ d' p.1 = none ∧ p.1.encode p.2 = none
  others : ∀ f, f ∉ ps.map Sigma.fst → d' f = d f

theorem Filled.cons (h : Filled d' (d.set f c) ps) (hf : f ∉ ps.map Sigma.fst) :
    Filled d' d (⟨f, c⟩ :: ps) := by
  refine ⟨List.forall_mem_cons.2 ⟨.inl ?_, h.filled⟩, fun g hg => ?_⟩
  · rw [h.others f hf, set_self]
  · rw [List.map_cons, List.mem_cons, not_or] at hg
    rw [h.others g hg.2, set_of_ne d c (Ne.symm hg.1)]

theorem Filled.skip (h : Filled d' d ps) (hf : f ∉ ps.map Sigma.fst) (hd : d f = none)
    (hc : f.encode c = none) : Filled d' d (⟨f, c⟩ :: ps) := by
  refine ⟨List.forall_mem_cons.2 ⟨.inr ⟨?_, hc⟩, h.filled⟩, fun g hg => ?_⟩
  · rw [h.others f hf, hd]
  · rw [List.map_cons, List.mem_cons, not_or] at hg
    exact h.others g hg.2

theorem Filled.eq_some (h : Filled d' d ps) (hp : ⟨f, c⟩ ∈ ps) (hc : (f.encode c).isSome = true) :
    d' f = some c := by
  rcases h.filled _ hp with hsome | ⟨-, hnone⟩
  · exact hsome
  · rw [hnone] at hc
    cases hc

/-- A content that is not written is the default. -/
theorem Filled.getD_eq (h : Filled d' d ps) (hp : ⟨f, c⟩ ∈ ps) (default : f.Content)
    (hc : f.encode c = none → c = default) : (d' f).getD default = c := by
  rcases h.filled _ hp with hsome | ⟨hmissing, hnone⟩
  · exact congrArg (Option.getD · default) hsome
  · rw [hc hnone]
    exact congrArg (Option.getD · default) hmissing

/-- An array of contents in the order of the fields fills them. -/
theorem addItems_contents (k : Kind) : ∀ {ps : List ((f : Field) × f.Content)}
    {fs : List (Field × Bool)} (d : Draft) (index : Nat), fs.map Prod.fst = ps.map Sigma.fst →
      (ps.map Sigma.fst).Nodup → (∀ p ∈ ps, p.1.Fits p.2) →
      ∃ d', addItems k d index fs (ps.map fun p => (p.1.encode p.2).getD .null) = .ok d' ∧
        Filled d' d ps
  | [], fs, d, index, hfs, _, _ => by
    rw [List.map_nil, List.map_eq_nil_iff] at hfs
    subst hfs
    exact ⟨d, rfl, nofun, fun _ _ => rfl⟩
  | ⟨f, c⟩ :: ps, fs, d, index, hfs, hnodup, hfits => by
    obtain ⟨⟨g, must⟩, rest, rfl, hg, hrest⟩ := List.map_eq_cons_iff.1 hfs
    obtain ⟨hf, hlater⟩ := List.nodup_cons.1 hnodup
    obtain ⟨hc, hrestFits⟩ := List.forall_mem_cons.1 hfits
    obtain rfl : g = f := hg
    obtain ⟨d', hd', hfilled⟩ :=
      addItems_contents k (d.set g c) (index + 1) hrest hlater hrestFits
    refine ⟨d', ?_, hfilled.cons hf⟩
    rw [List.map_cons, addItems, g.decode_encode hc, bind_ok]
    exact hd'

/-- The members of an object fill the fields that they are named like. -/
theorem addMembers_contents (k : Kind) : ∀ {ps : List ((f : Field) × f.Content)} (d : Draft),
    (∀ p ∈ ps, k.field? p.1.name = some p.1) → (ps.map Sigma.fst).Nodup →
      (∀ p ∈ ps, d p.1 = none) → (∀ p ∈ ps, p.1.Fits p.2) →
      ∃ d', (ps.filterMap fun p => (p.1.encode p.2).map fun v => (p.1.name, v)).foldlM
          (fun d m => addMember k d m.1 m.2) d = .ok d' ∧ Filled d' d ps
  | [], d, _, _, _, _ => ⟨d, rfl, nofun, fun _ _ => rfl⟩
  | ⟨f, c⟩ :: ps, d, hnames, hnodup, hempty, hfits => by
    obtain ⟨hname, hnames⟩ := List.forall_mem_cons.1 hnames
    obtain ⟨hf, hnodup⟩ := List.nodup_cons.1 hnodup
    obtain ⟨hd, hempty⟩ := List.forall_mem_cons.1 hempty
    obtain ⟨hc, hfits⟩ := List.forall_mem_cons.1 hfits
    have hdecode := f.decode_encode hc
    rcases he : f.encode c with - | v
    · obtain ⟨d', hd', hfilled⟩ := addMembers_contents k d hnames hnodup hempty hfits
      refine ⟨d', ?_, hfilled.skip hf hd he⟩
      rw [List.filterMap_cons_none (by rw [he]; rfl)]
      exact hd'
    · have hstill : ∀ p ∈ ps, d.set f c p.1 = none := fun p hp => by
        rw [set_of_ne d c, hempty p hp]
        rintro rfl
        exact hf (List.mem_map.2 ⟨p, hp, rfl⟩)
      obtain ⟨d', hd', hfilled⟩ := addMembers_contents k (d.set f c) hnames hnodup hstill hfits
      refine ⟨d', ?_, hfilled.cons hf⟩
      rw [List.filterMap_cons_some (by rw [he]; rfl), List.foldlM_cons]
      rw [he, Option.getD_some] at hdecode
      have hadd : addMember k d f.name v = .ok (d.set f c) := by
        rw [addMember, hname]
        dsimp only
        rw [hd, hdecode]
        rfl
      rw [hadd, bind_ok]
      exact hd'

end Draft

namespace Analysis

/-- The fields of an analysis with their contents. -/
def contents : Analysis → List ((f : Field) × f.Content)
  | aggregate metric function groupBy =>
    [⟨.metric, metric⟩, ⟨.aggregateFunction, function⟩, ⟨.groupBy, groupBy⟩]
  | trend metric date function grain =>
    [⟨.metric, metric⟩, ⟨.date, date⟩, ⟨.aggregateFunction, function⟩, ⟨.timeGrain, grain⟩]
  | topList metric dimension limit order =>
    [⟨.metric, metric⟩, ⟨.dimension, dimension⟩, ⟨.limit, limit⟩, ⟨.order, order⟩]
  | distribution metric dimension => [⟨.metric, metric⟩, ⟨.dimension, dimension⟩]
  | compare metric date period => [⟨.metric, metric⟩, ⟨.date, date⟩, ⟨.period, period⟩]
  | cohort date metric interval =>
    [⟨.date, date⟩, ⟨.cohortMetric, metric⟩, ⟨.interval, interval⟩]

end Analysis

namespace Intent

def contents : Intent → List ((f : Field) × f.Content)
  | analyze a fs c r => a.contents ++ [⟨.filters, fs⟩, ⟨.confidence, c⟩, ⟨.reasoning, r⟩]
  | unknown c r => [⟨.confidence, c⟩, ⟨.reasoning, r⟩]

theorem parts_eq (i : Intent) : i.parts = i.contents.map fun p => (p.1.name, p.1.encode p.2) := by
  cases i with
  | unknown => rfl
  | analyze a fs c r => cases a <;> rfl

theorem fields_contents (i : Intent) :
    i.contents.map Sigma.fst = i.kind.fields.map Prod.fst := by
  cases i with
  | unknown => rfl
  | analyze a fs c r => cases a <;> rfl

theorem nodup_contents (i : Intent) : (i.contents.map Sigma.fst).Nodup := by
  rw [fields_contents]
  cases i.kind <;> decide

/-- What a document can hold: numbers that are finite, and a limit of 32 bits. -/
structure Storable (i : Intent) : Prop where
  confidence : i.confidence.isFinite = true
  numbers : ∀ f ∈ i.filters, ∀ x, f.value = .number x → x.isFinite = true
  limit : ∀ metric dimension n order fs c r,
    i = analyze (.topList metric dimension n order) fs c r → n < UInt32.size

theorem Storable.fits {i : Intent} (h : i.Storable) : ∀ p ∈ i.contents, p.1.Fits p.2 := by
  cases i with
  | unknown c r =>
    have hc : c.isFinite = true := h.confidence
    simpa [contents, Field.Fits] using hc
  | analyze a fs c r =>
    have hrest : ∀ p ∈ ([⟨.filters, fs⟩, ⟨.confidence, c⟩, ⟨.reasoning, r⟩] :
        List ((f : Field) × f.Content)), p.1.Fits p.2 := by
      simpa [Field.Fits] using ⟨h.numbers, h.confidence⟩
    have hfirst : ∀ p ∈ a.contents, p.1.Fits p.2 := by
      cases a with
      | topList metric dimension n order =>
        simpa [Analysis.contents, Field.Fits] using h.limit metric dimension n order fs c r rfl
      | _ => simp [Analysis.contents, Field.Fits]
    exact List.forall_mem_append.2 ⟨hfirst, hrest⟩

theorem intent_of_filled {i : Intent} {d : Draft} (h : d.Filled Draft.empty i.contents) :
    d.intent i.kind = .ok i := by
  cases i with
  | unknown c r =>
    have hc := h.eq_some (f := .confidence) (c := c) (by simp [contents]) rfl
    have hr := h.eq_some (f := .reasoning) (c := r) (by simp [contents]) rfl
    simp [kind, Draft.intent, hc, hr]
  | analyze a fs c r =>
    have hfs := h.eq_some (f := .filters) (c := fs) (by simp [contents]) rfl
    have hc := h.eq_some (f := .confidence) (c := c) (by simp [contents]) rfl
    have hr := h.eq_some (f := .reasoning) (c := r) (by simp [contents]) rfl
    have hmap : ∀ c : Option String, c.map Json.str = none → c = none :=
      fun _ => Option.map_eq_none_iff.1
    have hmem : ∀ p ∈ a.contents, p ∈ (analyze a fs c r).contents :=
      fun _ hp => List.mem_append_left _ hp
    cases a with
    | aggregate metric function groupBy =>
      have hmetric := h.eq_some (hmem ⟨.metric, metric⟩ (by simp [Analysis.contents])) rfl
      have hfunction :=
        h.eq_some (hmem ⟨.aggregateFunction, function⟩ (by simp [Analysis.contents])) rfl
      have hgroup := h.getD_eq (hmem ⟨.groupBy, groupBy⟩ (by simp [Analysis.contents])) none
        (hmap groupBy)
      simp [kind, Analysis.kind, Draft.intent, Draft.need, hmetric, hfunction, hgroup, hfs, hc, hr]
    | trend metric date function grain =>
      have hmetric := h.eq_some (hmem ⟨.metric, metric⟩ (by simp [Analysis.contents])) rfl
      have hdate := h.eq_some (hmem ⟨.date, date⟩ (by simp [Analysis.contents])) rfl
      have hfunction :=
        h.eq_some (hmem ⟨.aggregateFunction, function⟩ (by simp [Analysis.contents])) rfl
      have hgrain := h.eq_some (hmem ⟨.timeGrain, grain⟩ (by simp [Analysis.contents])) rfl
      simp [kind, Analysis.kind, Draft.intent, Draft.need, hmetric, hdate, hfunction, hgrain, hfs,
        hc, hr]
    | topList metric dimension n order =>
      have hmetric := h.eq_some (hmem ⟨.metric, metric⟩ (by simp [Analysis.contents])) rfl
      have hdimension := h.eq_some (hmem ⟨.dimension, dimension⟩ (by simp [Analysis.contents])) rfl
      have hlimit := h.eq_some (hmem ⟨.limit, n⟩ (by simp [Analysis.contents])) rfl
      have horder := h.eq_some (hmem ⟨.order, order⟩ (by simp [Analysis.contents])) rfl
      simp [kind, Analysis.kind, Draft.intent, Draft.need, hmetric, hdimension, hlimit, horder, hfs,
        hc, hr]
    | distribution metric dimension =>
      have hmetric := h.eq_some (hmem ⟨.metric, metric⟩ (by simp [Analysis.contents])) rfl
      have hdimension := h.eq_some (hmem ⟨.dimension, dimension⟩ (by simp [Analysis.contents])) rfl
      simp [kind, Analysis.kind, Draft.intent, Draft.need, hmetric, hdimension, hfs, hc, hr]
    | compare metric date period =>
      have hmetric := h.eq_some (hmem ⟨.metric, metric⟩ (by simp [Analysis.contents])) rfl
      have hdate := h.eq_some (hmem ⟨.date, date⟩ (by simp [Analysis.contents])) rfl
      have hperiod := h.eq_some (hmem ⟨.period, period⟩ (by simp [Analysis.contents])) rfl
      simp [kind, Analysis.kind, Draft.intent, Draft.need, hmetric, hdate, hperiod, hfs, hc, hr]
    | cohort date metric interval =>
      have hdate := h.eq_some (hmem ⟨.date, date⟩ (by simp [Analysis.contents])) rfl
      have hmetric := h.getD_eq (hmem ⟨.cohortMetric, metric⟩ (by simp [Analysis.contents])) none
        (hmap metric)
      have hinterval := h.eq_some (hmem ⟨.interval, interval⟩ (by simp [Analysis.contents])) rfl
      simp [kind, Analysis.kind, Draft.intent, Draft.need, hdate, hmetric, hinterval, hfs, hc, hr]

/-- The kind is found in front. -/
theorem takeKind_cons (k : Kind) {ms : List (String × Json)} (h : ∀ m ∈ ms, m.1 ≠ "type") :
    takeKind (("type", .str k.name) :: ms) = .ok (some k, ms) := by
  have hrest : ∀ {ms acc : List (String × Json)}, (∀ m ∈ ms, m.1 ≠ "type") →
      ms.foldlM (fun (acc : Option Kind × List (String × Json)) m =>
        if m.1 = "type" then
          if acc.1.isSome then Except.error (DecodeError.duplicateField "type")
          else (Kind.decode m.2).map fun k => (some k, acc.2)
        else .ok (acc.1, acc.2 ++ [m])) (some k, acc) = .ok (some k, acc ++ ms) := fun {ms} => by
    induction ms with
    | nil =>
      intro acc _
      rw [List.append_nil]
      rfl
    | cons m ms ih =>
      intro acc h
      obtain ⟨hm, hms⟩ := List.forall_mem_cons.1 h
      rw [List.foldlM_cons, if_neg hm, bind_ok, ih hms, List.append_assoc]
      rfl
  rw [takeKind, List.foldlM_cons, if_pos rfl, Kind.decode_name]
  exact hrest h

theorem decode_toJson {i : Intent} (h : i.Storable) : decode i.toJson = .ok i := by
  have hmembers : i.toJson = .obj (("type", .str i.kind.name) ::
      i.contents.filterMap fun p => (p.1.encode p.2).map fun v => (p.1.name, v)) := by
    rw [toJson, parts_eq, List.filterMap_map]
    rfl
  have hnames : ∀ f ∈ i.contents.map Sigma.fst, i.kind.field? f.name = some f ∧ f.name ≠ "type" := by
    rw [fields_contents]
    cases i.kind <;> decide
  have hname := fun p (hp : p ∈ i.contents) => hnames p.1 (List.mem_map.2 ⟨p, hp, rfl⟩)
  have htype : ∀ m ∈ i.contents.filterMap fun p => (p.1.encode p.2).map fun v => (p.1.name, v),
      m.1 ≠ "type" := fun m hm => by
    obtain ⟨p, hp, hv⟩ := List.mem_filterMap.1 hm
    obtain ⟨v, -, rfl⟩ := Option.map_eq_some_iff.1 hv
    exact (hname p hp).2
  obtain ⟨d, hd, hfilled⟩ := Draft.addMembers_contents i.kind Draft.empty
    (fun p hp => (hname p hp).1) i.nodup_contents (fun _ _ => rfl) h.fits
  rw [hmembers, decode, takeKind_cons i.kind htype, bind_ok]
  dsimp only
  rw [ofMembers, hd, bind_ok, intent_of_filled hfilled]

theorem decode_toItems {i : Intent} (h : i.Storable) : decode i.toItems = .ok i := by
  have hitems : i.toItems = .arr (.str i.kind.name ::
      i.contents.map fun p => (p.1.encode p.2).getD .null) := by
    rw [toItems, parts_eq, List.map_map]
    rfl
  obtain ⟨d, hd, hfilled⟩ := Draft.addItems_contents i.kind Draft.empty 0
    (fields_contents i).symm i.nodup_contents h.fits
  rw [hitems, decode, Kind.decode_name, bind_ok, ofItems, hd, bind_ok,
    intent_of_filled hfilled]

/-- The array has the contents of the object in the order of the fields, and null for one that is
not in it. -/
theorem toItems_eq (i : Intent) : i.toItems = .arr (.str i.kind.name ::
    i.kind.fields.map fun f => (i.toJson.member? f.1.name).getD .null) := by
  cases i with
  | unknown c r => rfl
  | analyze a fs c r =>
    cases a with
    | aggregate metric function groupBy => cases groupBy <;> rfl
    | cohort date metric interval => cases metric <;> rfl
    | _ => rfl

/-- An intent is read back from its object, and from the array of what is in it. -/
theorem decode_written {i : Intent} (h : i.Storable) : decode i.toJson = .ok i ∧
    decode (.arr (.str i.kind.name ::
      i.kind.fields.map fun f => (i.toJson.member? f.1.name).getD .null)) = .ok i :=
  ⟨decode_toJson h, toItems_eq i ▸ decode_toItems h⟩

/-- A limit and an order that are not the usual ones, and a value of each kind. -/
theorem decode_written_mixed : ∃ i : Intent,
    i = .analyze (.topList "a\"b" "label" 4294967295 .asc)
      [⟨"x", .contains, .text "true"⟩, ⟨"y", .gte, .number (-0.5)⟩, ⟨"x", .eq, .bool false⟩]
      0.25 "why" ∧
    decode i.toJson = .ok i ∧
    decode (.arr [.str "TOP_LIST", .str "a\"b", .str "label", .int 4294967295, .str "asc",
      filtersJson i.filters, .double 0.25, .str "why"]) = .ok i := by
  have h : Storable (.analyze (.topList "a\"b" "label" 4294967295 .asc)
      [⟨"x", .contains, .text "true"⟩, ⟨"y", .gte, .number (-0.5)⟩, ⟨"x", .eq, .bool false⟩]
      0.25 "why") := by
    refine ⟨by decide +kernel, ?_, ?_⟩
    · have hhalf : (-0.5 : Float).isFinite = true := by decide +kernel
      simp [filters, hhalf]
    · rintro metric dimension n order fs c r ⟨⟩
      decide
  exact ⟨_, rfl, decode_written h⟩

end Intent

end TableTalk
