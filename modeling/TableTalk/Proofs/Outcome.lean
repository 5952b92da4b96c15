/-!
# Outcomes

A computation that can fail gives a value or a fault. Steps one after the other give a value exactly
if each of them does (`bind_eq_ok`), and so does a step for each element of a list (`isOk_of_mapM`,
`exists_of_mapM`).
-/

namespace TableTalk

section Outcome

variable {ε : Type} {α β : Type}

instance instDecidableEqExcept [DecidableEq ε] [DecidableEq α] : DecidableEq (Except ε α)
  | .ok a, .ok b => decidable_of_iff (a = b) ⟨congrArg _, Except.ok.inj⟩
  | .error d, .error e => decidable_of_iff (d = e) ⟨congrArg _, Except.error.inj⟩
  | .ok _, .error _ => .isFalse nofun
  | .error _, .ok _ => .isFalse nofun

@[simp] theorem bind_ok (a : α) (f : α → Except ε β) : (Except.ok a >>= f) = f a := rfl

@[simp] theorem bind_error (e : ε) (f : α → Except ε β) :
    ((Except.error e : Except ε α) >>= f) = .error e := rfl

theorem bind_eq_ok {x : Except ε α} {f : α → Except ε β} {b : β} :
    (x >>= f) = .ok b ↔ ∃ a, x = .ok a ∧ f a = .ok b := by
  cases x <;> simp

@[simp] theorem map_ok (f : α → β) (a : α) : (Except.ok a : Except ε α).map f = .ok (f a) := rfl

@[simp] theorem map_error (f : α → β) (e : ε) :
    (Except.error e : Except ε α).map f = .error e := rfl

theorem map_eq_ok {x : Except ε α} {f : α → β} {b : β} :
    x.map f = .ok b ↔ ∃ a, x = .ok a ∧ f a = b := by
  cases x <;> simp

theorem map_eq_error {x : Except ε α} {f : α → β} {e : ε} : x.map f = .error e ↔ x = .error e := by
  cases x <;> simp

theorem mapError_eq_ok {δ : Type} {x : Except ε α} {f : ε → δ} {a : α} :
    x.mapError f = .ok a ↔ x = .ok a := by
  cases x with
  | error e => constructor <;> rintro ⟨⟩
  | ok b =>
    constructor <;>
      rintro ⟨⟩
    all_goals rfl

theorem isOk_map {x : Except ε α} (h : ∃ a, x = .ok a) (f : α → β) : ∃ b, x.map f = .ok b := by
  obtain ⟨a, rfl⟩ := h
  exact ⟨f a, rfl⟩

theorem isOk_bind {x : Except ε α} {f : α → Except ε β} (h : ∃ a, x = .ok a)
    (hf : ∀ a, x = .ok a → ∃ b, f a = .ok b) : ∃ b, (x >>= f) = .ok b := by
  obtain ⟨a, rfl⟩ := h
  exact hf a rfl

theorem eq_ok_of_toOption {x : Except ε α} {a : α} (h : x.toOption = some a) : x = .ok a := by
  cases x with
  | error e => cases h
  | ok b => rw [Option.some.inj h]

theorem isOk_of_isSome {x : Except ε α} (h : x.toOption.isSome = true) : ∃ a, x = .ok a := by
  cases x with
  | error e => cases h
  | ok a => exact ⟨a, rfl⟩

theorem isOk_of_mapM {f : α → Except ε β} : ∀ {xs : List α}, (∀ x ∈ xs, ∃ y, f x = .ok y) →
    ∃ ys, xs.mapM f = .ok ys
  | [], _ => ⟨[], rfl⟩
  | x :: xs, h => by
    obtain ⟨y, hy⟩ := h x List.mem_cons_self
    obtain ⟨ys, hys⟩ := isOk_of_mapM fun z hz => h z (List.mem_cons_of_mem x hz)
    exact ⟨y :: ys, by rw [List.mapM_cons, hy, bind_ok, hys]; rfl⟩

theorem mapM_cons_eq_ok {f : α → Except ε β} {x : α} {xs : List α} {ys : List β} :
    (x :: xs).mapM f = .ok ys ↔ ∃ y zs, f x = .ok y ∧ xs.mapM f = .ok zs ∧ ys = y :: zs := by
  simp only [List.mapM_cons, bind_eq_ok]
  constructor
  · rintro ⟨y, hy, zs, hzs, h⟩
    exact ⟨y, zs, hy, hzs, (Except.ok.inj h).symm⟩
  · rintro ⟨y, zs, hy, hzs, rfl⟩
    exact ⟨y, hy, zs, hzs, rfl⟩

theorem mapM_eq_ok_nil {f : α → Except ε β} {ys : List β} :
    ([] : List α).mapM f = .ok ys ↔ ys = [] := by
  constructor
  · rintro ⟨⟩
    rfl
  · rintro rfl
    rfl

/-- Each element of a list has its value in the list of values. -/
theorem exists_of_mapM {f : α → Except ε β} : ∀ {xs : List α} {ys : List β}, xs.mapM f = .ok ys →
    ∀ x ∈ xs, ∃ y ∈ ys, f x = .ok y
  | [], _, _, _, hx => by cases hx
  | x :: xs, ys, h, z, hz => by
    obtain ⟨y, zs, hy, hzs, rfl⟩ := mapM_cons_eq_ok.1 h
    rcases List.mem_cons.1 hz with rfl | hz
    · exact ⟨y, List.mem_cons_self, hy⟩
    · obtain ⟨w, hw, he⟩ := exists_of_mapM hzs z hz
      exact ⟨w, List.mem_cons_of_mem y hw, he⟩

/-- Each value is that of an element. -/
theorem mem_of_mapM {f : α → Except ε β} : ∀ {xs : List α} {ys : List β}, xs.mapM f = .ok ys →
    ∀ y ∈ ys, ∃ x ∈ xs, f x = .ok y
  | [], ys, h, y, hy => by
    rw [mapM_eq_ok_nil.1 h] at hy
    cases hy
  | x :: xs, ys, h, w, hw => by
    obtain ⟨y, zs, hy, hzs, rfl⟩ := mapM_cons_eq_ok.1 h
    rcases List.mem_cons.1 hw with rfl | hw
    · exact ⟨x, List.mem_cons_self, hy⟩
    · obtain ⟨z, hz, he⟩ := mem_of_mapM hzs w hw
      exact ⟨z, List.mem_cons_of_mem x hz, he⟩

theorem mapM_append_eq_ok {f : α → Except ε β} {xs ys : List α} {zs : List β} :
    (xs ++ ys).mapM f = .ok zs ↔
      ∃ as bs, xs.mapM f = .ok as ∧ ys.mapM f = .ok bs ∧ zs = as ++ bs := by
  simp only [List.mapM_append, bind_eq_ok]
  constructor
  · rintro ⟨as, has, bs, hbs, h⟩
    exact ⟨as, bs, has, hbs, (Except.ok.inj h).symm⟩
  · rintro ⟨as, bs, has, hbs, rfl⟩
    exact ⟨as, has, bs, hbs, rfl⟩

theorem mapM_congr_ok {f h : α → Except ε β} : ∀ {xs : List α} {ys : List β}, xs.mapM f = .ok ys →
    (∀ x ∈ xs, ∀ y, f x = .ok y → h x = .ok y) → xs.mapM h = .ok ys
  | [], ys, hys, _ => hys
  | x :: xs, ys, hys, hf => by
    obtain ⟨y, zs, hy, hzs, rfl⟩ := mapM_cons_eq_ok.1 hys
    exact mapM_cons_eq_ok.2 ⟨y, zs, hf x List.mem_cons_self y hy,
      mapM_congr_ok hzs fun z hz => hf z (List.mem_cons_of_mem x hz), rfl⟩

/-- What each value has from its element. -/
theorem map_of_mapM {γ : Type} {f : α → Except ε β} {g : β → γ} {h : α → γ}
    (hf : ∀ x y, f x = .ok y → g y = h x) :
    ∀ {xs : List α} {ys : List β}, xs.mapM f = .ok ys → ys.map g = xs.map h
  | [], ys, hys => by
    rw [mapM_eq_ok_nil.1 hys]
    rfl
  | x :: xs, ys, hys => by
    obtain ⟨y, zs, hy, hzs, rfl⟩ := mapM_cons_eq_ok.1 hys
    rw [List.map_cons, List.map_cons, hf x y hy, map_of_mapM hf hzs]

theorem mapM_eq_ok_map {f : α → Except ε β} {g : α → β} : ∀ {xs : List α},
    (∀ x ∈ xs, f x = .ok (g x)) → xs.mapM f = .ok (xs.map g)
  | [], _ => rfl
  | x :: _, h => mapM_cons_eq_ok.2 ⟨_, _, h x List.mem_cons_self,
      mapM_eq_ok_map fun y hy => h y (List.mem_cons_of_mem x hy), rfl⟩

/-- A step that can only give one value for each element gives all of these. -/
theorem eq_map_of_mapM {f : α → Except ε β} {g : α → β} : ∀ {xs : List α} {ys : List β},
    xs.mapM f = .ok ys → (∀ x ∈ xs, ∀ y, f x = .ok y → y = g x) → ys = xs.map g
  | [], _, h, _ => mapM_eq_ok_nil.1 h
  | x :: xs, ys, h, hf => by
    obtain ⟨y, zs, hy, hzs, rfl⟩ := mapM_cons_eq_ok.1 h
    rw [List.map_cons, hf x List.mem_cons_self y hy,
      eq_map_of_mapM hzs fun z hz => hf z (List.mem_cons_of_mem x hz)]

theorem length_of_mapM {f : α → Except ε β} : ∀ {xs : List α} {ys : List β},
    xs.mapM f = .ok ys → ys.length = xs.length
  | [], ys, h => by
    rw [mapM_eq_ok_nil.1 h]
    rfl
  | x :: xs, ys, h => by
    obtain ⟨y, zs, -, hzs, rfl⟩ := mapM_cons_eq_ok.1 h
    rw [List.length_cons, List.length_cons, length_of_mapM hzs]

theorem take_of_mapM {f : α → Except ε β} : ∀ {xs : List α} {ys : List β},
    xs.mapM f = .ok ys → ∀ n, (xs.take n).mapM f = .ok (ys.take n)
  | [], ys, h, n => by
    rw [mapM_eq_ok_nil.1 h, List.take_nil, List.take_nil]
    rfl
  | x :: xs, ys, h, 0 => rfl
  | x :: xs, ys, h, n + 1 => by
    obtain ⟨y, zs, hy, hzs, rfl⟩ := mapM_cons_eq_ok.1 h
    exact mapM_cons_eq_ok.2 ⟨y, _, hy, take_of_mapM hzs n, rfl⟩

theorem isOk_of_option {f : α → Except ε β} {Q : β → Prop} : ∀ {o : Option α},
    (∀ x ∈ o, ∃ y, f x = .ok y ∧ Q y) → ∃ o', o.mapM f = .ok o' ∧ ∀ y ∈ o', Q y
  | none, _ => ⟨none, rfl, by rintro _ ⟨⟩⟩
  | some x, h => by
    obtain ⟨y, hy, hQ⟩ := h x rfl
    refine ⟨some y, ?_, ?_⟩
    · rw [Option.mapM_some, hy]
      rfl
    · rintro _ ⟨⟩
      exact hQ

end Outcome

/-- A step that is known leaves the ones behind it. -/
theorem run_bind_of_run {σ α β : Type} {x : StateM σ α} {f : α → StateM σ β} {w w' : σ} {a : α}
    (h : x.run w = (a, w')) : (x >>= f).run w = (f a).run w' := by
  rw [StateT.run_bind, h]
  rfl

end TableTalk
