import TableTalk.Proofs.Outcome
import TableTalk.Sql.Parser
import Mathlib.Tactic.SplitIfs

/-!
# Bad tokens are never read

Whatever a reader reads, it stops in front of a bad token (`Keeps`). So tokens with a bad one among
them spell no query (`Query.ofTokens_bad`).
-/

namespace TableTalk.Sql

def Token.isBad : Token → Bool
  | bad _ => true
  | _ => false

/-- All bad tokens are still there behind what is read. -/
def Keeps {α : Type} (r : Read α) : Prop :=
  ∀ ⦃ts : List Token⦄ ⦃a : α⦄ ⦃rest : List Token⦄ ⦃s : String⦄,
    r ts = .ok (a, rest) → .bad s ∈ ts → .bad s ∈ rest

section Steps

variable {ts : List Token} {s : String}

theorem bad_of_cons {t : Token} (ht : t.isBad = false) (h : .bad s ∈ t :: ts) : .bad s ∈ ts := by
  rcases List.mem_cons.1 h with rfl | h
  · cases ht
  · exact h

theorem keeps_expect {t : Token} (ht : t.isBad = false) : Keeps (Read.expect t) := by
  intro ts a rest s h hb
  unfold Read.expect at h
  split at h
  · split_ifs at h with he
    · cases h
      exact bad_of_cons (he ▸ ht) hb
    · cases h
  · cases h

theorem keeps_mark (m : Mark) : Keeps (Read.mark m) := keeps_expect rfl

theorem keeps_key (k : Keyword) : Keeps (Read.key k) := keeps_expect rfl

theorem keeps_name : Keeps Read.name := by
  intro ts a rest s h hb
  unfold Read.name at h
  split at h
  · cases h
    exact bad_of_cons rfl hb
  · cases h
    exact bad_of_cons rfl hb
  · cases h

end Steps

namespace Expr

/-- No reader of expressions takes a bad token. -/
structure AllKeep (d : Dialect) (fuel : Nat) : Prop where
  read : Keeps (read d fuel)
  sum : Keeps (readSum d fuel)
  sumRest : ∀ l, Keeps (readSumRest d fuel l)
  product : Keeps (readProduct d fuel)
  productRest : ∀ l, Keeps (readProductRest d fuel l)
  suffixed : Keeps (readSuffixed d fuel)
  suffixes : ∀ e, Keeps (readSuffixes d fuel e)
  operand : Keeps (readOperand d fuel)
  call : ∀ c, Keeps (readCall d fuel c)

theorem allKeep_zero (d : Dialect) : AllKeep d 0 := by
  constructor
  case sumRest => intro l ts a rest s h; cases h
  case productRest => intro l ts a rest s h; cases h
  case suffixes => intro l ts a rest s h; cases h
  case call => intro l ts a rest s h; cases h
  all_goals intro ts a rest s h; cases h

section Step

variable {d : Dialect} {fuel : Nat}

theorem keeps_read (ih : AllKeep d fuel) : Keeps (read d (fuel + 1)) := by
  intro ts a rest s h hb
  rw [read, bind_eq_ok] at h
  obtain ⟨⟨l, ts'⟩, hl, h⟩ := h
  have hb := ih.sum hl hb
  dsimp only at h
  split at h
  · obtain ⟨⟨r, _⟩, hr, h⟩ := bind_eq_ok.1 h
    cases h
    exact ih.sum hr (bad_of_cons rfl hb)
  · split at h
    · cases h
      exact hb
    · obtain ⟨⟨r, _⟩, hr, h⟩ := bind_eq_ok.1 h
      cases h
      exact ih.sum hr (bad_of_cons rfl hb)
  · split at h
    · obtain ⟨⟨r, _⟩, hr, h⟩ := bind_eq_ok.1 h
      cases h
      exact ih.sum hr (bad_of_cons rfl hb)
    · cases h
      exact hb
  · cases h
    exact hb

theorem keeps_readSumRest (ih : AllKeep d fuel) (l : Expr Name) :
    Keeps (readSumRest d (fuel + 1) l) := by
  intro ts a rest s h hb
  unfold readSumRest at h
  split at h
  · obtain ⟨⟨r, _⟩, hr, h⟩ := bind_eq_ok.1 h
    exact ih.sumRest _ h (ih.product hr (bad_of_cons rfl hb))
  · cases h
    exact hb

theorem keeps_readProductRest (ih : AllKeep d fuel) (l : Expr Name) :
    Keeps (readProductRest d (fuel + 1) l) := by
  intro ts a rest s h hb
  unfold readProductRest at h
  split at h
  · obtain ⟨⟨r, _⟩, hr, h⟩ := bind_eq_ok.1 h
    exact ih.productRest _ h (ih.suffixed hr (bad_of_cons rfl hb))
  · obtain ⟨⟨r, _⟩, hr, h⟩ := bind_eq_ok.1 h
    exact ih.productRest _ h (ih.suffixed hr (bad_of_cons rfl hb))
  · cases h
    exact hb

theorem keeps_readSuffixes (ih : AllKeep d fuel) (e : Expr Name) :
    Keeps (readSuffixes d (fuel + 1) e) := by
  intro ts a rest s h hb
  unfold readSuffixes at h
  split at h
  · obtain ⟨⟨k, _⟩, hk, h⟩ := bind_eq_ok.1 h
    exact ih.suffixes _ h (ih.operand hk (bad_of_cons rfl hb))
  · split at h
    · exact ih.suffixes _ h (bad_of_cons rfl (bad_of_cons rfl hb))
    · cases h
      exact hb
  · cases h
    exact hb

theorem keeps_readOperand (ih : AllKeep d fuel) : Keeps (readOperand d (fuel + 1)) := by
  intro ts a rest s h hb
  unfold readOperand at h
  split at h
  case h_6 =>
    obtain ⟨⟨e, _⟩, he, h⟩ := bind_eq_ok.1 h
    cases h
    exact ih.operand he (bad_of_cons rfl hb)
  case h_7 =>
    obtain ⟨⟨e, _⟩, he, h⟩ := bind_eq_ok.1 h
    obtain ⟨⟨_, _⟩, hm, h⟩ := bind_eq_ok.1 h
    cases h
    exact keeps_mark _ hm (ih.read he (bad_of_cons rfl hb))
  case h_8 =>
    split at h
    · exact ih.call _ h (bad_of_cons rfl (bad_of_cons rfl hb))
    · cases h
  case h_10 => cases h
  all_goals
    cases h
    exact bad_of_cons rfl hb

theorem keeps_readCall (ih : AllKeep d fuel) (c : Callee) : Keeps (readCall d (fuel + 1) c) := by
  intro ts a rest s h hb
  unfold readCall at h
  split at h
  · cases h
    exact bad_of_cons rfl (bad_of_cons rfl hb)
  obtain ⟨⟨e, _⟩, he, h⟩ := bind_eq_ok.1 h
  have hb := ih.read he hb
  dsimp only at h
  split at h
  · obtain ⟨⟨_, _⟩, hm, h⟩ := bind_eq_ok.1 h
    cases h
    exact keeps_mark _ hm hb
  · obtain ⟨⟨_, _⟩, hm, h⟩ := bind_eq_ok.1 h
    cases h
    exact keeps_mark _ hm hb
  · obtain ⟨⟨_, _⟩, hcomma, h⟩ := bind_eq_ok.1 h
    obtain ⟨⟨r, _⟩, hr, h⟩ := bind_eq_ok.1 h
    obtain ⟨⟨_, _⟩, hm, h⟩ := bind_eq_ok.1 h
    cases h
    exact keeps_mark _ hm (ih.read hr (keeps_mark _ hcomma hb))
  · obtain ⟨⟨_, _⟩, hclose, h⟩ := bind_eq_ok.1 h
    obtain ⟨⟨_, _⟩, hover, h⟩ := bind_eq_ok.1 h
    obtain ⟨⟨_, _⟩, hopen, h⟩ := bind_eq_ok.1 h
    obtain ⟨⟨_, _⟩, horder, h⟩ := bind_eq_ok.1 h
    obtain ⟨⟨_, _⟩, hby, h⟩ := bind_eq_ok.1 h
    obtain ⟨⟨o, _⟩, ho, h⟩ := bind_eq_ok.1 h
    obtain ⟨⟨_, _⟩, hm, h⟩ := bind_eq_ok.1 h
    cases h
    have hb := keeps_mark _ hopen (keeps_key _ hover (keeps_mark _ hclose hb))
    exact keeps_mark _ hm (ih.read ho (keeps_key _ hby (keeps_key _ horder hb)))

theorem allKeep_succ (ih : AllKeep d fuel) : AllKeep d (fuel + 1) where
  read := keeps_read ih
  sum := by
    intro ts a rest s h hb
    rw [readSum, bind_eq_ok] at h
    obtain ⟨⟨l, _⟩, hl, h⟩ := h
    exact ih.sumRest _ h (ih.product hl hb)
  sumRest := keeps_readSumRest ih
  product := by
    intro ts a rest s h hb
    rw [readProduct, bind_eq_ok] at h
    obtain ⟨⟨l, _⟩, hl, h⟩ := h
    exact ih.productRest _ h (ih.suffixed hl hb)
  productRest := keeps_readProductRest ih
  suffixed := by
    intro ts a rest s h hb
    rw [readSuffixed, bind_eq_ok] at h
    obtain ⟨⟨e, _⟩, he, h⟩ := h
    exact ih.suffixes _ h (ih.operand he hb)
  suffixes := keeps_readSuffixes ih
  operand := keeps_readOperand ih
  call := keeps_readCall ih

end Step

theorem allKeep (d : Dialect) : ∀ fuel, AllKeep d fuel
  | 0 => allKeep_zero d
  | fuel + 1 => allKeep_succ (allKeep d fuel)

end Expr

namespace Select

variable {d : Dialect} {fuel : Nat}

theorem keeps_readItem : Keeps (readItem d fuel) := by
  intro ts a rest s h hb
  rw [readItem, bind_eq_ok] at h
  obtain ⟨⟨e, _⟩, he, h⟩ := h
  have hb := (Expr.allKeep d fuel).read he hb
  dsimp only at h
  split at h
  · cases h
    exact bad_of_cons rfl (bad_of_cons rfl hb)
  · cases h
    exact hb

theorem keeps_readItems : ∀ fuel, Keeps (readItems d fuel)
  | 0 => by
    intro ts a rest s h
    cases h
  | fuel + 1 => by
    intro ts a rest s h hb
    rw [readItems, bind_eq_ok] at h
    obtain ⟨⟨i, _⟩, hi, h⟩ := h
    have hb := keeps_readItem hi hb
    dsimp only at h
    split at h
    · obtain ⟨⟨is, _⟩, his, h⟩ := bind_eq_ok.1 h
      cases h
      exact keeps_readItems fuel his (bad_of_cons rfl hb)
    · cases h
      exact hb

theorem keeps_readSelection : Keeps (readSelection d fuel) := by
  intro ts a rest s h hb
  unfold readSelection at h
  split at h
  · cases h
    exact bad_of_cons rfl hb
  · obtain ⟨⟨is, _⟩, his, h⟩ := bind_eq_ok.1 h
    cases h
    exact keeps_readItems fuel his hb

theorem keeps_readConditions : ∀ fuel depth, Keeps (readConditions d fuel depth)
  | 0, _ => by
    intro ts a rest s h
    cases h
  | fuel + 1, depth => by
    intro ts a rest s h hb
    rw [readConditions, bind_eq_ok] at h
    obtain ⟨⟨c, _⟩, hc, h⟩ := h
    have hb := (Expr.allKeep d fuel).read hc hb
    dsimp only at h
    split_ifs at h
    split at h
    · obtain ⟨⟨cs, _⟩, hcs, h⟩ := bind_eq_ok.1 h
      cases h
      exact keeps_readConditions fuel _ hcs (bad_of_cons rfl hb)
    · cases h
      exact hb

theorem keeps_readWhere : Keeps (readWhere d fuel) := by
  intro ts a rest s h hb
  unfold readWhere at h
  split at h
  · exact keeps_readConditions fuel 0 h (bad_of_cons rfl hb)
  · cases h
    exact hb

theorem keeps_readGroup : Keeps (readGroup d fuel) := by
  intro ts a rest s h hb
  unfold readGroup at h
  split at h
  · obtain ⟨⟨_, _⟩, hk, h⟩ := bind_eq_ok.1 h
    obtain ⟨⟨e, _⟩, he, h⟩ := bind_eq_ok.1 h
    cases h
    exact (Expr.allKeep d fuel).read he (keeps_key _ hk (bad_of_cons rfl hb))
  · cases h
    exact hb

theorem keeps_readOrder : Keeps (readOrder d fuel) := by
  intro ts a rest s h hb
  unfold readOrder at h
  split at h
  · obtain ⟨⟨_, _⟩, hk, h⟩ := bind_eq_ok.1 h
    obtain ⟨⟨e, _⟩, he, h⟩ := bind_eq_ok.1 h
    have hb := (Expr.allKeep d fuel).read he (keeps_key _ hk (bad_of_cons rfl hb))
    dsimp only at h
    split at h
    · cases h
      exact bad_of_cons rfl hb
    · cases h
      exact bad_of_cons rfl hb
    · cases h
      exact hb
  · cases h
    exact hb

theorem keeps_readLimit : Keeps readLimit := by
  intro ts a rest s h hb
  unfold readLimit at h
  split at h
  · split at h
    · cases h
      exact bad_of_cons rfl (bad_of_cons rfl hb)
    · cases h
  · cases h
    exact hb

theorem keeps_read : Keeps (read d fuel) := by
  intro ts a rest s h hb
  rw [read, bind_eq_ok] at h
  obtain ⟨⟨_, _⟩, hkey, h⟩ := h
  obtain ⟨⟨items, _⟩, hitems, h⟩ := bind_eq_ok.1 h
  obtain ⟨⟨_, _⟩, hfrom, h⟩ := bind_eq_ok.1 h
  obtain ⟨⟨source, _⟩, hsource, h⟩ := bind_eq_ok.1 h
  obtain ⟨⟨conditions, _⟩, hwhere, h⟩ := bind_eq_ok.1 h
  obtain ⟨⟨groupBy, _⟩, hgroup, h⟩ := bind_eq_ok.1 h
  obtain ⟨⟨orderBy, _⟩, horder, h⟩ := bind_eq_ok.1 h
  obtain ⟨⟨limit, _⟩, hlimit, h⟩ := bind_eq_ok.1 h
  cases h
  have hb := keeps_name hsource (keeps_key _ hfrom (keeps_readSelection hitems (keeps_key _ hkey hb)))
  exact keeps_readLimit hlimit (keeps_readOrder horder (keeps_readGroup hgroup
    (keeps_readWhere hwhere hb)))

end Select

namespace Query

variable {d : Dialect}

theorem keeps_readCommon {fuel : Nat} : Keeps (readCommon d fuel) := by
  intro ts a rest s h hb
  unfold readCommon at h
  split at h
  · obtain ⟨⟨c, _⟩, hc, h⟩ := bind_eq_ok.1 h
    obtain ⟨⟨_, _⟩, hm, h⟩ := bind_eq_ok.1 h
    cases h
    have hb := bad_of_cons rfl (bad_of_cons rfl (bad_of_cons rfl (bad_of_cons rfl hb)))
    exact keeps_mark _ hm (Select.keeps_read hc hb)
  · cases h
    exact hb

/-- Tokens with a bad one among them spell no query. -/
theorem ofTokens_bad {ts : List Token} {s : String} (hb : .bad s ∈ ts) {q : Query} :
    ofTokens d ts ≠ .ok q := by
  intro h
  rw [ofTokens, readAll, bind_eq_ok] at h
  obtain ⟨⟨common, _⟩, hcommon, h⟩ := h
  obtain ⟨⟨main, rest⟩, hmain, h⟩ := bind_eq_ok.1 h
  have hb := Select.keeps_read hmain (keeps_readCommon hcommon hb)
  dsimp only at h
  split_ifs at h with hempty
  rw [List.isEmpty_iff.1 hempty] at hb
  cases hb

end Query

end TableTalk.Sql
