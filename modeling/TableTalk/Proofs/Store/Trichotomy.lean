import TableTalk.Proofs.Decimal.Numbers
import TableTalk.Proofs.Store.Loading
import TableTalk.Store.Evaluate

/-!
# Comparisons of two cells

Two cells that hold something are in one order, by which all six comparisons go
(`Comparison.exists_order`); beside nothing none of them holds (`Comparison.holds_null`).

A double that is no number would be something in a comparison and nothing once it is cast. No column
has one (`Declared.genuine_store`), and the numbers that a query spells are none either
(`Cell.negate_ne_null`).
-/

namespace TableTalk

open Sql Decimal

namespace Sql.Comparison

/-- Two cells are compared once, whatever is asked of their order. -/
theorem exists_order (type : Option Declared) {l r : Cell} (hl : l ≠ .null) (hr : r ≠ .null) :
    ∃ o, ∀ op : Comparison, (op.apply type l r).holds = op.holds o := by
  refine ⟨(Cell.alike type l r).1.compare (Cell.alike type l r).2, fun op => ?_⟩
  have htruth : ∀ b, (Cell.truth b).holds = b := by decide
  cases l <;> cases r <;> first | exact absurd rfl hl | exact absurd rfl hr | exact htruth _

theorem holds_null (op : Comparison) (type : Option Declared) (r : Cell) :
    (op.apply type .null r).holds = false := rfl

end Sql.Comparison

namespace Cell

/-- A cell that is no double, or one that is a number. -/
def Genuine (c : Cell) : Prop := ∀ x, c = real x → x.isNaN = false

theorem genuine_real {x : Float} (h : x.isNaN = false) : (real x).Genuine := by
  rintro _ ⟨⟩
  exact h

theorem Genuine.toReal {c : Cell} (h : c.Genuine) : c.toReal.Genuine := by
  cases c with
  | int n => exact genuine_real (isNaN_ofInt n)
  | real x =>
    refine genuine_real ?_
    rw [unsignedZero]
    split_ifs
    · rfl
    · exact h x rfl
  | null | text | loose | blob => nofun

theorem Genuine.toWhole {c : Cell} (h : c.Genuine) : c.toWhole.Genuine := by
  cases c with
  | real x =>
    rw [Cell.toWhole, integral]
    split
    · rintro y ⟨⟩
    · exact h
  | int | null | text | loose | blob => rintro y ⟨⟩

theorem genuine_of_numeric? {s : String} {c : Cell} (h : numeric? s = some c) : c.Genuine := by
  obtain ⟨⟨negative, n⟩, -, rfl⟩ := Option.map_eq_some_iff.1 h
  have hread : (real (signed negative (Wide.read n))).Genuine :=
    genuine_real ((isNaN_signed _ _).trans (Wide.isNaN_read n))
  generalize hk : (if negative then -(n.digits : Int) else n.digits) = k
  simp only [hk]
  split
  · nofun
  · exact hread

/-- A number with a sign in front of it is one. -/
theorem negate_ne_null {c : Cell} (hc : c.isNumber = true) (h : c.Genuine) : c.negate ≠ null := by
  cases c with
  | int n =>
    have hnegate : (int n).negate = ofInt (0 - n) := rfl
    rw [hnegate, ofInt]
    split_ifs <;> nofun
  | real x =>
    have hnegate : (real x).negate = ofFloat (0 - x) := rfl
    rw [hnegate, ofFloat, isNaN_zero_sub (h x rfl)]
    nofun
  | null | text | loose | blob => cases hc

end Cell

/-- What a column keeps of a value is no double that is no number, unless the value is one. -/
theorem Declared.genuine_store (type : Declared) {v : Option Json}
    (h : ∀ x, v = some (.double x) → x.isNaN = false) : (type.store (.ofJson v)).Genuine := by
  have hvalue : (Cell.ofJson v).Genuine := by
    rcases v with _ | (_ | b | n | x | s | items | members)
    case some.int =>
      rw [Cell.ofJson]
      split_ifs
      · nofun
      · exact Cell.genuine_real (isNaN_ofInt n)
    case some.double => exact Cell.genuine_real (h x rfl)
    all_goals nofun
  have hspelled : ∀ (s : String) (f : Cell → Cell), (∀ {c : Cell}, c.Genuine → (f c).Genuine) →
      (((Cell.numeric? s).map f).getD (.text s)).Genuine := fun s f hf => by
    rcases hs : Cell.numeric? s with - | c
    · nofun
    · exact hf (Cell.genuine_of_numeric? hs)
  generalize Cell.ofJson v = c at hvalue
  cases type with
  | varchar => cases c <;> first | exact hvalue | nofun
  | double =>
    cases c with
    | text s => exact hspelled s _ Cell.Genuine.toReal
    | null | int | real | loose | blob => exact hvalue.toReal
  | boolean | integer | unnamed =>
    cases c with
    | text s => exact hspelled s _ Cell.Genuine.toWhole
    | null | int | real | loose | blob => exact hvalue.toWhole

end TableTalk
