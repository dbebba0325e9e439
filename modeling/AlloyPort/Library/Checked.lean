import Mathlib.Tactic.Linarith

/-! Integer types of fixed width. An operation whose exact result does not fit gives nothing; a conversion
or an operation that saturates gives the nearest number of the type instead. -/

namespace Checked

structure IntType where
  least : Int
  greatest : Int

def u64 : IntType := ⟨0, 2 ^ 64 - 1⟩

def i64 : IntType := ⟨-2 ^ 63, 2 ^ 63 - 1⟩

def u128 : IntType := ⟨0, 2 ^ 128 - 1⟩

def i128 : IntType := ⟨-2 ^ 127, 2 ^ 127 - 1⟩

namespace IntType

variable {type : IntType} {z : Int}

def Holds (type : IntType) (z : Int) : Prop := type.least ≤ z ∧ z ≤ type.greatest

instance (type : IntType) (z : Int) : Decidable (type.Holds z) :=
  inferInstanceAs (Decidable (type.least ≤ z ∧ z ≤ type.greatest))

def checked (type : IntType) (z : Int) : Option Int := if type.Holds z then some z else none

def quotient (type : IntType) (a b : Int) : Option Int := if b = 0 then none else type.checked (a.tdiv b)

def saturating (type : IntType) (z : Int) : Int := max type.least (min type.greatest z)

theorem checked_of_holds (h : type.Holds z) : type.checked z = some z := if_pos h

theorem quotient_of_nonneg {a b : Int} (ha : 0 ≤ a) (hb : 0 < b) (hleast : type.least ≤ 0) (hfits : a ≤ type.greatest) :
    type.quotient a b = some (a / b) := by
  have hnonneg : 0 ≤ a / b := Int.ediv_nonneg ha hb.le
  have hle : a / b ≤ a := Int.ediv_le_self b ha
  rw [quotient, if_neg hb.ne', Int.tdiv_eq_ediv_of_nonneg ha, checked_of_holds ⟨hleast.trans hnonneg, hle.trans hfits⟩]

theorem saturating_of_holds (h : type.Holds z) : type.saturating z = z := by
  rw [saturating, min_eq_right h.2, max_eq_right h.1]

theorem checked_getD_greatest (h : type.least ≤ z) (hz : type.least ≤ type.greatest) :
    (type.checked z).getD type.greatest = type.saturating z := by
  by_cases hle : z ≤ type.greatest
  · have hholds : type.Holds z := ⟨h, hle⟩
    rw [checked_of_holds hholds, saturating_of_holds hholds, Option.getD_some]
  · have hnot : ¬ type.Holds z := fun hholds => hle hholds.2
    rw [checked, if_neg hnot, Option.getD_none, saturating, min_eq_left (not_le.mp hle).le, max_eq_right hz]

end IntType

end Checked
