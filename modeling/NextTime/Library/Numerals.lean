import NextTime.Library.JsString
import Mathlib.Data.Nat.Digits.Defs
import Mathlib.Data.Nat.Digits.Lemmas
import Mathlib.Tactic.Ring

/-
Numerals in texts of code units: the digits of a base, and what `parseInt` makes of
a text of digits. Nothing here names a particular program.
-/

namespace JsString

def isOctal (unit : UInt16) : Bool := 0x30 ≤ unit && unit ≤ 0x37

def isDecimal (unit : UInt16) : Bool := 0x30 ≤ unit && unit ≤ 0x39

def isHexadecimal (unit : UInt16) : Bool :=
  isDecimal unit || (0x41 ≤ unit && unit ≤ 0x46) || (0x61 ≤ unit && unit ≤ 0x66)

/-- What a hexadecimal digit stands for. -/
def digit (unit : UInt16) : Nat :=
  if unit ≤ 0x39 then unit.toNat - 0x30
  else if unit ≤ 0x46 then unit.toNat - 0x37
  else unit.toNat - 0x57

/-- `parseInt` of a text of digits. The source's number is this one up to 2^53 and no
smaller than 2^53 beyond. -/
def parseInt (radix : Nat) (text : JsString) : Nat :=
  Nat.ofDigits radix (text.reverse.map digit)

theorem isDecimal_iff {unit : UInt16} :
    isDecimal unit = true ↔ 0x30 ≤ unit.toNat ∧ unit.toNat ≤ 0x39 := by
  simp [isDecimal, UInt16.le_iff_toNat_le]

theorem isOctal_iff {unit : UInt16} :
    isOctal unit = true ↔ 0x30 ≤ unit.toNat ∧ unit.toNat ≤ 0x37 := by
  simp [isOctal, UInt16.le_iff_toNat_le]

theorem isHexadecimal_iff {unit : UInt16} :
    isHexadecimal unit = true ↔
      (0x30 ≤ unit.toNat ∧ unit.toNat ≤ 0x39) ∨ (0x41 ≤ unit.toNat ∧ unit.toNat ≤ 0x46) ∨
        0x61 ≤ unit.toNat ∧ unit.toNat ≤ 0x66 := by
  simp [isHexadecimal, isDecimal, UInt16.le_iff_toNat_le, or_assoc]

theorem isHexadecimal_of_isDecimal {unit : UInt16} (decimal : isDecimal unit = true) :
    isHexadecimal unit = true := by
  rw [isHexadecimal_iff]
  left
  exact isDecimal_iff.mp decimal

theorem digit_decimal {unit : UInt16} (decimal : isDecimal unit = true) :
    digit unit = unit.toNat - 0x30 := by
  have range := isDecimal_iff.mp decimal
  have low : unit ≤ 0x39 := UInt16.le_iff_toNat_le.mpr range.2
  rw [digit, if_pos low]

/-- A decimal digit is octal exactly when it stands for less than eight. -/
theorem isOctal_iff_digit {unit : UInt16} (decimal : isDecimal unit = true) :
    isOctal unit = true ↔ digit unit < 8 := by
  have range := isDecimal_iff.mp decimal
  rw [isOctal_iff, digit_decimal decimal]
  omega

theorem isDecimal_of_isOctal {unit : UInt16} (octal : isOctal unit = true) :
    isDecimal unit = true := by
  have range := isOctal_iff.mp octal
  rw [isDecimal_iff]
  omega

theorem parseInt_cons (radix : Nat) (unit : UInt16) (rest : JsString) :
    parseInt radix (unit :: rest) = digit unit * radix ^ rest.length + parseInt radix rest := by
  simp only [parseInt, List.reverse_cons, List.map_append, Nat.ofDigits_append, List.map_cons,
    List.map_nil, Nat.ofDigits_singleton, List.length_map, List.length_reverse]
  ring

theorem parseInt_singleton (radix : Nat) (unit : UInt16) :
    parseInt radix [unit] = digit unit := by
  simp [parseInt]

theorem parseInt_pair (radix : Nat) (first second : UInt16) :
    parseInt radix [first, second] = digit first * radix + digit second := by
  rw [parseInt_cons, parseInt_singleton, List.length_singleton, pow_one]

end JsString
