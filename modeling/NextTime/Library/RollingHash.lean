import Mathlib.Data.Int.ModEq
import Mathlib.Tactic.Ring

/-
The polynomial of a list of units at a base, and what becomes of it when the window over a
list moves on by one. Nothing here names a particular program.
-/

namespace RollingHash

/-- Each unit times the base to the number of units behind it. -/
def polynomial (base : Int) : List Int → Int
  | [] => 0
  | unit :: units => unit * base ^ units.length + polynomial base units

theorem polynomial_concat (base : Int) (units : List Int) (unit : Int) :
    polynomial base (units ++ [unit]) = polynomial base units * base + unit := by
  induction units with
  | nil => simp [polynomial]
  | cons first units ih =>
      rw [List.cons_append, polynomial, polynomial, ih, List.length_append, List.length_singleton,
        pow_succ]
      ring

/-- A unit comes in behind. -/
theorem polynomial_grows {base modulus hash : Int} {units : List Int}
    (holds : hash = polynomial base units % modulus) (unit : Int) :
    (hash * base % modulus + unit) % modulus = polynomial base (units ++ [unit]) % modulus := by
  rw [polynomial_concat, holds]
  have times : polynomial base units % modulus * base % modulus ≡
      polynomial base units * base [ZMOD modulus] :=
    (Int.mod_modEq _ _).trans ((Int.mod_modEq _ _).mul_right base)
  exact times.add_right unit

/-- The unit in front goes out. -/
theorem polynomial_leaves {base modulus hash leaving : Int} {units : List Int}
    (holds : hash = polynomial base (leaving :: units) % modulus) :
    (hash - leaving * (base ^ units.length % modulus) % modulus + modulus) % modulus =
      polynomial base units % modulus := by
  have gone : leaving * (base ^ units.length % modulus) % modulus ≡
      leaving * base ^ units.length [ZMOD modulus] :=
    (Int.mod_modEq _ _).trans ((Int.mod_modEq _ _).mul_left leaving)
  have left : hash ≡ leaving * base ^ units.length + polynomial base units [ZMOD modulus] := by
    rw [holds]
    exact Int.mod_modEq _ _
  have rest := left.sub gone
  rw [add_sub_cancel_left] at rest
  rw [Int.add_emod_right]
  exact rest

/-! ### Visiting -/

/-- The visitor sees one key after another until it returns true. -/
def visitUntil {Key State : Type} (visit : State → Key → State × Bool) :
    List Key → State → State × Bool
  | [], state => (state, false)
  | key :: keys, state =>
      if (visit state key).2 then ((visit state key).1, true)
      else visitUntil visit keys (visit state key).1

end RollingHash
