import Mathlib.Data.Int.Order.Basic
import Mathlib.Algebra.Order.Ring.Int

/-
Integers as doubles hold them: an operation has a result here only where the double is the
exact one and a remainder is not negative. Nothing here names a particular program.
-/

namespace SafeIntegers

/-- Every integer below is a double of its own. -/
def LIMIT : Int := 2 ^ 53

def checked (value : Int) : Option Int :=
  if -LIMIT < value ∧ value < LIMIT then some value else none

def add (left right : Int) : Option Int := checked (left + right)

def sub (left right : Int) : Option Int := checked (left - right)

def mul (left right : Int) : Option Int := checked (left * right)

/-- `left % right`: it has the sign of `left`. -/
def rem (left right : Int) : Option Int :=
  if 0 ≤ left.tmod right then some (left.tmod right) else none

/-- `Math.floor(left / right)` for a power of two on the right, where the quotient is exact. -/
def floorDiv (left right : Int) : Int := left / right

theorem checked_eq {value : Int} (above : -LIMIT < value) (below : value < LIMIT) :
    checked value = some value :=
  if_pos ⟨above, below⟩

theorem add_eq {left right : Int} (above : -LIMIT < left + right) (below : left + right < LIMIT) :
    add left right = some (left + right) :=
  checked_eq above below

theorem sub_eq {left right : Int} (above : -LIMIT < left - right) (below : left - right < LIMIT) :
    sub left right = some (left - right) :=
  checked_eq above below

theorem mul_eq {left right : Int} (above : -LIMIT < left * right) (below : left * right < LIMIT) :
    mul left right = some (left * right) :=
  checked_eq above below

theorem rem_eq {left right : Int} (nonnegative : 0 ≤ left) : rem left right = some (left % right) := by
  have same : left.tmod right = left % right := Int.tmod_eq_emod_of_nonneg nonnegative
  rw [rem, same]
  by_cases positive : right = 0
  · rw [positive, Int.emod_zero, if_pos nonnegative]
  · rw [if_pos (Int.emod_nonneg left positive)]

/-- A product of two integers that are not negative is below the product of their bounds. -/
theorem mul_lt {left right leftBound rightBound : Int} (leftNonnegative : 0 ≤ left)
    (rightNonnegative : 0 ≤ right) (leftBelow : left < leftBound) (rightBelow : right < rightBound) :
    left * right < leftBound * rightBound := by
  calc left * right ≤ left * rightBound :=
        Int.mul_le_mul_of_nonneg_left rightBelow.le leftNonnegative
    _ < leftBound * rightBound :=
        Int.mul_lt_mul_of_pos_right leftBelow (lt_of_le_of_lt rightNonnegative rightBelow)

end SafeIntegers
