import NextTime.Library.JsString

/-
Upper and lower case of a text. The letters beyond ASCII are Unicode's, and a parameter
here. Nothing here names a particular program.
-/

namespace JsString

def isAscii (text : JsString) : Prop := ∀ unit ∈ text, unit < 0x80

theorem isAscii_iff {text : JsString} :
    text.all (fun unit => unit < 0x80) = true ↔ isAscii text := by
  rw [List.all_eq_true]
  exact forall₂_congr fun _ _ => decide_eq_true_iff

instance : DecidablePred isAscii := fun _ => decidable_of_iff _ isAscii_iff

def asciiLower (unit : UInt16) : UInt16 :=
  if 0x41 ≤ unit && unit ≤ 0x5A then unit + 0x20 else unit

def asciiUpper (unit : UInt16) : UInt16 :=
  if 0x61 ≤ unit && unit ≤ 0x7A then unit - 0x20 else unit

end JsString

open JsString (isAscii asciiLower asciiUpper)

/-- `toLowerCase` and `toUpperCase`, on ASCII as they are there. Where a text in lower case
ends in an ASCII letter, its last unit alone decides that. -/
structure JsCasing where
  toLowerCase : JsString → JsString
  toUpperCase : JsString → JsString
  lower_ascii : ∀ text, isAscii text → toLowerCase text = text.map asciiLower
  upper_ascii : ∀ text, isAscii text → toUpperCase text = text.map asciiUpper
  lower_last : ∀ text other : JsString, text.getLast? = other.getLast? → ∀ unit < 0x80,
    (toLowerCase text).getLast? = some unit → (toLowerCase other).getLast? = some unit

namespace JsCasing

/-- The case of ASCII letters only. -/
def ascii : JsCasing where
  toLowerCase := List.map asciiLower
  toUpperCase := List.map asciiUpper
  lower_ascii _ _ := rfl
  upper_ascii _ _ := rfl
  lower_last text other same unit _ last := by
    rw [List.getLast?_map, ← same, ← List.getLast?_map, last]

end JsCasing
