import Mathlib.Data.List.TakeWhile

/-
Strings of JavaScript as the UTF-16 code units they are. Nothing here names a
particular program.
-/

abbrev JsString := List UInt16

namespace JsString

/-- Searching a list of texts compares them as they are. -/
instance : LawfulBEq JsString := inferInstance

instance : LawfulBEq (Option JsString) := inferInstance

/-- A text of ASCII characters. -/
def js (ascii : String) : JsString :=
  ascii.toList.map fun character => UInt16.ofNat character.toNat

/-- The white space and line terminators `trim` takes off. -/
def isWhiteSpace (unit : UInt16) : Bool :=
  [9, 10, 11, 12, 13, 32, 0xA0, 0xFEFF, 0x1680, 0x2000, 0x2001, 0x2002, 0x2003, 0x2004, 0x2005,
    0x2006, 0x2007, 0x2008, 0x2009, 0x200A, 0x2028, 0x2029, 0x202F, 0x205F, 0x3000].contains unit

def trim (text : JsString) : JsString :=
  (text.reverse.dropWhile isWhiteSpace).reverse.dropWhile isWhiteSpace

theorem trim_concat {unit : UInt16} (space : isWhiteSpace unit = true) (text : JsString) :
    trim (text ++ [unit]) = trim text := by
  rw [trim, List.reverse_append, List.reverse_singleton, List.singleton_append,
    List.dropWhile_cons_of_pos space, trim]

/-- Only a text of white space is trimmed away. -/
theorem trim_eq_nil_iff {text : JsString} :
    trim text = [] ↔ ∀ unit ∈ text, isWhiteSpace unit = true := by
  constructor
  · intro trimmed
    rw [trim, List.dropWhile_eq_nil_iff] at trimmed
    have front : ∀ unit ∈ text.reverse.takeWhile isWhiteSpace, isWhiteSpace unit = true :=
      fun unit member => List.mem_takeWhile_imp member
    intro unit member
    have split := List.takeWhile_append_dropWhile (p := isWhiteSpace) (l := text.reverse)
    have inSplit := List.mem_reverse.mpr member
    rw [← split, List.mem_append] at inSplit
    cases inSplit with
    | inl inFront => exact front unit inFront
    | inr inBack => exact trimmed unit (List.mem_reverse.mpr inBack)
  · intro spaces
    have nothing : text.reverse.dropWhile isWhiteSpace = [] :=
      List.dropWhile_eq_nil_iff.mpr fun unit member => spaces unit (List.mem_reverse.mp member)
    rw [trim, nothing]
    rfl

theorem trim_of_solid {text : JsString} (solid : ∀ unit ∈ text, isWhiteSpace unit = false) :
    trim text = text := by
  have kept : ∀ units : JsString, (∀ unit ∈ units, isWhiteSpace unit = false) →
      units.dropWhile isWhiteSpace = units := by
    intro units allSolid
    cases units with
    | nil => rfl
    | cons first rest =>
        rw [List.dropWhile_cons_of_neg]
        simp [allSolid first List.mem_cons_self]
  rw [trim, kept text.reverse fun unit member => solid unit (List.mem_reverse.mp member),
    List.reverse_reverse, kept text solid]

end JsString
