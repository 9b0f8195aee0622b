import Mathlib.Data.List.Basic

/-
Objects used as dictionaries: own properties in insertion order, read with
`List.lookup`. Assigning a property that exists keeps its place. Nothing here
names a particular program.
-/

namespace OwnProperties

variable {Key Value : Type} [DecidableEq Key]

/-- `{ ...properties, [key]: value }`. -/
def assign (key : Key) (value : Value) : List (Key × Value) → List (Key × Value)
  | [] => [(key, value)]
  | property :: properties =>
      if property.1 = key then (key, value) :: properties
      else property :: assign key value properties

/-- `const { [key]: _removed, ...rest } = properties`. -/
def without (key : Key) (properties : List (Key × Value)) : List (Key × Value) :=
  properties.filter fun property => decide (property.1 ≠ key)

@[simp]
theorem lookup_assign_self (key : Key) (value : Value) (properties : List (Key × Value)) :
    (assign key value properties).lookup key = some value := by
  induction properties with
  | nil => simp [assign]
  | cons property properties ih =>
      rw [assign]
      split
      next => exact List.lookup_cons_self
      next different =>
        rw [List.lookup_cons, beq_false_of_ne (Ne.symm different)]
        exact ih

theorem lookup_assign_of_ne {key other : Key} (different : other ≠ key) (value : Value)
    (properties : List (Key × Value)) :
    (assign key value properties).lookup other = properties.lookup other := by
  induction properties with
  | nil => simp [assign, different]
  | cons property properties ih =>
      rw [assign]
      split
      next same =>
        rw [List.lookup_cons, List.lookup_cons, same, beq_false_of_ne different]
      next => rw [List.lookup_cons, List.lookup_cons, ih]

/-- A filter on keys is seen by a lookup as a test of the key. -/
theorem lookup_filter (keeps : Key → Bool) (key : Key) (properties : List (Key × Value)) :
    (properties.filter fun property => keeps property.1).lookup key =
      if keeps key = true then properties.lookup key else none := by
  induction properties with
  | nil => simp
  | cons property properties ih =>
      rw [List.filter_cons, List.lookup_cons]
      by_cases same : key = property.1
      · subst same
        by_cases kept : keeps property.1 = true
        · rw [if_pos kept, if_pos kept, List.lookup_cons, beq_self_eq_true]
        · rw [if_neg kept, if_neg kept, ih, if_neg kept]
      · rw [beq_false_of_ne same]
        split
        next => rw [List.lookup_cons, beq_false_of_ne same]; exact ih
        next => exact ih

@[simp]
theorem lookup_without_self (key : Key) (properties : List (Key × Value)) :
    (without key properties).lookup key = none := by
  rw [without, lookup_filter fun other => decide (other ≠ key)]
  simp

theorem lookup_without_of_ne {key other : Key} (different : other ≠ key)
    (properties : List (Key × Value)) :
    (without key properties).lookup other = properties.lookup other := by
  rw [without, lookup_filter fun held => decide (held ≠ key)]
  simp [different]

end OwnProperties
