import Mathlib.Data.List.Basic

/-
JSON values as a program holds them: numbers by the text they are written as,
object fields in the order they were written. Two values have the same JSON text
exactly when they are equal. Nothing here names a particular program.
-/

inductive JsonValue
  | null
  | bool (value : Bool)
  | num (text : String)
  | str (value : String)
  | arr (items : List JsonValue)
  | obj (fields : List (String × JsonValue))
deriving Repr

/-- The fields of an object; one that is missing reads as `none`. -/
abbrev JsonFields := List (String × JsonValue)

namespace JsonValue

mutual

def decEq : (left right : JsonValue) → Decidable (left = right)
  | .null, right => by
      cases right with
      | null => exact isTrue rfl
      | _ => exact isFalse (by intro same; cases same)
  | .bool value, right => by
      cases right with
      | bool other => exact decidable_of_iff (value = other) (by rw [JsonValue.bool.injEq])
      | _ => exact isFalse (by intro same; cases same)
  | .num text, right => by
      cases right with
      | num other => exact decidable_of_iff (text = other) (by rw [JsonValue.num.injEq])
      | _ => exact isFalse (by intro same; cases same)
  | .str value, right => by
      cases right with
      | str other => exact decidable_of_iff (value = other) (by rw [JsonValue.str.injEq])
      | _ => exact isFalse (by intro same; cases same)
  | .arr items, right => by
      cases right with
      | arr others =>
          have := decEqItems items others
          exact decidable_of_iff (items = others) (by rw [JsonValue.arr.injEq])
      | _ => exact isFalse (by intro same; cases same)
  | .obj fields, right => by
      cases right with
      | obj others =>
          have := decEqFields fields others
          exact decidable_of_iff (fields = others) (by rw [JsonValue.obj.injEq])
      | _ => exact isFalse (by intro same; cases same)

def decEqItems : (left right : List JsonValue) → Decidable (left = right)
  | [], [] => isTrue rfl
  | [], _ :: _ => isFalse (by intro same; cases same)
  | _ :: _, [] => isFalse (by intro same; cases same)
  | item :: items, other :: others =>
      have := decEq item other
      have := decEqItems items others
      decidable_of_iff (item = other ∧ items = others) (by rw [List.cons.injEq])

def decEqFields : (left right : List (String × JsonValue)) → Decidable (left = right)
  | [], [] => isTrue rfl
  | [], _ :: _ => isFalse (by intro same; cases same)
  | _ :: _, [] => isFalse (by intro same; cases same)
  | (key, value) :: fields, (otherKey, otherValue) :: others =>
      have := decEq value otherValue
      have := decEqFields fields others
      decidable_of_iff ((key = otherKey ∧ value = otherValue) ∧ fields = others)
        (by rw [List.cons.injEq, Prod.mk.injEq])

end

instance : DecidableEq JsonValue := decEq

/-- A field put in its place among fields sorted by key. -/
def insertField (field : String × JsonValue) : List (String × JsonValue) →
    List (String × JsonValue)
  | [] => [field]
  | other :: others =>
      if field.1 ≤ other.1 then field :: other :: others else other :: insertField field others

mutual

/-- The fields of every object sorted by key. -/
def sorted : JsonValue → JsonValue
  | .arr items => .arr (sortedItems items)
  | .obj fields => .obj (sortedFields fields)
  | .null => .null
  | .bool value => .bool value
  | .num text => .num text
  | .str value => .str value

def sortedItems : List JsonValue → List JsonValue
  | [] => []
  | item :: items => sorted item :: sortedItems items

def sortedFields : List (String × JsonValue) → List (String × JsonValue)
  | [] => []
  | (key, value) :: fields => insertField (key, sorted value) (sortedFields fields)

end

/-- An array of strings, read back. -/
def strings? : JsonValue → Option (List String)
  | .arr items => items.mapM fun item =>
      match item with
      | .str value => some value
      | _ => none
  | _ => none

def ofStrings (values : List String) : JsonValue :=
  .arr (values.map .str)

@[simp]
theorem strings?_ofStrings (values : List String) : (ofStrings values).strings? = some values := by
  rw [ofStrings, strings?]
  induction values with
  | nil => rfl
  | cons value values ih =>
      rw [List.map_cons, List.mapM_cons, ih]
      rfl

end JsonValue
