import NextTime.Library.JsObject

/-
Text that Postgres cannot store: where the first U+0000 of a value is, and a value with
each one stored as a stand-in. Objects and arrays are copied only where something in them
changed.
-/

namespace NextTime.Storable

open JsString (js)
open JsValue (keys ownOrder)

def UNSTORABLE_CHAR : UInt16 := 0

/-- `\u{0}`. -/
def UNSTORABLE_CHAR_STAND_IN : JsString := js "\\u" ++ [0x7B] ++ js "0" ++ [0x7D]

inductive PathStep
  | key (key : JsString)
  | index (index : Nat)
deriving DecidableEq, Repr

inductive Place
  | key
  | value
deriving DecidableEq, Repr

structure UnstorableTextLocation where
  path : List PathStep
  place : Place
deriving DecidableEq, Repr

section
variable {Number : Type}

/-! ### Finding -/

mutual

/-- The first U+0000 in a value, in a string or in a key, depth first. -/
def findUnstorableText (path : List PathStep) :
    JsValue Number → Option UnstorableTextLocation
  | .str text => if text.contains UNSTORABLE_CHAR then some ⟨path, .value⟩ else none
  | .arr items => findInItems path 0 items
  | .obj members => findInMembers path members
  | _ => none

def findInItems (path : List PathStep) (index : Nat) :
    List (JsValue Number) → Option UnstorableTextLocation
  | [] => none
  | item :: items =>
      match findUnstorableText (path ++ [.index index]) item with
      | some found => some found
      | none => findInItems path (index + 1) items

def findInMembers (path : List PathStep) :
    JsMembers Number → Option UnstorableTextLocation
  | [] => none
  | (key, item) :: members =>
      if key.contains UNSTORABLE_CHAR then some ⟨path ++ [.key key], .key⟩
      else
        match findUnstorableText (path ++ [.key key]) item with
        | some found => some found
        | none => findInMembers path members

end

/-! ### Storing -/

def storableText (text : JsString) : JsString :=
  if text.contains UNSTORABLE_CHAR then
    UNSTORABLE_CHAR_STAND_IN.intercalate (text.splitOn UNSTORABLE_CHAR)
  else text

def countIn (text : JsString) : Nat := (text.splitOn UNSTORABLE_CHAR).length - 1

def PROTO : JsString := js "__proto__"

/-- `out[key] = value`. Every object inherits a setter under one key, and no other. -/
def setMember {Value : Type} (key : JsString) (value : Value)
    (out : List (JsString × Value)) : List (JsString × Value) :=
  if key = PROTO then out else OwnProperties.assign key value out

/-- What a walk makes of a value: `changed` says that it is not the value itself. -/
structure Walked (Value : Type) where
  value : Value
  escaped : Nat
  changed : Bool

mutual

def walk : JsValue Number → Walked (JsValue Number)
  | .str text =>
      if countIn text = 0 then ⟨.str text, 0, false⟩
      else ⟨.str (storableText text), countIn text, decide (storableText text ≠ text)⟩
  | .arr items =>
      let out := walkItems items
      if out.changed then ⟨.arr out.value, out.escaped, true⟩ else ⟨.arr items, out.escaped, false⟩
  | .obj members =>
      let out := walkMembers ⟨[], 0, false⟩ members
      if out.changed then ⟨.obj (ownOrder out.value), out.escaped, true⟩
      else ⟨.obj members, out.escaped, false⟩
  | value => ⟨value, 0, false⟩

def walkItems : List (JsValue Number) → Walked (List (JsValue Number))
  | [] => ⟨[], 0, false⟩
  | item :: items =>
      let next := walk item
      let rest := walkItems items
      ⟨next.value :: rest.value, next.escaped + rest.escaped, next.changed || rest.changed⟩

/-- The members behind those walked so far. -/
def walkMembers (out : Walked (JsMembers Number)) :
    JsMembers Number → Walked (JsMembers Number)
  | [] => out
  | (key, item) :: members =>
      let nextKey := if countIn key = 0 then key else storableText key
      let next := walk item
      walkMembers
        { value := setMember nextKey next.value out.value
          escaped := out.escaped + countIn key + next.escaped
          changed := out.changed || next.changed || decide (nextKey ≠ key) }
        members

end

structure Stored (Value : Type) where
  value : Value
  escaped : Nat

def storableValue (value : JsValue Number) : Stored (JsValue Number) :=
  let next := walk value
  ⟨next.value, next.escaped⟩

/-! ### What storing is for -/

/-- A text with the stand-in for each U+0000. -/
def standIn (text : JsString) : JsString :=
  text.flatMap fun unit => if unit = UNSTORABLE_CHAR then UNSTORABLE_CHAR_STAND_IN else [unit]

mutual

/-- A value with the stand-in for each U+0000 of its strings and keys; of keys that become
equal the later wins. -/
def escapedValue : JsValue Number → JsValue Number
  | .str text => .str (standIn text)
  | .arr items => .arr (escapedItems items)
  | .obj members => .obj (JsValue.collapse .last (escapedMembers members))
  | value => value

def escapedItems : List (JsValue Number) → List (JsValue Number)
  | [] => []
  | item :: items => escapedValue item :: escapedItems items

def escapedMembers : JsMembers Number → JsMembers Number
  | [] => []
  | (key, item) :: members => (standIn key, escapedValue item) :: escapedMembers members

end

mutual

/-- How often U+0000 occurs in the strings and keys of a value. -/
def occurrences : JsValue Number → Nat
  | .str text => text.count UNSTORABLE_CHAR
  | .arr items => occurrencesInItems items
  | .obj members => occurrencesInMembers members
  | _ => 0

def occurrencesInItems : List (JsValue Number) → Nat
  | [] => 0
  | item :: items => occurrences item + occurrencesInItems items

def occurrencesInMembers : JsMembers Number → Nat
  | [] => 0
  | (key, item) :: members =>
      key.count UNSTORABLE_CHAR + occurrences item + occurrencesInMembers members

end

end

end NextTime.Storable
