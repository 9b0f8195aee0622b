import NextTime.Library.JsonText
import NextTime.Library.OwnProperties
import Mathlib

/-
Values as JSON.parse makes them of a text and JSON.stringify writes them: objects with
their own properties, the array indices among them in front and ascending, of a repeated
key one value kept. Numbers are a parameter. Nothing here names a particular program.
-/

open JsonText (Json NumberText parse stringify)
open JsString (js)

inductive JsValue (Number : Type)
  | null
  | bool (value : Bool)
  | num (number : Number)
  | str (text : JsString)
  | arr (items : List (JsValue Number))
  | obj (members : List (JsString × JsValue Number))

abbrev JsMembers (Number : Type) := List (JsString × JsValue Number)

/-- The numbers of the language: read of a text, as a string, and as JSON, where one that is
not finite has no text. What is written is read back. -/
structure JsNumbers (Number : Type) where
  read : NumberText → Number
  string : Number → JsString
  write : Number → Option NumberText
  read_write : ∀ {number : Number} {text : NumberText}, write number = some text →
    read text = number

theorem JsNumbers.text_of_some {number text : NumberText} (written : some number = some text) :
    text = number :=
  (Option.some.inj written).symm

/-- Numbers that are their texts. -/
def JsNumbers.written : JsNumbers NumberText where
  read text := text
  string text := text.1
  write text := some text
  read_write := text_of_some

namespace JsValue

/-! ### The order of own properties -/

def digitsValue (digits : JsString) : Nat :=
  digits.foldl (fun value digit => value * 10 + (digit.toNat - 0x30)) 0

/-- The place of an array index; every other key stands behind them. -/
def rank (key : JsString) : Nat :=
  if key ≠ [] ∧ key.all JsonText.isDigit ∧ (key = [0x30] ∨ key.head? ≠ some 0x30) ∧
      digitsValue key < 2 ^ 32 - 1 then digitsValue key
  else 2 ^ 32 - 1

section
variable {Value : Type}

def Earlier (first second : JsString × Value) : Prop := rank first.1 ≤ rank second.1

instance : DecidableRel (@Earlier Value) :=
  fun first second => inferInstanceAs (Decidable (rank first.1 ≤ rank second.1))

instance : Std.Total (@Earlier Value) :=
  ⟨fun first second => Nat.le_total (rank first.1) (rank second.1)⟩

instance : IsTrans (JsString × Value) Earlier :=
  ⟨fun _ _ _ => Nat.le_trans⟩

def ownOrder (members : List (JsString × Value)) : List (JsString × Value) :=
  members.insertionSort Earlier

def keys (members : List (JsString × Value)) : List JsString := members.map Prod.fst

/-- The members of an object: no key twice, and in their order. -/
structure Proper (members : List (JsString × Value)) : Prop where
  nodup : (keys members).Nodup
  ordered : members.Pairwise Earlier

end

end JsValue

/-- Of two members with one key, the value that a reader keeps. -/
inductive DuplicateKeys
  | first
  | last
deriving DecidableEq, Repr

namespace JsValue

section
variable {Value : Type}

def add : DuplicateKeys → List (JsString × Value) → JsString × Value → List (JsString × Value)
  | .first, members, member => 
      if member.1 ∈ keys members then members else members ++ [member]
  | .last, members, member => OwnProperties.assign member.1 member.2 members

def collapse (keeps : DuplicateKeys) (members : List (JsString × Value)) :
    List (JsString × Value) :=
  ownOrder (members.foldl (add keeps) [])

theorem assign_fresh {key : JsString} {members : List (JsString × Value)}
    (fresh : key ∉ keys members) (value : Value) :
    OwnProperties.assign key value members = members ++ [(key, value)] := by
  induction members with
  | nil => rfl
  | cons member members ih =>
      have other : member.1 ≠ key := fun same => fresh (same ▸ List.mem_cons_self)
      rw [OwnProperties.assign, if_neg other,
        ih fun member => fresh (List.mem_cons_of_mem _ member), List.cons_append]

theorem keys_cons (member : JsString × Value) (members : List (JsString × Value)) :
    keys (member :: members) = member.1 :: keys members :=
  rfl

theorem keys_assign (key : JsString) (value : Value) (members : List (JsString × Value)) :
    keys (OwnProperties.assign key value members) =
      if key ∈ keys members then keys members else keys members ++ [key] := by
  induction members with
  | nil => rfl
  | cons member members ih =>
      rw [OwnProperties.assign]
      by_cases same : member.1 = key
      · rw [if_pos same, keys_cons, keys_cons, same, if_pos List.mem_cons_self]
      · rw [if_neg same, keys_cons, keys_cons, ih]
        have behind : key ∈ member.1 :: keys members ↔ key ∈ keys members := by
          rw [List.mem_cons]
          exact ⟨fun either => either.resolve_left (Ne.symm same), .inr⟩
        by_cases held : key ∈ keys members
        · rw [if_pos held, if_pos (behind.mpr held)]
        · rw [if_neg held, if_neg (behind.not.mpr held), List.cons_append]

theorem nodup_concat {held : List JsString} (nodup : held.Nodup) {key : JsString}
    (fresh : key ∉ held) : (held ++ [key]).Nodup := by
  rw [← List.concat_eq_append]
  exact nodup.concat fresh

theorem nodup_assign {members : List (JsString × Value)} (nodup : (keys members).Nodup)
    (key : JsString) (value : Value) :
    (keys (OwnProperties.assign key value members)).Nodup := by
  rw [keys_assign]
  split
  next => exact nodup
  next fresh => exact nodup_concat nodup fresh

theorem nodup_add (keeps : DuplicateKeys) {members : List (JsString × Value)}
    (nodup : (keys members).Nodup) (member : JsString × Value) :
    (keys (add keeps members member)).Nodup := by
  cases keeps with
  | first =>
      rw [add]
      split
      next => exact nodup
      next fresh =>
        rw [keys, List.map_append]
        exact nodup_concat nodup fresh
  | last => exact nodup_assign nodup member.1 member.2

theorem add_fresh (keeps : DuplicateKeys) {members : List (JsString × Value)}
    {member : JsString × Value} (fresh : member.1 ∉ keys members) :
    add keeps members member = members ++ [member] := by
  cases keeps with
  | first => rw [add, if_neg fresh]
  | last => exact assign_fresh fresh member.2

theorem proper_ownOrder {members : List (JsString × Value)} (nodup : (keys members).Nodup) :
    Proper (ownOrder members) where
  nodup := (List.perm_insertionSort Earlier members).map Prod.fst |>.nodup_iff.mpr nodup
  ordered := List.pairwise_insertionSort Earlier members

theorem proper_collapse (keeps : DuplicateKeys) (members : List (JsString × Value)) :
    Proper (collapse keeps members) := by
  have nodup : ∀ held : List (JsString × Value), (keys held).Nodup →
      (keys (members.foldl (add keeps) held)).Nodup := by
    induction members with
    | nil => exact fun _ nodup => nodup
    | cons member members ih => exact fun held nodup => ih _ (nodup_add keeps nodup member)
  exact proper_ownOrder (nodup [] List.nodup_nil)

/-- Members without a key twice are read one after the other. -/
theorem foldl_add_of_nodup (keeps : DuplicateKeys) {members : List (JsString × Value)}
    (nodup : (keys members).Nodup) : members.foldl (add keeps) [] = members := by
  have whole : ∀ held : List (JsString × Value), (keys (held ++ members)).Nodup →
      members.foldl (add keeps) held = held ++ members := by
    clear nodup
    induction members with
    | nil => exact fun held _ => (List.append_nil held).symm
    | cons member members ih =>
        intro held nodup
        have fresh : member.1 ∉ keys held := by
          intro isHeld
          rw [keys, List.map_append, List.nodup_append] at nodup
          exact nodup.2.2 _ isHeld _ List.mem_cons_self rfl
        have regroup : held ++ member :: members = held ++ [member] ++ members := by
          rw [List.append_assoc, List.singleton_append]
        rw [List.foldl_cons, add_fresh keeps fresh, ih _ (regroup ▸ nodup), regroup]
  exact whole [] nodup

/-- Members in their order, without a key twice, stay as they are. -/
theorem collapse_proper (keeps : DuplicateKeys) {members : List (JsString × Value)}
    (proper : Proper members) : collapse keeps members = members := by
  rw [collapse, foldl_add_of_nodup keeps proper.nodup]
  exact List.Pairwise.insertionSort_eq proper.ordered

theorem mem_of_lookup {members : List (JsString × Value)} {key : JsString} {value : Value}
    (held : members.lookup key = some value) : (key, value) ∈ members := by
  obtain ⟨front, back, whole, _⟩ := List.lookup_eq_some_iff.mp held
  rw [whole]
  exact List.mem_append_right front List.mem_cons_self

theorem lookup_of_mem {members : List (JsString × Value)} (nodup : (keys members).Nodup)
    {member : JsString × Value} (isIn : member ∈ members) :
    members.lookup member.1 = some member.2 := by
  induction members with
  | nil => cases isIn
  | cons first members ih =>
      rw [keys_cons, List.nodup_cons] at nodup
      rw [List.lookup_cons]
      cases List.mem_cons.mp isIn with
      | inl same => rw [same, beq_self_eq_true]
      | inr later =>
          have different : member.1 ≠ first.1 := by
            intro same
            exact nodup.1 (same ▸ List.mem_map_of_mem later)
          rw [beq_false_of_ne different]
          exact ih nodup.2 later

theorem lookup_isNone_iff {members : List (JsString × Value)} {name : JsString} :
    (members.lookup name).isNone = true ↔ name ∉ keys members := by
  rw [Option.isNone_iff_eq_none, List.lookup_eq_none_iff, keys, List.mem_map]
  constructor
  · rintro other ⟨member, held, rfl⟩
    simpa using other member held
  · intro missing member held
    simp only [bne_iff_ne]
    rintro rfl
    exact missing ⟨member, held, rfl⟩

/-- A filter on keys is seen by a lookup as a test of the key. -/
theorem lookup_filterKeys (keeps : JsString → Bool) (key : JsString)
    (members : List (JsString × Value)) :
    (members.filter fun member => keeps member.1).lookup key =
      if keeps key = true then members.lookup key else none := by
  induction members with
  | nil => rw [List.filter_nil, List.lookup_nil, ite_self]
  | cons member members ih =>
      rw [List.filter_cons, List.lookup_cons]
      by_cases same : key = member.1
      · rw [← same, beq_self_eq_true]
        by_cases kept : keeps key = true
        · rw [if_pos kept, if_pos kept, List.lookup_cons, same, beq_self_eq_true]
        · rw [if_neg kept, ih, if_neg kept, if_neg kept]
      · rw [beq_false_of_ne same]
        split
        next => rw [List.lookup_cons, beq_false_of_ne same]; exact ih
        next => exact ih

theorem lookup_assign_same (key : JsString) (value : Value) (members : List (JsString × Value)) :
    (OwnProperties.assign key value members).lookup key = some value := by
  induction members with
  | nil => rw [OwnProperties.assign, List.lookup_cons, beq_self_eq_true]
  | cons member members ih =>
      rw [OwnProperties.assign]
      split
      next => rw [List.lookup_cons, beq_self_eq_true]
      next different =>
        rw [List.lookup_cons, beq_false_of_ne (Ne.symm different)]
        exact ih

theorem lookup_assign_other {key other : JsString} (different : other ≠ key) (value : Value)
    (members : List (JsString × Value)) :
    (OwnProperties.assign key value members).lookup other = members.lookup other := by
  induction members with
  | nil =>
      rw [OwnProperties.assign, List.lookup_cons, beq_false_of_ne different]
  | cons member members ih =>
      rw [OwnProperties.assign]
      split
      next same =>
        rw [List.lookup_cons, List.lookup_cons, same, beq_false_of_ne different]
      next => rw [List.lookup_cons, List.lookup_cons, ih]

/-- The order of members plays no part in a lookup. -/
theorem lookup_ownOrder {members : List (JsString × Value)} (nodup : (keys members).Nodup)
    (key : JsString) : (ownOrder members).lookup key = members.lookup key := by
  have sameLookup (value : Value) : (ownOrder members).lookup key = some value ↔
      members.lookup key = some value := by
    constructor
    · intro held
      exact lookup_of_mem nodup ((List.mem_insertionSort Earlier).mp (mem_of_lookup held))
    · intro held
      exact lookup_of_mem (proper_ownOrder nodup).nodup
        ((List.mem_insertionSort Earlier).mpr (mem_of_lookup held))
  exact Option.ext sameLookup

/-- Every value of the object is one of those read. -/
theorem mem_add {keeps : DuplicateKeys} {members : List (JsString × Value)}
    {member other : JsString × Value} (isIn : other ∈ add keeps members member) :
    other ∈ members ∨ other = member := by
  cases keeps with
  | first =>
      rw [add] at isIn
      split at isIn
      next => exact .inl isIn
      next =>
        cases List.mem_append.mp isIn with
        | inl held => exact .inl held
        | inr added => exact .inr (List.mem_singleton.mp added)
  | last =>
      rw [add] at isIn
      induction members with
      | nil => exact .inr (List.mem_singleton.mp isIn)
      | cons first members ih =>
          rw [OwnProperties.assign] at isIn
          split at isIn
          next =>
            cases List.mem_cons.mp isIn with
            | inl added => exact .inr added
            | inr held => exact .inl (List.mem_cons_of_mem _ held)
          next =>
            cases List.mem_cons.mp isIn with
            | inl isFirst => exact .inl (isFirst ▸ List.mem_cons_self)
            | inr later =>
                cases ih later with
                | inl held => exact .inl (List.mem_cons_of_mem _ held)
                | inr added => exact .inr added

theorem mem_collapse {keeps : DuplicateKeys} {members : List (JsString × Value)}
    {other : JsString × Value} (isIn : other ∈ collapse keeps members) : other ∈ members := by
  have whole : ∀ held : List (JsString × Value), other ∈ members.foldl (add keeps) held →
      other ∈ held ∨ other ∈ members := by
    clear isIn
    induction members with
    | nil => exact fun _ isIn => .inl isIn
    | cons member members ih =>
        intro held isIn
        cases ih _ isIn with
        | inr later => exact .inr (List.mem_cons_of_mem _ later)
        | inl added =>
            cases mem_add added with
            | inl isHeld => exact .inl isHeld
            | inr isMember => exact .inr (isMember ▸ List.mem_cons_self)
  rw [collapse, ownOrder, List.mem_insertionSort] at isIn
  cases whole [] isIn with
  | inl nothing => cases nothing
  | inr isMember => exact isMember

end

/-! ### Reading and writing -/

section
variable {Number : Type} (numbers : JsNumbers Number)

mutual

/-- A value read of JSON. -/
def revive (keeps : DuplicateKeys) : Json → JsValue Number
  | .null => .null
  | .bool value => .bool value
  | .num text => .num (numbers.read text)
  | .str text => .str text
  | .arr items => .arr (reviveItems keeps items)
  | .obj members => .obj (collapse keeps (reviveMembers keeps members))

def reviveItems (keeps : DuplicateKeys) : List Json → List (JsValue Number)
  | [] => []
  | item :: items => revive keeps item :: reviveItems keeps items

def reviveMembers (keeps : DuplicateKeys) : List (JsString × Json) → JsMembers Number
  | [] => []
  | (key, value) :: members => (key, revive keeps value) :: reviveMembers keeps members

end

mutual

/-- A value as JSON; a number that is not finite is written as null. -/
def write : JsValue Number → Json
  | .null => .null
  | .bool value => .bool value
  | .num number =>
      match numbers.write number with
      | some text => .num text
      | none => .null
  | .str text => .str text
  | .arr items => .arr (writeItems items)
  | .obj members => .obj (writeMembers members)

def writeItems : List (JsValue Number) → List Json
  | [] => []
  | item :: items => write item :: writeItems items

def writeMembers : JsMembers Number → List (JsString × Json)
  | [] => []
  | (key, value) :: members => (key, write value) :: writeMembers members

end

mutual

/-- What is left of a value that is written and read again. -/
def rewritten : JsValue Number → JsValue Number
  | .null => .null
  | .bool value => .bool value
  | .num number =>
      match numbers.write number with
      | some _ => .num number
      | none => .null
  | .str text => .str text
  | .arr items => .arr (rewrittenItems items)
  | .obj members => .obj (rewrittenMembers members)

def rewrittenItems : List (JsValue Number) → List (JsValue Number)
  | [] => []
  | item :: items => rewritten item :: rewrittenItems items

def rewrittenMembers : JsMembers Number → JsMembers Number
  | [] => []
  | (key, value) :: members => (key, rewritten value) :: rewrittenMembers members

end

/-- `JSON.parse`, by a reader that keeps the first or the last of repeated keys. -/
def parseText (keeps : DuplicateKeys) (text : JsString) : Option (JsValue Number) :=
  (parse text).map (revive numbers keeps)

def stringifyValue (value : JsValue Number) : JsString := stringify [] [] (write numbers value)

end

/-! ### What is written is read again -/

section
variable {Number : Type}

mutual

/-- The objects of a value have proper members. -/
def Own : JsValue Number → Prop
  | .arr items => OwnItems items
  | .obj members => Proper members ∧ OwnMembers members
  | _ => True

def OwnItems : List (JsValue Number) → Prop
  | [] => True
  | item :: items => Own item ∧ OwnItems items

def OwnMembers : JsMembers Number → Prop
  | [] => True
  | (_, value) :: members => Own value ∧ OwnMembers members

end

theorem ownItems_iff {items : List (JsValue Number)} :
    OwnItems items ↔ ∀ item ∈ items, Own item := by
  induction items with
  | nil => exact iff_of_true trivial fun _ member => nomatch member
  | cons item items ih => rw [OwnItems, ih, List.forall_mem_cons]

theorem ownMembers_iff {members : JsMembers Number} :
    OwnMembers members ↔ ∀ member ∈ members, Own member.2 := by
  induction members with
  | nil => exact iff_of_true trivial fun _ member => nomatch member
  | cons member members ih => rw [OwnMembers, ih, List.forall_mem_cons]

variable {numbers : JsNumbers Number}

mutual

theorem own_revive (keeps : DuplicateKeys) : ∀ json : Json, Own (revive numbers keeps json)
  | .null => trivial
  | .bool _ => trivial
  | .num _ => trivial
  | .str _ => trivial
  | .arr items => ownItems_iff.mpr (own_reviveItems keeps items)
  | .obj members => by
      rw [revive, Own]
      constructor
      · exact proper_collapse keeps _
      · apply ownMembers_iff.mpr
        intro member isIn
        exact own_reviveMembers keeps members member (mem_collapse isIn)

theorem own_reviveItems (keeps : DuplicateKeys) : ∀ items : List Json,
    ∀ item ∈ reviveItems numbers keeps items, Own item
  | [] => fun _ member => nomatch member
  | first :: items => by
      intro item member
      cases List.mem_cons.mp member with
      | inl same => exact same ▸ own_revive keeps first
      | inr later => exact own_reviveItems keeps items item later

theorem own_reviveMembers (keeps : DuplicateKeys) : ∀ members : List (JsString × Json),
    ∀ member ∈ reviveMembers numbers keeps members, Own member.2
  | [] => fun _ member => nomatch member
  | (key, value) :: members => by
      intro member isMember
      cases List.mem_cons.mp isMember with
      | inl same => exact same ▸ own_revive keeps value
      | inr later => exact own_reviveMembers keeps members member later

end

theorem rewrittenItems_map (items : List (JsValue Number)) :
    rewrittenItems numbers items = items.map (rewritten numbers) := by
  induction items with
  | nil => rfl
  | cons item items ih => rw [rewrittenItems, ih, List.map_cons]

theorem rewrittenMembers_map (members : JsMembers Number) :
    rewrittenMembers numbers members =
      members.map fun member => (member.1, rewritten numbers member.2) := by
  induction members with
  | nil => rfl
  | cons member members ih => rw [rewrittenMembers, ih, List.map_cons]

theorem keys_mapValues {Value : Type} (change : JsString → Value → Value)
    (members : List (JsString × Value)) :
    keys (members.map fun member => (member.1, change member.1 member.2)) = keys members := by
  rw [keys, List.map_map]
  rfl

/-- The order and the distinctness of members are of their keys alone. -/
theorem Proper.mapValues {Value : Type} {members : List (JsString × Value)}
    (proper : Proper members) (change : JsString → Value → Value) :
    Proper (members.map fun member => (member.1, change member.1 member.2)) where
  nodup := by
    rw [keys_mapValues]
    exact proper.nodup
  ordered := List.pairwise_map.mpr proper.ordered

mutual

/-- Whichever of repeated keys a reader keeps, it reads a written value the same. -/
theorem revive_write (keeps : DuplicateKeys) : ∀ value : JsValue Number, Own value →
    revive numbers keeps (write numbers value) = rewritten numbers value
  | .null, _ => rfl
  | .bool _, _ => rfl
  | .num number, _ => by
      rw [write, rewritten]
      cases written : numbers.write number with
      | none => rfl
      | some text =>
          change JsValue.num (numbers.read text) = .num number
          rw [numbers.read_write written]
  | .str _, _ => rfl
  | .arr items, own => by
      rw [write, revive, rewritten, revive_writeItems keeps items own]
  | .obj members, own => by
      rw [write, revive, rewritten, revive_writeMembers keeps members own.2, rewrittenMembers_map,
        collapse_proper keeps (own.1.mapValues fun _ value => rewritten numbers value)]

theorem revive_writeItems (keeps : DuplicateKeys) : ∀ items : List (JsValue Number),
    OwnItems items →
      reviveItems numbers keeps (writeItems numbers items) = rewrittenItems numbers items
  | [], _ => rfl
  | item :: items, own => by
      rw [writeItems, reviveItems, rewrittenItems, revive_write keeps item own.1,
        revive_writeItems keeps items own.2]

theorem revive_writeMembers (keeps : DuplicateKeys) : ∀ members : JsMembers Number,
    OwnMembers members →
      reviveMembers numbers keeps (writeMembers numbers members) =
        rewrittenMembers numbers members
  | [], _ => rfl
  | (key, value) :: members, own => by
      rw [writeMembers, reviveMembers, rewrittenMembers, revive_write keeps value own.1,
        revive_writeMembers keeps members own.2]

end

/-- A written value is read again, whichever of repeated keys a reader keeps. -/
theorem parseText_stringifyValue (keeps : DuplicateKeys) {value : JsValue Number}
    (own : Own value) :
    parseText numbers keeps (stringifyValue numbers value) = some (rewritten numbers value) := by
  rw [parseText, stringifyValue, JsonText.parse_stringify JsonText.spaces_nil, Option.map_some,
    revive_write keeps value own]

theorem own_parseText {keeps : DuplicateKeys} {text : JsString} {value : JsValue Number}
    (read : parseText numbers keeps text = some value) : Own value := by
  obtain ⟨json, _, isValue⟩ := Option.map_eq_some_iff.mp read
  exact isValue ▸ own_revive keeps json

/-! ### What writing changes -/

mutual

/-- The numbers in a value. -/
def numbersOf : JsValue Number → List Number
  | .num number => [number]
  | .arr items => numbersOfItems items
  | .obj members => numbersOfMembers members
  | _ => []

def numbersOfItems : List (JsValue Number) → List Number
  | [] => []
  | item :: items => numbersOf item ++ numbersOfItems items

def numbersOfMembers : JsMembers Number → List Number
  | [] => []
  | (_, value) :: members => numbersOf value ++ numbersOfMembers members

end

mutual

/-- A value is read again as it was exactly when its numbers are finite. -/
theorem rewritten_eq_iff : ∀ value : JsValue Number,
    rewritten numbers value = value ↔
      ∀ number ∈ numbersOf value, (numbers.write number).isSome = true
  | .null => iff_of_true rfl fun _ member => nomatch member
  | .bool _ => iff_of_true rfl fun _ member => nomatch member
  | .str _ => iff_of_true rfl fun _ member => nomatch member
  | .num number => by
      rw [numbersOf, List.forall_mem_singleton, rewritten]
      cases numbers.write number with
      | none => exact iff_of_false (fun same => nomatch same) (fun isSome => nomatch isSome)
      | some text => exact iff_of_true rfl rfl
  | .arr items => by
      rw [rewritten, numbersOf, JsValue.arr.injEq]
      exact rewrittenItems_eq_iff items
  | .obj members => by
      rw [rewritten, numbersOf, JsValue.obj.injEq]
      exact rewrittenMembers_eq_iff members

theorem rewrittenItems_eq_iff : ∀ items : List (JsValue Number),
    rewrittenItems numbers items = items ↔
      ∀ number ∈ numbersOfItems items, (numbers.write number).isSome = true
  | [] => iff_of_true rfl fun _ member => nomatch member
  | item :: items => by
      rw [rewrittenItems, numbersOfItems, List.forall_mem_append, List.cons.injEq,
        rewritten_eq_iff item, rewrittenItems_eq_iff items]

theorem rewrittenMembers_eq_iff : ∀ members : JsMembers Number,
    rewrittenMembers numbers members = members ↔
      ∀ number ∈ numbersOfMembers members, (numbers.write number).isSome = true
  | [] => iff_of_true rfl fun _ member => nomatch member
  | (key, value) :: members => by
      rw [rewrittenMembers, numbersOfMembers, List.forall_mem_append, List.cons.injEq,
        Prod.mk.injEq, rewritten_eq_iff value, rewrittenMembers_eq_iff members]
      simp only [true_and]

end

end

/-! ### As a string -/

section
variable {Number : Type} (numbers : JsNumbers Number)

mutual

/-- `String(value)`, or a value's text in a joined list, where null is left blank; none where
it throws, on an object with a `toString` of its own. -/
def text (inList : Bool) : JsValue Number → Option JsString
  | .null => some (if inList then [] else js "null")
  | .bool true => some (js "true")
  | .bool false => some (js "false")
  | .num number => some (numbers.string number)
  | .str text => some text
  | .arr [] => some []
  | .arr (item :: items) =>
      match text true item, joinedBehind items with
      | some first, some rest => some (first ++ rest)
      | _, _ => none
  | .obj members =>
      if (members.lookup (js "toString")).isSome then none else some (js "[object Object]")

/-- The items behind a first one, each behind a comma. -/
def joinedBehind : List (JsValue Number) → Option JsString
  | [] => some []
  | item :: items =>
      match text true item, joinedBehind items with
      | some first, some rest => some (0x2C :: (first ++ rest))
      | _, _ => none

end

def string (value : JsValue Number) : Option JsString := text numbers false value

end


end JsValue
