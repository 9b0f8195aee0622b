import NextTime.Library.JsObject

/-
Values as a text has them: every member of an object in the order of the text, a repeated
key as often as it is written. A reader keeps one value of each key and puts the array
indices in front. Nothing here names a particular program.
-/

open JsonText (Json parse stringify)

namespace JsValue

section
variable {Number : Type} (numbers : JsNumbers Number)

mutual

/-- All that is written, in its order. -/
def asWritten : Json → JsValue Number
  | .null => .null
  | .bool value => .bool value
  | .num text => .num (numbers.read text)
  | .str text => .str text
  | .arr items => .arr (asWrittenItems items)
  | .obj members => .obj (asWrittenMembers members)

def asWrittenItems : List Json → List (JsValue Number)
  | [] => []
  | item :: items => asWritten item :: asWrittenItems items

def asWrittenMembers : List (JsString × Json) → JsMembers Number
  | [] => []
  | (key, value) :: members => (key, asWritten value) :: asWrittenMembers members

end

mutual

/-- What a reader makes of a value as it is written. -/
def kept (keeps : DuplicateKeys) : JsValue Number → JsValue Number
  | .null => .null
  | .bool value => .bool value
  | .num number => .num number
  | .str text => .str text
  | .arr items => .arr (keptItems keeps items)
  | .obj members => .obj (collapse keeps (keptMembers keeps members))

def keptItems (keeps : DuplicateKeys) : List (JsValue Number) → List (JsValue Number)
  | [] => []
  | item :: items => kept keeps item :: keptItems keeps items

/-- The values of the members, each read; a repeated key still repeated. -/
def keptMembers (keeps : DuplicateKeys) : JsMembers Number → JsMembers Number
  | [] => []
  | (key, value) :: members => (key, kept keeps value) :: keptMembers keeps members

end

variable {numbers}

theorem keptItems_map (keeps : DuplicateKeys) (items : List (JsValue Number)) :
    keptItems keeps items = items.map (kept keeps) := by
  induction items with
  | nil => rfl
  | cons item items ih => rw [keptItems, ih, List.map_cons]

theorem keptMembers_map (keeps : DuplicateKeys) (members : JsMembers Number) :
    keptMembers keeps members = members.map fun member => (member.1, kept keeps member.2) := by
  induction members with
  | nil => rfl
  | cons member members ih => rw [keptMembers, ih, List.map_cons]

theorem lookup_keptMembers (keeps : DuplicateKeys) (key : JsString) (members : JsMembers Number) :
    (keptMembers keeps members).lookup key = (members.lookup key).map (kept keeps) := by
  induction members with
  | nil => rfl
  | cons member members ih =>
      rw [keptMembers, List.lookup_cons, List.lookup_cons]
      by_cases same : key = member.1
      · rw [same, beq_self_eq_true]
        rfl
      · rw [beq_false_of_ne same]
        exact ih

theorem keptMembers_assign (keeps : DuplicateKeys) (key : JsString) (value : JsValue Number)
    (members : JsMembers Number) :
    keptMembers keeps (OwnProperties.assign key value members) =
      OwnProperties.assign key (kept keeps value) (keptMembers keeps members) := by
  induction members with
  | nil => rfl
  | cons member members ih =>
      rw [OwnProperties.assign, keptMembers, OwnProperties.assign]
      split
      next => rw [keptMembers]
      next => rw [keptMembers, ih]

mutual

/-- A value is read as it is written, and then one value kept of each key. -/
theorem revive_eq (keeps : DuplicateKeys) : ∀ json : Json,
    revive numbers keeps json = kept keeps (asWritten numbers json)
  | .null => rfl
  | .bool _ => rfl
  | .num _ => rfl
  | .str _ => rfl
  | .arr items => by
      rw [revive, asWritten, kept, reviveItems_eq keeps items]
  | .obj members => by
      rw [revive, asWritten, kept, reviveMembers_eq keeps members]

theorem reviveItems_eq (keeps : DuplicateKeys) : ∀ items : List Json,
    reviveItems numbers keeps items = keptItems keeps (asWrittenItems numbers items)
  | [] => rfl
  | item :: items => by
      rw [reviveItems, asWrittenItems, keptItems, revive_eq keeps item, reviveItems_eq keeps items]

theorem reviveMembers_eq (keeps : DuplicateKeys) : ∀ members : List (JsString × Json),
    reviveMembers numbers keeps members = keptMembers keeps (asWrittenMembers numbers members)
  | [] => rfl
  | (key, value) :: members => by
      rw [reviveMembers, asWrittenMembers, keptMembers, revive_eq keeps value,
        reviveMembers_eq keeps members]

end

mutual

/-- A written value stands in its text as it was, but for numbers that are not finite. -/
theorem asWritten_write : ∀ value : JsValue Number,
    asWritten numbers (write numbers value) = rewritten numbers value
  | .null => rfl
  | .bool _ => rfl
  | .num number => by
      rw [write, rewritten]
      cases written : numbers.write number with
      | none => rfl
      | some text =>
          change JsValue.num (numbers.read text) = .num number
          rw [numbers.read_write written]
  | .str _ => rfl
  | .arr items => by
      rw [write, asWritten, rewritten, asWritten_writeItems items]
  | .obj members => by
      rw [write, asWritten, rewritten, asWritten_writeMembers members]

theorem asWritten_writeItems : ∀ items : List (JsValue Number),
    asWrittenItems numbers (writeItems numbers items) = rewrittenItems numbers items
  | [] => rfl
  | item :: items => by
      rw [writeItems, asWrittenItems, rewrittenItems, asWritten_write item,
        asWritten_writeItems items]

theorem asWritten_writeMembers : ∀ members : JsMembers Number,
    asWrittenMembers numbers (writeMembers numbers members) = rewrittenMembers numbers members
  | [] => rfl
  | (key, value) :: members => by
      rw [writeMembers, asWrittenMembers, rewrittenMembers, asWritten_write value,
        asWritten_writeMembers members]

end

mutual

/-- Where no key is repeated and array indices stand in front, every reader reads what is
written. -/
theorem kept_of_own (keeps : DuplicateKeys) : ∀ value : JsValue Number, Own value →
    kept keeps value = value
  | .null, _ => rfl
  | .bool _, _ => rfl
  | .num _, _ => rfl
  | .str _, _ => rfl
  | .arr items, own => by
      rw [kept, keptItems_of_own keeps items own]
  | .obj members, own => by
      rw [kept, keptMembers_of_own keeps members own.2, collapse_proper keeps own.1]

theorem keptItems_of_own (keeps : DuplicateKeys) : ∀ items : List (JsValue Number),
    OwnItems items → keptItems keeps items = items
  | [], _ => rfl
  | item :: items, own => by
      rw [keptItems, kept_of_own keeps item own.1, keptItems_of_own keeps items own.2]

theorem keptMembers_of_own (keeps : DuplicateKeys) : ∀ members : JsMembers Number,
    OwnMembers members → keptMembers keeps members = members
  | [], _ => rfl
  | (key, value) :: members, own => by
      rw [keptMembers, kept_of_own keeps value own.1, keptMembers_of_own keeps members own.2]

end

end

/-! ### One value of each key -/

section
variable {Value : Type}

theorem assign_mapValues (change : JsString → Value → Value) (key : JsString) (value : Value)
    (members : List (JsString × Value)) :
    OwnProperties.assign key (change key value)
        (members.map fun member => (member.1, change member.1 member.2)) =
      (OwnProperties.assign key value members).map fun member =>
        (member.1, change member.1 member.2) := by
  induction members with
  | nil => rfl
  | cons member members ih =>
      rw [List.map_cons, OwnProperties.assign, OwnProperties.assign]
      split
      next => rfl
      next => rw [ih, List.map_cons]

theorem assign_filterKeys (keep : JsString → Bool) (key : JsString) (value : Value)
    (members : List (JsString × Value)) :
    (OwnProperties.assign key value members).filter (fun member => keep member.1) =
      if keep key = true then
        OwnProperties.assign key value (members.filter fun member => keep member.1)
      else members.filter fun member => keep member.1 := by
  induction members with
  | nil =>
      rw [OwnProperties.assign, List.filter_cons, List.filter_nil]
      rfl
  | cons member members ih =>
      rw [OwnProperties.assign]
      by_cases same : member.1 = key
      · rw [if_pos same, List.filter_cons, List.filter_cons, same]
        split
        next => rw [OwnProperties.assign, if_pos same]
        next => rfl
      · rw [if_neg same, List.filter_cons, List.filter_cons, ih]
        split
        next =>
          split
          next => rw [OwnProperties.assign, if_neg same]
          next => rfl
        next => rfl

/-- The values of members are kept whatever they are. -/
theorem collapse_mapValues (change : JsString → Value → Value)
    (members : List (JsString × Value)) :
    collapse .last (members.map fun member => (member.1, change member.1 member.2)) =
      (collapse .last members).map fun member => (member.1, change member.1 member.2) := by
  have whole : ∀ held : List (JsString × Value),
      (members.map fun member => (member.1, change member.1 member.2)).foldl (add .last)
          (held.map fun member => (member.1, change member.1 member.2)) =
        (members.foldl (add .last) held).map fun member => (member.1, change member.1 member.2) := by
    induction members with
    | nil => exact fun _ => rfl
    | cons member members ih =>
        intro held
        rw [List.map_cons, List.foldl_cons, List.foldl_cons, ← ih]
        congr 1
        exact assign_mapValues change member.1 member.2 held
  have folded := whole []
  rw [List.map_nil] at folded
  rw [collapse, folded, collapse, ownOrder, ownOrder]
  exact (List.map_insertionSort Earlier Earlier
    (fun member : JsString × Value => (member.1, change member.1 member.2)) _
    fun _ _ _ _ => Iff.rfl).symm

/-- Members left by their keys, where they are left in their order and without a key twice. -/
theorem collapse_filterKeys {keep : JsString → Bool} {members : List (JsString × Value)}
    (proper : Proper (members.filter fun member => keep member.1)) :
    (collapse .last members).filter (fun member => keep member.1) =
      members.filter fun member => keep member.1 := by
  have whole : ∀ held : List (JsString × Value),
      (members.foldl (add .last) held).filter (fun member => keep member.1) =
        (members.filter fun member => keep member.1).foldl (add .last)
          (held.filter fun member => keep member.1) := by
    clear proper
    induction members with
    | nil => exact fun _ => rfl
    | cons member members ih =>
        intro held
        rw [List.foldl_cons, ih, add, assign_filterKeys, List.filter_cons]
        split
        next => rfl
        next => rfl
  have folded := whole []
  rw [List.filter_nil, foldl_add_of_nodup .last proper.nodup] at folded
  -- what is left is sorted already, so sorting leaves it where it stands
  have sublist : (members.filter fun member => keep member.1).Sublist
      ((collapse .last members).filter fun member => keep member.1) := by
    have among := List.sublist_insertionSort proper.ordered
      (folded ▸ List.filter_sublist : (members.filter fun member => keep member.1).Sublist
        (members.foldl (add .last) []))
    have filtered := among.filter fun member => keep member.1
    simp only [List.filter_filter, Bool.and_self] at filtered
    exact filtered
  have length : ((collapse .last members).filter fun member => keep member.1).length =
      (members.filter fun member => keep member.1).length := by
    rw [← folded]
    exact ((List.perm_insertionSort Earlier _).filter _).length_eq
  exact (sublist.eq_of_length length.symm).symm

end

end JsValue
