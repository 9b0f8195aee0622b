import NextTime.Storable.StorableText
import NextTime.Library.TextParts

/-
Storing a value escapes its U+0000 and changes nothing else, but for a member that an
object has under the name of the inherited setter: a copy of the object loses it.
-/

namespace NextTime.Storable

open JsString (js)
open JsValue (keys ownOrder Own OwnItems OwnMembers)

/-! ### Texts -/

theorem intercalate_splitOn_standIn (text : JsString) :
    UNSTORABLE_CHAR_STAND_IN.intercalate (text.splitOn UNSTORABLE_CHAR) = standIn text := by
  induction text with
  | nil => rfl
  | cons unit rest ih =>
      rw [List.splitOn_cons_eq_if_modifyHead, standIn, List.flatMap_cons]
      cases cut : rest.splitOn UNSTORABLE_CHAR with
      | nil => exact absurd cut (List.splitOn_ne_nil _ _)
      | cons part parts =>
          rw [cut] at ih
          by_cases unstorable : unit = UNSTORABLE_CHAR
          · rw [if_pos (beq_iff_eq.mpr unstorable), if_pos unstorable,
              List.intercalate_cons_cons, List.nil_append, ih]
            rfl
          · have other : ¬(unit == UNSTORABLE_CHAR) = true := fun same =>
              unstorable (beq_iff_eq.mp same)
            rw [if_neg other, if_neg unstorable, List.modifyHead_cons]
            cases parts with
            | nil =>
                rw [List.intercalate_singleton] at ih ⊢
                rw [ih]
                rfl
            | cons next parts =>
                rw [List.intercalate_cons_cons] at ih ⊢
                rw [List.cons_append, List.cons_append, ih]
                rfl

theorem standIn_of_not_mem {text : JsString} (storable : UNSTORABLE_CHAR ∉ text) :
    standIn text = text := by
  induction text with
  | nil => rfl
  | cons unit rest ih =>
      rw [List.mem_cons, not_or] at storable
      rw [standIn, List.flatMap_cons, if_neg (Ne.symm storable.1)]
      exact congrArg (unit :: ·) (ih storable.2)

theorem storableText_standIn (text : JsString) : storableText text = standIn text := by
  unfold storableText
  split
  next => exact intercalate_splitOn_standIn text
  next absent =>
    rw [List.contains_iff_mem] at absent
    exact (standIn_of_not_mem absent).symm

theorem countIn_eq (text : JsString) : countIn text = text.count UNSTORABLE_CHAR := by
  rw [countIn, JsString.length_splitOn, Nat.add_sub_cancel]

theorem not_mem_standIn (text : JsString) : UNSTORABLE_CHAR ∉ standIn text := by
  intro isIn
  obtain ⟨unit, _, isPart⟩ := List.mem_flatMap.mp isIn
  split at isPart
  next => exact absurd isPart (by decide)
  next other => exact other (List.mem_singleton.mp isPart).symm

theorem standIn_eq_iff (text : JsString) : standIn text = text ↔ text.count UNSTORABLE_CHAR = 0 := by
  rw [List.count_eq_zero]
  constructor
  · exact fun same => same ▸ not_mem_standIn text
  · exact standIn_of_not_mem

/-- The key a member is stored under. -/
theorem nextKey_eq (key : JsString) :
    (if countIn key = 0 then key else storableText key) = standIn key := by
  rw [storableText_standIn]
  split
  next none => exact ((standIn_eq_iff key).mpr (countIn_eq key ▸ none)).symm
  next => rfl

/-- No key becomes the name of the setter. -/
theorem standIn_eq_proto_iff {key : JsString} : standIn key = PROTO ↔ key = PROTO := by
  constructor
  · intro same
    by_cases unstorable : UNSTORABLE_CHAR ∈ key
    · have backslash : (0x5C : UInt16) ∈ standIn key := by
        apply List.mem_flatMap.mpr
        exact ⟨UNSTORABLE_CHAR, unstorable, by decide⟩
      rw [same] at backslash
      exact absurd backslash (by decide)
    · rw [standIn_of_not_mem unstorable] at same
      exact same
  · intro same
    rw [same]
    exact standIn_of_not_mem (by decide)

section
variable {Number : Type}

/-! ### The walk -/

/-- The members with what the walk makes of them, each under its stored key. -/
def walkedMembers : JsMembers Number → JsMembers Number
  | [] => []
  | (key, item) :: members => (standIn key, (walk item).value) :: walkedMembers members

theorem walkMembers_value (members : JsMembers Number) :
    ∀ out : Walked (JsMembers Number), (walkMembers out members).value =
      (walkedMembers members).foldl (fun held member => setMember member.1 member.2 held)
        out.value := by
  induction members with
  | nil => exact fun _ => rfl
  | cons member members ih =>
      intro out
      rw [walkMembers, ih, walkedMembers, List.foldl_cons, nextKey_eq]

mutual

/-- The walk counts every U+0000, and has changed the value when there is one. -/
theorem walk_counts : ∀ value : JsValue Number,
    (walk value).escaped = occurrences value ∧
      (walk value).changed = decide (occurrences value ≠ 0)
  | .null => ⟨rfl, rfl⟩
  | .bool _ => ⟨rfl, rfl⟩
  | .num _ => ⟨rfl, rfl⟩
  | .str text => by
      rw [walk, occurrences, countIn_eq, storableText_standIn]
      split
      next none => simp [none]
      next some =>
        constructor
        · rfl
        · simp only [ne_eq, standIn_eq_iff, some]
  | .arr items => by
      have inner := walkItems_counts items
      rw [walk, occurrences]
      split
      next changed => exact ⟨inner.1, changed ▸ inner.2⟩
      next unchanged =>
        rw [Bool.not_eq_true] at unchanged
        exact ⟨inner.1, unchanged ▸ inner.2⟩
  | .obj members => by
      have inner := walkMembers_counts members ⟨[], 0, false⟩
      rw [Nat.zero_add, Bool.false_or] at inner
      rw [walk, occurrences]
      split
      next changed => exact ⟨inner.1, changed ▸ inner.2⟩
      next unchanged =>
        rw [Bool.not_eq_true] at unchanged
        exact ⟨inner.1, unchanged ▸ inner.2⟩

theorem walkItems_counts : ∀ items : List (JsValue Number),
    (walkItems items).escaped = occurrencesInItems items ∧
      (walkItems items).changed = decide (occurrencesInItems items ≠ 0)
  | [] => ⟨rfl, rfl⟩
  | item :: items => by
      have first := walk_counts item
      have rest := walkItems_counts items
      rw [walkItems, occurrencesInItems]
      constructor
      · exact congrArg₂ (· + ·) first.1 rest.1
      · simp only [first.2, rest.2, ne_eq, Nat.add_eq_zero_iff, not_and_or, Bool.decide_or]

theorem walkMembers_counts : ∀ (members : JsMembers Number) (out : Walked (JsMembers Number)),
    (walkMembers out members).escaped = out.escaped + occurrencesInMembers members ∧
      (walkMembers out members).changed =
        (out.changed || decide (occurrencesInMembers members ≠ 0))
  | [], out => by
      rw [walkMembers, occurrencesInMembers]
      exact ⟨rfl, (Bool.or_false _).symm⟩
  | (key, item) :: members, out => by
      have first := walk_counts item
      rw [walkMembers, occurrencesInMembers, nextKey_eq, countIn_eq]
      have rest := walkMembers_counts members
        { value := setMember (standIn key) (walk item).value out.value
          escaped := out.escaped + key.count UNSTORABLE_CHAR + (walk item).escaped
          changed := out.changed || (walk item).changed || decide (standIn key ≠ key) }
      constructor
      · rw [rest.1, first.1]
        simp only
        omega
      · rw [rest.2, first.2]
        simp only [ne_eq, standIn_eq_iff, Nat.add_eq_zero_iff, not_and_or, Bool.decide_or]
        cases out.changed <;> simp [Bool.or_comm]

end

/-! ### Nothing to replace -/

theorem walk_unchanged {value : JsValue Number} (unchanged : (walk value).changed = false) :
    (walk value).value = value := by
  cases value with
  | str text =>
      unfold walk at unchanged ⊢
      split at unchanged
      next none => rw [if_pos none]
      next some =>
        rw [if_neg some]
        exact congrArg JsValue.str (not_not.mp (of_decide_eq_false unchanged))
  | arr items =>
      unfold walk at unchanged ⊢
      simp only at unchanged ⊢
      split at unchanged
      next => cases unchanged
      next same => rw [if_neg same]
  | obj members =>
      unfold walk at unchanged ⊢
      simp only at unchanged ⊢
      split at unchanged
      next => cases unchanged
      next same => rw [if_neg same]
  | null => rfl
  | bool value => rfl
  | num number => rfl

mutual

theorem escapedValue_same : ∀ value : JsValue Number, Own value → occurrences value = 0 →
    escapedValue value = value
  | .null, _, _ => rfl
  | .bool _, _, _ => rfl
  | .num _, _, _ => rfl
  | .str text, _, clean => congrArg JsValue.str ((standIn_eq_iff text).mpr clean)
  | .arr items, own, clean => congrArg JsValue.arr (escapedItems_same items own clean)
  | .obj members, own, clean => by
      rw [escapedValue, escapedMembers_same members own.2 clean]
      exact congrArg JsValue.obj (JsValue.collapse_proper .last own.1)

theorem escapedItems_same : ∀ items : List (JsValue Number), OwnItems items →
    occurrencesInItems items = 0 → escapedItems items = items
  | [], _, _ => rfl
  | item :: items, own, clean => by
      rw [occurrencesInItems] at clean
      rw [escapedItems, escapedValue_same item own.1 (by omega),
        escapedItems_same items own.2 (by omega)]

theorem escapedMembers_same : ∀ members : JsMembers Number, OwnMembers members →
    occurrencesInMembers members = 0 → escapedMembers members = members
  | [], _, _ => rfl
  | (key, item) :: members, own, clean => by
      rw [occurrencesInMembers] at clean
      rw [escapedMembers, (standIn_eq_iff key).mpr (by omega),
        escapedValue_same item own.1 (by omega), escapedMembers_same members own.2 (by omega)]

end

/-! ### The member an object loses -/

mutual

/-- No object that holds a U+0000 has a member under the setter's name, those aside that a
later member under the same stored key replaces. -/
def KeepsProto : JsValue Number → Prop
  | .arr items => KeepsProtoItems items
  | .obj members =>
      (occurrencesInMembers members ≠ 0 → PROTO ∉ keys members) ∧ KeepsProtoMembers members
  | _ => True

def KeepsProtoItems : List (JsValue Number) → Prop
  | [] => True
  | item :: items => KeepsProto item ∧ KeepsProtoItems items

def KeepsProtoMembers : JsMembers Number → Prop
  | [] => True
  | (key, item) :: members =>
      (standIn key ∉ (keys members).map standIn → KeepsProto item) ∧ KeepsProtoMembers members

end

mutual

theorem keepsProto_of_none : ∀ value : JsValue Number, occurrences value = 0 → KeepsProto value
  | .null, _ => trivial
  | .bool _, _ => trivial
  | .num _, _ => trivial
  | .str _, _ => trivial
  | .arr items, clean => keepsProtoItems_of_none items clean
  | .obj members, clean => ⟨fun some => absurd clean some, keepsProtoMembers_of_none members clean⟩

theorem keepsProtoItems_of_none : ∀ items : List (JsValue Number),
    occurrencesInItems items = 0 → KeepsProtoItems items
  | [], _ => trivial
  | item :: items, clean => by
      rw [occurrencesInItems] at clean
      exact ⟨keepsProto_of_none item (by omega), keepsProtoItems_of_none items (by omega)⟩

theorem keepsProtoMembers_of_none : ∀ members : JsMembers Number,
    occurrencesInMembers members = 0 → KeepsProtoMembers members
  | [], _ => trivial
  | (key, item) :: members, clean => by
      rw [occurrencesInMembers] at clean
      exact ⟨fun _ => keepsProto_of_none item (by omega),
        keepsProtoMembers_of_none members (by omega)⟩

end

theorem keys_escapedMembers (members : JsMembers Number) :
    keys (escapedMembers members) = (keys members).map standIn := by
  induction members with
  | nil => rfl
  | cons member members ih =>
      rw [escapedMembers, JsValue.keys_cons, JsValue.keys_cons, List.map_cons, ih]

theorem keys_walkedMembers (members : JsMembers Number) :
    keys (walkedMembers members) = (keys members).map standIn := by
  induction members with
  | nil => rfl
  | cons member members ih =>
      rw [walkedMembers, JsValue.keys_cons, JsValue.keys_cons, List.map_cons, ih]

/-- Without a member under its name, the setter plays no part. -/
theorem foldl_setMember {Value : Type} {members : List (JsString × Value)}
    (absent : PROTO ∉ keys members) (out : List (JsString × Value)) :
    members.foldl (fun held member => setMember member.1 member.2 held) out =
      members.foldl (JsValue.add .last) out := by
  induction members generalizing out with
  | nil => rfl
  | cons member members ih =>
      rw [JsValue.keys_cons, List.mem_cons, not_or] at absent
      rw [List.foldl_cons, List.foldl_cons, ih absent.2, setMember, if_neg (Ne.symm absent.1)]
      rfl

/-- A copy has no member of its own under the setter's name. -/
theorem proto_not_mem_foldl_setMember {Value : Type} (members : List (JsString × Value)) :
    ∀ out : List (JsString × Value), PROTO ∉ keys out →
      PROTO ∉ keys (members.foldl (fun held member => setMember member.1 member.2 held) out) := by
  induction members with
  | nil => exact fun _ absent => absent
  | cons member members ih =>
      intro out absent
      apply ih
      simp only [setMember]
      split
      next => exact absent
      next other =>
        rw [JsValue.keys_assign]
        split
        next => exact absent
        next =>
          rw [List.mem_append, List.mem_singleton, not_or]
          exact ⟨absent, Ne.symm other⟩

theorem keys_foldl_add {Value : Type} {members others : List (JsString × Value)}
    (sameKeys : keys members = keys others) :
    ∀ {one other : List (JsString × Value)}, keys one = keys other →
      keys (members.foldl (JsValue.add .last) one) = keys (others.foldl (JsValue.add .last) other) := by
  induction members generalizing others with
  | nil =>
      intro one other same
      cases others with
      | nil => exact same
      | cons => cases sameKeys
  | cons member members ih =>
      intro one other same
      cases others with
      | nil => cases sameKeys
      | cons next others =>
          rw [JsValue.keys_cons, JsValue.keys_cons, List.cons.injEq] at sameKeys
          apply ih sameKeys.2
          rw [JsValue.add, JsValue.add, JsValue.keys_assign, JsValue.keys_assign, same, sameKeys.1]

theorem nodup_foldl_add {Value : Type} (members : List (JsString × Value)) :
    ∀ {out : List (JsString × Value)}, (keys out).Nodup →
      (keys (members.foldl (JsValue.add .last) out)).Nodup := by
  induction members with
  | nil => exact fun nodup => nodup
  | cons member members ih => exact fun nodup => ih (JsValue.nodup_add .last nodup member)

/-- Members under the same keys, in one order, are the same when their values are. -/
theorem eq_of_lookup {Value : Type} {one other : List (JsString × Value)}
    (sameKeys : keys one = keys other) (nodup : (keys one).Nodup)
    (same : ∀ key, one.lookup key = other.lookup key) : one = other := by
  induction one generalizing other with
  | nil =>
      cases other with
      | nil => rfl
      | cons => cases sameKeys
  | cons member members ih =>
      cases other with
      | nil => cases sameKeys
      | cons next others =>
          rw [JsValue.keys_cons, JsValue.keys_cons, List.cons.injEq] at sameKeys
          rw [JsValue.keys_cons, List.nodup_cons] at nodup
          have first := same member.1
          rw [List.lookup_cons, List.lookup_cons, ← sameKeys.1, beq_self_eq_true] at first
          have rest : members = others := by
            apply ih sameKeys.2 nodup.2
            intro key
            by_cases isFirst : key = member.1
            · have absent : key ∉ keys members := isFirst ▸ nodup.1
              have absentThere : key ∉ keys others := sameKeys.2 ▸ absent
              rw [← JsValue.lookup_isNone_iff, Option.isNone_iff_eq_none] at absent absentThere
              rw [absent, absentThere]
            · have behind := same key
              rw [List.lookup_cons, List.lookup_cons, ← sameKeys.1, beq_false_of_ne isFirst]
                at behind
              exact behind
          rw [rest, Prod.ext sameKeys.1 (Option.some.inj first)]

/-- The order of own properties depends on the keys alone. -/
theorem ownOrder_eq_iff {Value : Type} {one other : List (JsString × Value)}
    (sameKeys : keys one = keys other) (nodup : (keys one).Nodup) :
    ownOrder one = ownOrder other ↔ one = other := by
  constructor
  · intro same
    apply eq_of_lookup sameKeys nodup
    intro key
    have nodupOther : (keys other).Nodup := sameKeys ▸ nodup
    calc
      one.lookup key = (ownOrder one).lookup key := (JsValue.lookup_ownOrder nodup key).symm
      _ = (ownOrder other).lookup key := congrArg (List.lookup key) same
      _ = other.lookup key := JsValue.lookup_ownOrder nodupOther key
  · exact congrArg ownOrder

/-! ### Exactly when nothing else changes -/

theorem walk_value_obj (members : JsMembers Number) :
    (walk (.obj members)).value =
      if occurrencesInMembers members = 0 then .obj members
      else .obj (ownOrder ((walkedMembers members).foldl
        (fun held member => setMember member.1 member.2 held) [])) := by
  have inner := (walkMembers_counts members ⟨[], 0, false⟩).2
  rw [Bool.false_or] at inner
  unfold walk
  simp only [inner, walkMembers_value]
  by_cases clean : occurrencesInMembers members = 0
  · rw [if_pos clean, if_neg]
    simpa using clean
  · rw [if_neg clean, if_pos]
    simpa using clean

theorem walk_value_arr (items : List (JsValue Number)) :
    (walk (.arr items)).value =
      if occurrencesInItems items = 0 then .arr items else .arr (walkItems items).value := by
  have inner := (walkItems_counts items).2
  unfold walk
  simp only [inner]
  by_cases clean : occurrencesInItems items = 0
  · rw [if_pos clean, if_neg]
    simpa using clean
  · rw [if_neg clean, if_pos]
    simpa using clean

theorem mem_keys_ownOrder {Value : Type} {members : List (JsString × Value)} {key : JsString} :
    key ∈ keys (ownOrder members) ↔ key ∈ keys members := by
  rw [keys, keys, List.mem_map, List.mem_map]
  exact exists_congr fun member => and_congr_left' (List.mem_insertionSort JsValue.Earlier)

theorem proto_not_mem_copy (members : JsMembers Number) :
    PROTO ∉ keys (ownOrder ((walkedMembers members).foldl
      (fun held member => setMember member.1 member.2 held) [])) := by
  rw [mem_keys_ownOrder]
  exact proto_not_mem_foldl_setMember _ [] List.not_mem_nil

theorem mem_keys_foldl_add {Value : Type} {members : List (JsString × Value)} {key : JsString} :
    ∀ {out : List (JsString × Value)}, key ∈ keys (members.foldl (JsValue.add .last) out) ↔
      key ∈ keys members ∨ key ∈ keys out := by
  induction members with
  | nil => exact fun {out} => ⟨.inr, fun held => held.resolve_left List.not_mem_nil⟩
  | cons member members ih =>
      intro out
      rw [List.foldl_cons, ih, JsValue.keys_cons, List.mem_cons, JsValue.add, JsValue.keys_assign]
      split
      next held =>
        constructor
        · tauto
        · rintro ((isFirst | later) | before)
          · exact .inr (isFirst ▸ held)
          · exact .inl later
          · exact .inr before
      next =>
        rw [List.mem_append, List.mem_singleton]
        tauto

theorem proto_mem_collapse {members : JsMembers Number} (proto : PROTO ∈ keys members) :
    PROTO ∈ keys (JsValue.collapse .last (escapedMembers members)) := by
  rw [JsValue.collapse, mem_keys_ownOrder, mem_keys_foldl_add, keys_escapedMembers]
  exact .inl (List.mem_map.mpr ⟨PROTO, proto, standIn_eq_proto_iff.mpr rfl⟩)

theorem proto_not_mem_walkedMembers {members : JsMembers Number} (absent : PROTO ∉ keys members) :
    PROTO ∉ keys (walkedMembers members) := by
  rw [keys_walkedMembers, List.mem_map]
  intro ⟨key, isIn, same⟩
  exact absent (standIn_eq_proto_iff.mp same ▸ isIn)

/-- Assigning another value under a key is seen under that key alone. -/
theorem forall_lookup_assign_iff {Value : Type} {key : JsString} {one other : List (JsString × Value)}
    {left right : Value} {excluded : List JsString} :
    (∀ name ∉ excluded, (OwnProperties.assign key left one).lookup name =
        (OwnProperties.assign key right other).lookup name) ↔
      (key ∉ excluded → left = right) ∧
        ∀ name ∉ key :: excluded, one.lookup name = other.lookup name := by
  constructor
  · intro same
    constructor
    · intro counts
      have atKey := same key counts
      rw [JsValue.lookup_assign_same, JsValue.lookup_assign_same] at atKey
      exact Option.some.inj atKey
    · intro name counts
      rw [List.mem_cons, not_or] at counts
      have atName := same name counts.2
      rw [JsValue.lookup_assign_other counts.1, JsValue.lookup_assign_other counts.1] at atName
      exact atName
  · intro ⟨atKey, elsewhere⟩ name counts
    by_cases isKey : name = key
    · rw [isKey] at counts ⊢
      rw [JsValue.lookup_assign_same, JsValue.lookup_assign_same, atKey counts]
    · rw [JsValue.lookup_assign_other isKey, JsValue.lookup_assign_other isKey]
      apply elsewhere
      rw [List.mem_cons, not_or]
      exact ⟨isKey, counts⟩

mutual

theorem walk_value_eq_iff : ∀ value : JsValue Number, Own value →
    ((walk value).value = escapedValue value ↔ KeepsProto value)
  | .null, _ => iff_of_true rfl trivial
  | .bool _, _ => iff_of_true rfl trivial
  | .num _, _ => iff_of_true rfl trivial
  | .str text, _ => by
      apply iff_of_true _ trivial
      rw [walk, escapedValue, countIn_eq, storableText_standIn]
      split
      next clean => rw [(standIn_eq_iff text).mpr clean]
      next => rfl
  | .arr items, own => by
      rw [walk_value_arr, escapedValue, KeepsProto]
      split
      next clean =>
        exact iff_of_true (congrArg _ (escapedItems_same items own clean).symm)
          (keepsProtoItems_of_none items clean)
      next =>
        rw [JsValue.arr.injEq]
        exact walkItems_value_eq_iff items own
  | .obj members, own => by
      rw [walk_value_obj, escapedValue, KeepsProto]
      split
      next clean =>
        apply iff_of_true
        · rw [escapedMembers_same members own.2 clean, JsValue.collapse_proper .last own.1]
        · exact ⟨fun some => absurd clean some, keepsProtoMembers_of_none members clean⟩
      next some =>
        have nodupNil : (keys ([] : JsMembers Number)).Nodup := List.nodup_nil
        have sameKeys : keys (walkedMembers members) = keys (escapedMembers members) := by
          rw [keys_walkedMembers, keys_escapedMembers]
        rw [JsValue.obj.injEq]
        by_cases proto : PROTO ∈ keys members
        · apply iff_of_false
          · intro same
            exact proto_not_mem_copy members (same ▸ proto_mem_collapse proto)
          · exact fun keeps => keeps.1 some proto
        · rw [foldl_setMember (proto_not_mem_walkedMembers proto), JsValue.collapse,
            ownOrder_eq_iff (keys_foldl_add sameKeys rfl) (nodup_foldl_add _ nodupNil),
            foldl_walkedMembers_eq_iff members own.2 rfl nodupNil]
          constructor
          · exact fun same => ⟨fun _ => proto, same.1⟩
          · exact fun keeps => ⟨keeps.2, fun _ _ => rfl⟩

theorem walkItems_value_eq_iff : ∀ items : List (JsValue Number), OwnItems items →
    ((walkItems items).value = escapedItems items ↔ KeepsProtoItems items)
  | [], _ => iff_of_true rfl trivial
  | item :: items, own => by
      rw [walkItems, escapedItems, KeepsProtoItems, List.cons.injEq, walk_value_eq_iff item own.1,
        walkItems_value_eq_iff items own.2]

theorem foldl_walkedMembers_eq_iff : ∀ members : JsMembers Number, OwnMembers members →
    ∀ {one other : JsMembers Number}, keys one = keys other → (keys one).Nodup →
      ((walkedMembers members).foldl (JsValue.add .last) one =
          (escapedMembers members).foldl (JsValue.add .last) other ↔
        KeepsProtoMembers members ∧
          ∀ key ∉ (keys members).map standIn, one.lookup key = other.lookup key)
  | [], _, one, other, sameKeys, nodup => by
      constructor
      · exact fun same => ⟨trivial, fun key _ => congrArg (List.lookup key) same⟩
      · exact fun same => eq_of_lookup sameKeys nodup fun key => same.2 key List.not_mem_nil
  | (key, item) :: members, own, one, other, sameKeys, nodup => by
      have rest := @foldl_walkedMembers_eq_iff members own.2
        (OwnProperties.assign (standIn key) (walk item).value one)
        (OwnProperties.assign (standIn key) (escapedValue item) other)
        (by rw [JsValue.keys_assign, JsValue.keys_assign, sameKeys])
        (JsValue.nodup_assign nodup _ _)
      rw [walkedMembers, escapedMembers, List.foldl_cons, List.foldl_cons, KeepsProtoMembers,
        JsValue.keys_cons, List.map_cons]
      rw [JsValue.add, JsValue.add, rest, forall_lookup_assign_iff, walk_value_eq_iff item own.1]
      tauto

end

/-! ### Nothing that cannot be stored is left -/

theorem occurrencesInMembers_eq_zero_iff {members : JsMembers Number} :
    occurrencesInMembers members = 0 ↔
      ∀ member ∈ members, member.1.count UNSTORABLE_CHAR = 0 ∧ occurrences member.2 = 0 := by
  induction members with
  | nil => exact iff_of_true rfl fun _ member => nomatch member
  | cons member members ih =>
      rw [occurrencesInMembers, List.forall_mem_cons, ← ih]
      omega

/-- A copy holds the members that were set, or some of them. -/
theorem mem_foldl_setMember {Value : Type} {members : List (JsString × Value)}
    {member : JsString × Value} : ∀ {out : List (JsString × Value)},
    member ∈ members.foldl (fun held next => setMember next.1 next.2 held) out →
      member ∈ out ∨ member ∈ members := by
  induction members with
  | nil => exact fun isIn => .inl isIn
  | cons next members ih =>
      intro out isIn
      rcases ih isIn with held | later
      · simp only [setMember] at held
        split at held
        next => exact .inl held
        next =>
          rcases @JsValue.mem_add _ .last _ _ _ held with before | set
          · exact .inl before
          · exact .inr (set ▸ List.mem_cons_self)
      · exact .inr (List.mem_cons_of_mem _ later)

mutual

theorem occurrences_walk : ∀ value : JsValue Number, occurrences (walk value).value = 0
  | .null => rfl
  | .bool _ => rfl
  | .num _ => rfl
  | .str text => by
      rw [walk, countIn_eq, storableText_standIn]
      split
      next clean => exact clean
      next => exact List.count_eq_zero.mpr (not_mem_standIn text)
  | .arr items => by
      rw [walk_value_arr]
      split
      next clean => exact clean
      next => exact occurrences_walkItems items
  | .obj members => by
      rw [walk_value_obj]
      split
      next clean => exact clean
      next =>
        apply occurrencesInMembers_eq_zero_iff.mpr
        intro member isIn
        rw [ownOrder, List.mem_insertionSort] at isIn
        rcases mem_foldl_setMember isIn with nothing | walked
        · cases nothing
        · exact occurrences_walkedMembers members member walked

theorem occurrences_walkItems : ∀ items : List (JsValue Number),
    occurrencesInItems (walkItems items).value = 0
  | [] => rfl
  | item :: items => by
      rw [walkItems, occurrencesInItems, occurrences_walk item, occurrences_walkItems items]

theorem occurrences_walkedMembers : ∀ (members : JsMembers Number),
    ∀ member ∈ walkedMembers members,
      member.1.count UNSTORABLE_CHAR = 0 ∧ occurrences member.2 = 0
  | [], _, isIn => nomatch isIn
  | (key, item) :: members, member, isIn => by
      rw [walkedMembers] at isIn
      rcases List.mem_cons.mp isIn with first | later
      · rw [first]
        exact ⟨List.count_eq_zero.mpr (not_mem_standIn key), occurrences_walk item⟩
      · exact occurrences_walkedMembers members member later

end

/-! ### Finding -/

mutual

theorem findUnstorableText_eq_none_iff : ∀ (value : JsValue Number) (path : List PathStep),
    findUnstorableText path value = none ↔ occurrences value = 0
  | .null, _ => iff_of_true rfl rfl
  | .bool _, _ => iff_of_true rfl rfl
  | .num _, _ => iff_of_true rfl rfl
  | .str text, path => by
      rw [findUnstorableText, occurrences, List.count_eq_zero, ← List.contains_iff_mem]
      cases text.contains UNSTORABLE_CHAR with
      | true => simp
      | false => simp
  | .arr items, path => findInItems_eq_none_iff items path 0
  | .obj members, path => findInMembers_eq_none_iff members path

theorem findInItems_eq_none_iff : ∀ (items : List (JsValue Number)) (path : List PathStep)
    (index : Nat), findInItems path index items = none ↔ occurrencesInItems items = 0
  | [], _, _ => iff_of_true rfl rfl
  | item :: items, path, index => by
      have first := findUnstorableText_eq_none_iff item (path ++ [.index index])
      have rest := findInItems_eq_none_iff items path (index + 1)
      rw [findInItems, occurrencesInItems, Nat.add_eq_zero_iff, ← first, ← rest]
      cases findUnstorableText (path ++ [.index index]) item with
      | none => simp
      | some found => simp

theorem findInMembers_eq_none_iff : ∀ (members : JsMembers Number) (path : List PathStep),
    findInMembers path members = none ↔ occurrencesInMembers members = 0
  | [], _ => iff_of_true rfl rfl
  | (key, item) :: members, path => by
      have first := findUnstorableText_eq_none_iff item (path ++ [.key key])
      have rest := findInMembers_eq_none_iff members path
      rw [findInMembers, occurrencesInMembers, Nat.add_eq_zero_iff, Nat.add_eq_zero_iff, ← first,
        ← rest, List.count_eq_zero, ← List.contains_iff_mem]
      cases key.contains UNSTORABLE_CHAR with
      | true => simp
      | false =>
          cases findUnstorableText (path ++ [.key key]) item with
          | none => simp
          | some found => simp

end

/-! ### Storing a value -/

/-- A value is stored with the stand-in for every U+0000 and as it is in all else, and the
count and the search agree on whether there is one. -/
structure StoresExactly (value : JsValue Number) : Prop where
  replaced : (storableValue value).value = escapedValue value
  storable : occurrences (storableValue value).value = 0
  escaped : (storableValue value).escaped = occurrences value
  found : (storableValue value).escaped = 0 ↔ findUnstorableText [] value = none
  itself : (storableValue value).escaped = 0 →
    (walk value).changed = false ∧ (storableValue value).value = value

/-- A value is stored exactly when no object that is copied has a member of its own under
the setter's name. -/
theorem storesExactly_iff {value : JsValue Number} (own : Own value) :
    StoresExactly value ↔ KeepsProto value := by
  constructor
  · exact fun exact' => (walk_value_eq_iff value own).mp exact'.replaced
  · intro keeps
    have counts := walk_counts value
    constructor
    · exact (walk_value_eq_iff value own).mpr keeps
    · exact occurrences_walk value
    · exact counts.1
    · rw [storableValue, counts.1]
      exact (findUnstorableText_eq_none_iff value []).symm
    · intro clean
      have unchanged : (walk value).changed = false := by
        rw [counts.2, decide_eq_false_iff_not, not_not, ← counts.1]
        exact clean
      exact ⟨unchanged, walk_unchanged unchanged⟩

/-- `{"constructor": 1, "note": "a\u0000"}`. -/
def notedConstructor : JsValue Nat :=
  .obj [(js "constructor", .num 1), (js "note", .str (js "a" ++ [0]))]

theorem storesExactly_iff_notedConstructor :
    StoresExactly notedConstructor ↔ KeepsProto notedConstructor :=
  storesExactly_iff ⟨⟨by decide, by decide⟩, trivial, trivial, trivial⟩

/-- `{"__proto__": "kept", "note": "a\u0000"}`, stored without its first member. -/
def notedProto : JsValue Nat :=
  .obj [(PROTO, .str (js "kept")), (js "note", .str (js "a" ++ [0]))]

theorem not_storesExactly_notedProto :
    ¬∀ value : JsValue Nat, Own value → StoresExactly value := by
  intro all
  have own : Own notedProto := ⟨⟨by decide, by decide⟩, trivial, trivial, trivial⟩
  have keeps := (walk_value_eq_iff notedProto own).mp (all notedProto own).replaced
  exact keeps.1 (by decide) List.mem_cons_self

end

end NextTime.Storable
