import NextTime.Binding.Placement
import NextTime.Library.FoldUpTo

/-
Bindings of an accepted step put their values beside one another: in any order they
lead to the same input, each value stands at its target, and what was written stays.
-/

namespace NextTime.Binding

open JsString (js)
open NextTime.Output

/-! ### Equality up to the order of members -/

theorem jsonEqual_trans {first second third : Output.JsonValue} (one : JsonEqual first second)
    (two : JsonEqual second third) : JsonEqual first third := by
  induction one generalizing third with
  | null => exact two
  | bool => exact two
  | num => exact two
  | str => exact two
  | @arr left right size _ ih =>
      cases two with
      | @arr _ other size' items =>
          apply JsonEqual.arr
          · rw [size, size']
          · intro index start last atStart atLast
            have inside : index < right.length := by
              rw [← size]
              exact (List.getElem?_eq_some_iff.mp atStart).1
            have atMiddle : right[index]? = some right[index] :=
              List.getElem?_eq_getElem inside
            exact ih index start right[index] atStart atMiddle
              (items index right[index] last atMiddle atLast)
  | @obj left right keys _ ih =>
      cases two with
      | @obj _ other keys' values =>
          apply JsonEqual.obj
          · exact fun key => (keys key).trans (keys' key)
          · intro key start last inLeft inOther
            have inRight := (keys key).mp (List.mem_map.mpr ⟨_, inLeft, rfl⟩)
            rcases List.mem_map.mp inRight with ⟨⟨name, middle⟩, held, same⟩
            cases same
            exact ih _ start middle inLeft held (values _ middle last held inOther)

/-- Two objects are equal exactly when each lookup is. -/
theorem jsonEqual_obj_iff {left right : Members} (nodupLeft : (JsValue.keys left).Nodup)
    (nodupRight : (JsValue.keys right).Nodup) :
    JsonEqual (.obj left) (.obj right) ↔
      ∀ key, Option.Rel JsonEqual (left.lookup key) (right.lookup key) := by
  constructor
  · intro equal key
    cases equal with
    | obj keys values =>
        cases inLeft : left.lookup key with
        | none =>
            have other := JsValue.lookup_isNone_iff.mp (Option.isNone_iff_eq_none.mpr inLeft)
            rw [keys] at other
            rw [Option.isNone_iff_eq_none.mp (JsValue.lookup_isNone_iff.mpr other)]
            exact .none
        | some first =>
            have held := JsValue.mem_of_lookup inLeft
            have inRight := (keys key).mp (List.mem_map.mpr ⟨_, held, rfl⟩)
            rcases List.mem_map.mp inRight with ⟨⟨name, second⟩, member, same⟩
            cases same
            rw [JsValue.lookup_of_mem nodupRight member]
            exact .some (values _ first second held member)
  · intro each
    apply JsonEqual.obj
    · intro key
      have here := each key
      rw [← not_iff_not, ← JsValue.lookup_isNone_iff, ← JsValue.lookup_isNone_iff]
      cases inLeft : left.lookup key with
      | none =>
          rw [inLeft] at here
          cases inRight : right.lookup key with
          | none => rfl
          | some =>
              rw [inRight] at here
              cases here
      | some =>
          rw [inLeft] at here
          cases inRight : right.lookup key with
          | none =>
              rw [inRight] at here
              cases here
          | some => rfl
    · intro key first second inLeft inRight
      have here := each key
      rw [JsValue.lookup_of_mem nodupLeft inLeft, JsValue.lookup_of_mem nodupRight inRight] at here
      cases here with
      | some equal => exact equal

mutual

theorem jsonEqual_refl : ∀ value : Output.JsonValue, JsValue.Own value → JsonEqual value value
  | .null, _ => .null
  | .bool value, _ => .bool value
  | .num number, _ => .num number
  | .str text, _ => .str text
  | .arr items, own => by
      apply JsonEqual.arr rfl
      intro index first second atFirst atSecond
      rw [atFirst] at atSecond
      cases atSecond
      exact jsonEqual_refl_items items own first (List.mem_of_getElem? atFirst)
  | .obj members, own => by
      apply JsonEqual.obj
      · exact fun _ => Iff.rfl
      · intro key first second inFirst inSecond
        have here := JsValue.lookup_of_mem own.1.nodup inFirst
        rw [JsValue.lookup_of_mem own.1.nodup inSecond] at here
        cases here
        exact jsonEqual_refl_members members own.2 _ inFirst

theorem jsonEqual_refl_items : ∀ items : List Output.JsonValue, JsValue.OwnItems items →
    ∀ item ∈ items, JsonEqual item item
  | [], _, _, member => nomatch member
  | first :: items, own, item, member => by
      rcases List.mem_cons.mp member with same | member
      · rw [same]
        exact jsonEqual_refl first own.1
      · exact jsonEqual_refl_items items own.2 item member

theorem jsonEqual_refl_members : ∀ members : Members, JsValue.OwnMembers members →
    ∀ member ∈ members, JsonEqual member.2 member.2
  | [], _, _, isIn => nomatch isIn
  | (key, value) :: members, own, member, isIn => by
      rcases List.mem_cons.mp isIn with same | isIn
      · rw [same]
        exact jsonEqual_refl value own.1
      · exact jsonEqual_refl_members members own.2 member isIn

end

/-! ### One value put in -/

theorem nodup_define {target : Members} (nodup : (JsValue.keys target).Nodup) (field : JsString)
    (value : Output.JsonValue) : (JsValue.keys (define field value target)).Nodup :=
  (JsValue.proper_ownOrder (JsValue.nodup_assign nodup field value)).nodup

theorem lookup_define {target : Members} (nodup : (JsValue.keys target).Nodup)
    (field key : JsString) (value : Output.JsonValue) :
    (define field value target).lookup key =
      if key = field then some value else target.lookup key := by
  rw [define, JsValue.lookup_ownOrder (JsValue.nodup_assign nodup field value)]
  by_cases same : key = field
  · rw [if_pos same, same]
    exact JsValue.lookup_assign_same field value target
  · rw [if_neg same]
    exact JsValue.lookup_assign_other same value target

theorem own_define {target : Members} (own : JsValue.Own (.obj target : Output.JsonValue))
    (field : JsString) {value : Output.JsonValue} (ownValue : JsValue.Own value) :
    JsValue.Own (.obj (define field value target) : Output.JsonValue) := by
  constructor
  · exact JsValue.proper_ownOrder (JsValue.nodup_assign own.1.nodup field value)
  · rw [JsValue.ownMembers_iff]
    intro member isIn
    have held := JsValue.lookup_of_mem (nodup_define own.1.nodup field value) isIn
    rw [lookup_define own.1.nodup] at held
    split at held
    next =>
      cases held
      exact ownValue
    next => exact JsValue.ownMembers_iff.mp own.2 _ (JsValue.mem_of_lookup held)

/-- The object under a field, an empty one where there is none. -/
def innerOf (target : Members) (field : JsString) : Members :=
  (target.lookup field).elim [] recordOf

theorem own_nothing : JsValue.Own (.obj [] : Output.JsonValue) :=
  ⟨⟨List.nodup_nil, List.Pairwise.nil⟩, trivial⟩

theorem own_recordOf {value : Output.JsonValue} (own : JsValue.Own value) :
    JsValue.Own (.obj (recordOf value) : Output.JsonValue) := by
  cases value with
  | obj members => exact own
  | _ => exact own_nothing

theorem own_innerOf {target : Members} (own : JsValue.Own (.obj target : Output.JsonValue))
    (field : JsString) : JsValue.Own (.obj (innerOf target field) : Output.JsonValue) := by
  rw [innerOf]
  cases held : target.lookup field with
  | none => exact own_nothing
  | some value =>
      exact own_recordOf (JsValue.ownMembers_iff.mp own.2 _ (JsValue.mem_of_lookup held))

@[simp]
theorem placeAt_one (target : Members) (field : JsString) (value : Output.JsonValue) :
    placeAt target [field] value = define field value target := rfl

theorem placeAt_more (target : Members) (field : JsString) {rest : List JsString}
    (more : rest ≠ []) (value : Output.JsonValue) :
    placeAt target (field :: rest) value =
      define field (.obj (placeAt (innerOf target field) rest value)) target := by
  cases rest with
  | nil => contradiction
  | cons => rfl

theorem own_placeAt {fields : List JsString} {target : Members}
    (own : JsValue.Own (.obj target : Output.JsonValue)) {value : Output.JsonValue}
    (ownValue : JsValue.Own value) :
    JsValue.Own (.obj (placeAt target fields value) : Output.JsonValue) := by
  induction fields generalizing target with
  | nil => exact own
  | cons field rest ih =>
      by_cases more : rest = []
      · subst more
        exact own_define own field ownValue
      · rw [placeAt_more target field more]
        exact own_define own field (ih (own_innerOf own field))

/-- What a field holds once a value is put in at it, or at fields inside it. -/
def filled (target : Members) (field : JsString) (rest : List JsString) (value : Output.JsonValue) :
    Output.JsonValue :=
  if rest = [] then value else .obj (placeAt (innerOf target field) rest value)

theorem lookup_placeAt {target : Members} (nodup : (JsValue.keys target).Nodup)
    (field key : JsString) (rest : List JsString) (value : Output.JsonValue) :
    (placeAt target (field :: rest) value).lookup key =
      if key = field then some (filled target field rest value) else target.lookup key := by
  by_cases more : rest = []
  · subst more
    exact lookup_define nodup field key value
  · rw [placeAt_more target field more, lookup_define nodup, filled, if_neg more]

theorem own_filled {target : Members} (own : JsValue.Own (.obj target : Output.JsonValue))
    (field : JsString) (rest : List JsString) {value : Output.JsonValue} (ownValue : JsValue.Own value) :
    JsValue.Own (filled target field rest value) := by
  rw [filled]
  split
  next => exact ownValue
  next => exact own_placeAt (own_innerOf own field) ownValue

theorem innerOf_placeAt {target : Members} (nodup : (JsValue.keys target).Nodup)
    (field : JsString) {rest : List JsString} (more : rest ≠ []) (value : Output.JsonValue) :
    innerOf (placeAt target (field :: rest) value) field =
      placeAt (innerOf target field) rest value := by
  rw [innerOf, lookup_placeAt nodup, if_pos rfl, filled, if_neg more]
  rfl

theorem innerOf_placeAt_other {target : Members} (nodup : (JsValue.keys target).Nodup)
    {field key : JsString} (other : key ≠ field) (rest : List JsString) (value : Output.JsonValue) :
    innerOf (placeAt target (field :: rest) value) key = innerOf target key := by
  rw [innerOf, lookup_placeAt nodup, if_neg other, innerOf]

/-! ### Values put in beside one another -/

/-- Neither target is the other or inside it. -/
structure Apart (first second : List JsString) : Prop where
  notBefore : ¬first <+: second
  notBehind : ¬second <+: first

theorem Apart.symm {first second : List JsString} (apart : Apart first second) :
    Apart second first :=
  ⟨apart.notBehind, apart.notBefore⟩

theorem Apart.inside {field : JsString} {first second : List JsString}
    (apart : Apart (field :: first) (field :: second)) : Apart first second := by
  constructor
  · intro before
    exact apart.notBefore (List.cons_prefix_cons.mpr ⟨rfl, before⟩)
  · intro behind
    exact apart.notBehind (List.cons_prefix_cons.mpr ⟨rfl, behind⟩)

theorem Apart.more {first second : List JsString} (apart : Apart first second) :
    first ≠ [] ∧ second ≠ [] := by
  constructor
  · rintro rfl
    exact apart.notBefore List.nil_prefix
  · rintro rfl
    exact apart.notBehind List.nil_prefix

theorem rel_lookup {target : Members} (own : JsValue.Own (.obj target : Output.JsonValue))
    (key : JsString) : Option.Rel JsonEqual (target.lookup key) (target.lookup key) := by
  cases held : target.lookup key with
  | none => exact .none
  | some value =>
      exact .some (jsonEqual_refl value
        (JsValue.ownMembers_iff.mp own.2 _ (JsValue.mem_of_lookup held)))

theorem recordOf_congr {first second : Output.JsonValue} (equal : JsonEqual first second) :
    JsonEqual (.obj (recordOf first)) (.obj (recordOf second)) := by
  cases equal with
  | obj keys values => exact .obj keys values
  | _ => exact jsonEqual_refl _ own_nothing

theorem innerOf_congr {first second : Members} (nodupFirst : (JsValue.keys first).Nodup)
    (nodupSecond : (JsValue.keys second).Nodup) (equal : JsonEqual (.obj first) (.obj second))
    (field : JsString) :
    JsonEqual (.obj (innerOf first field)) (.obj (innerOf second field)) := by
  have here := (jsonEqual_obj_iff nodupFirst nodupSecond).mp equal field
  rw [innerOf, innerOf]
  generalize first.lookup field = left at here ⊢
  generalize second.lookup field = right at here ⊢
  cases here with
  | none => exact jsonEqual_refl _ own_nothing
  | some same => exact recordOf_congr same

/-- Putting a value in keeps equal inputs equal. -/
theorem placeAt_congr {fields : List JsString} {value : Output.JsonValue}
    (ownValue : JsValue.Own value) :
    ∀ {first second : Members}, JsValue.Own (.obj first : Output.JsonValue) →
      JsValue.Own (.obj second : Output.JsonValue) → JsonEqual (.obj first) (.obj second) →
        JsonEqual (.obj (placeAt first fields value)) (.obj (placeAt second fields value)) := by
  induction fields with
  | nil => exact fun _ _ equal => equal
  | cons field rest ih =>
      intro first second ownFirst ownSecond equal
      have each := (jsonEqual_obj_iff ownFirst.1.nodup ownSecond.1.nodup).mp equal
      rw [jsonEqual_obj_iff (own_placeAt ownFirst ownValue).1.nodup
        (own_placeAt ownSecond ownValue).1.nodup]
      intro key
      rw [lookup_placeAt ownFirst.1.nodup, lookup_placeAt ownSecond.1.nodup]
      by_cases same : key = field
      · rw [if_pos same, if_pos same, filled, filled]
        by_cases more : rest = []
        · rw [if_pos more, if_pos more]
          exact .some (jsonEqual_refl value ownValue)
        · rw [if_neg more, if_neg more]
          exact .some (ih (own_innerOf ownFirst field) (own_innerOf ownSecond field)
            (innerOf_congr ownFirst.1.nodup ownSecond.1.nodup equal field))
      · rw [if_neg same, if_neg same]
        exact each key

/-- Two values put in apart from one another are put in in either order. -/
theorem placeAt_swap {first : List JsString} {value other : Output.JsonValue}
    (ownValue : JsValue.Own value) (ownOther : JsValue.Own other) :
    ∀ {second : List JsString} {target : Members}, JsValue.Own (.obj target : Output.JsonValue) →
      Apart first second →
        JsonEqual (.obj (placeAt (placeAt target first value) second other))
          (.obj (placeAt (placeAt target second other) first value)) := by
  induction first with
  | nil => exact fun _ apart => absurd rfl apart.more.1
  | cons field rest ih =>
      intro second target own apart
      cases second with
      | nil => exact absurd rfl apart.more.2
      | cons field' rest' =>
          have ownFirst : JsValue.Own (.obj (placeAt target (field :: rest) value) : Output.JsonValue) :=
            own_placeAt own ownValue
          have ownSecond : JsValue.Own (.obj (placeAt target (field' :: rest') other) :
            Output.JsonValue) := own_placeAt own ownOther
          rw [jsonEqual_obj_iff (own_placeAt ownFirst ownOther).1.nodup
            (own_placeAt ownSecond ownValue).1.nodup]
          intro key
          rw [lookup_placeAt ownFirst.1.nodup, lookup_placeAt ownSecond.1.nodup,
            lookup_placeAt own.1.nodup, lookup_placeAt own.1.nodup]
          by_cases same : field = field'
          · -- Both go inside the same field.
            subst same
            have more := apart.inside.more
            by_cases here : key = field
            · rw [if_pos here, if_pos here, filled, filled, if_neg more.1, if_neg more.2,
                innerOf_placeAt own.1.nodup field more.1,
                innerOf_placeAt own.1.nodup field more.2]
              exact .some (ih (own_innerOf own field) apart.inside)
            · simp only [if_neg here]
              exact rel_lookup own key
          · -- Each field is filled as if the other were not.
            have first' : filled (placeAt target (field :: rest) value) field' rest' other =
                filled target field' rest' other := by
              rw [filled, filled, innerOf_placeAt_other own.1.nodup (Ne.symm same)]
            have second' : filled (placeAt target (field' :: rest') other) field rest value =
                filled target field rest value := by
              rw [filled, filled, innerOf_placeAt_other own.1.nodup same]
            rw [first', second']
            by_cases atFirst : key = field
            · have notSecond : key ≠ field' := by rwa [atFirst]
              simp only [if_neg notSecond, if_pos atFirst]
              exact .some (jsonEqual_refl _ (own_filled own field rest ownValue))
            · simp only [if_neg atFirst]
              by_cases atSecond : key = field'
              · simp only [if_pos atSecond]
                exact .some (jsonEqual_refl _ (own_filled own field' rest' ownOther))
              · simp only [if_neg atSecond]
                exact rel_lookup own key

end NextTime.Binding
