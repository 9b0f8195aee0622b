import NextTime.Library.JsObject

/-
Values of JSON whatever the order of their members: with the members of every object sorted
by their keys, values that differ in that order alone are one. Nothing here names a
particular program.
-/

namespace JsValue

/-! ### Members sorted by their keys -/

section
variable {Value : Type}

/-- The order of `sort()` on the keys: by code units. -/
def KeyLe (first second : JsString × Value) : Prop := first.1 ≤ second.1

instance : DecidableRel (@KeyLe Value) :=
  fun first second => inferInstanceAs (Decidable (first.1 ≤ second.1))

instance : Std.Total (@KeyLe Value) :=
  ⟨fun first second => List.le_total first.1 second.1⟩

instance : IsTrans (JsString × Value) KeyLe :=
  ⟨fun _ _ _ => List.le_trans⟩

def sortKeys (members : List (JsString × Value)) : List (JsString × Value) :=
  members.insertionSort KeyLe

theorem sortKeys_perm (members : List (JsString × Value)) :
    (sortKeys members).Perm members :=
  List.perm_insertionSort KeyLe members

theorem nodup_sortKeys {members : List (JsString × Value)} (nodup : (keys members).Nodup) :
    (keys (sortKeys members)).Nodup :=
  ((sortKeys_perm members).map Prod.fst).nodup_iff.mpr nodup

/-- Members without a key twice have one sorted form. -/
theorem sortKeys_eq_iff_perm {left right : List (JsString × Value)}
    (nodup : (keys left).Nodup) : sortKeys left = sortKeys right ↔ left.Perm right := by
  constructor
  · intro same
    exact (sortKeys_perm left).symm.trans (same ▸ sortKeys_perm right)
  · intro perm
    apply List.Perm.eq_of_pairwise
    · intro first second inLeft inRight before behind
      have firstIn := (sortKeys_perm left).subset inLeft
      have secondIn := perm.symm.subset ((sortKeys_perm right).subset inRight)
      have sameKey : first.1 = second.1 := List.le_antisymm before behind
      have one := lookup_of_mem nodup firstIn
      have other := lookup_of_mem nodup secondIn
      rw [sameKey, other] at one
      exact Prod.ext sameKey (Option.some.inj one).symm
    · exact List.pairwise_insertionSort KeyLe left
    · exact List.pairwise_insertionSort KeyLe right
    · exact (sortKeys_perm left).trans (perm.trans (sortKeys_perm right).symm)

theorem perm_of_lookup {left right : List (JsString × Value)} (nodupLeft : (keys left).Nodup)
    (nodupRight : (keys right).Nodup) (same : ∀ key, left.lookup key = right.lookup key) :
    left.Perm right := by
  rw [List.perm_ext_iff_of_nodup nodupLeft.of_map nodupRight.of_map]
  intro member
  constructor
  · intro isIn
    apply mem_of_lookup
    rw [← same]
    exact lookup_of_mem nodupLeft isIn
  · intro isIn
    apply mem_of_lookup
    rw [same]
    exact lookup_of_mem nodupRight isIn

theorem lookup_of_perm {left right : List (JsString × Value)} (nodup : (keys left).Nodup)
    (perm : left.Perm right) (key : JsString) : left.lookup key = right.lookup key := by
  have nodupRight : (keys right).Nodup := (perm.map Prod.fst).nodup_iff.mp nodup
  apply Option.ext
  intro value
  constructor
  · intro held
    exact lookup_of_mem nodupRight (perm.subset (mem_of_lookup held))
  · intro held
    exact lookup_of_mem nodup (perm.symm.subset (mem_of_lookup held))

/-- Sorted members are one exactly when every key has the same value. -/
theorem sortKeys_eq_iff {left right : List (JsString × Value)} (nodupLeft : (keys left).Nodup)
    (nodupRight : (keys right).Nodup) :
    sortKeys left = sortKeys right ↔ ∀ key, left.lookup key = right.lookup key := by
  rw [sortKeys_eq_iff_perm nodupLeft]
  constructor
  · exact lookup_of_perm nodupLeft
  · exact perm_of_lookup nodupLeft nodupRight

end

/-! ### Values that differ in the order of their members alone -/

section
variable {Number : Type}

inductive Alike : JsValue Number → JsValue Number → Prop
  | null : Alike .null .null
  | bool (value : Bool) : Alike (.bool value) (.bool value)
  | num (number : Number) : Alike (.num number) (.num number)
  | str (text : JsString) : Alike (.str text) (.str text)
  | arr {left right : List (JsValue Number)} (items : List.Forall₂ Alike left right) :
      Alike (.arr left) (.arr right)
  | obj {left right : JsMembers Number}
      (members : ∀ key, Option.Rel Alike (left.lookup key) (right.lookup key)) :
      Alike (.obj left) (.obj right)

mutual

/-- No object of the value has a key twice. -/
def Distinct : JsValue Number → Prop
  | .arr items => DistinctItems items
  | .obj members => (keys members).Nodup ∧ DistinctMembers members
  | _ => True

def DistinctItems : List (JsValue Number) → Prop
  | [] => True
  | item :: items => Distinct item ∧ DistinctItems items

def DistinctMembers : JsMembers Number → Prop
  | [] => True
  | (_, value) :: members => Distinct value ∧ DistinctMembers members

end

mutual

theorem distinct_of_own : ∀ value : JsValue Number, Own value → Distinct value
  | .null, _ => trivial
  | .bool _, _ => trivial
  | .num _, _ => trivial
  | .str _, _ => trivial
  | .arr items, own => distinctItems_of_own items own
  | .obj members, own => ⟨own.1.nodup, distinctMembers_of_own members own.2⟩

theorem distinctItems_of_own : ∀ items : List (JsValue Number), OwnItems items →
    DistinctItems items
  | [], _ => trivial
  | item :: items, own => ⟨distinct_of_own item own.1, distinctItems_of_own items own.2⟩

theorem distinctMembers_of_own : ∀ members : JsMembers Number, OwnMembers members →
    DistinctMembers members
  | [], _ => trivial
  | (_, value) :: members, own =>
      ⟨distinct_of_own value own.1, distinctMembers_of_own members own.2⟩

end

mutual

def sorted : JsValue Number → JsValue Number
  | .arr items => .arr (sortedItems items)
  | .obj members => .obj (sortKeys (sortedMembers members))
  | .null => .null
  | .bool value => .bool value
  | .num number => .num number
  | .str text => .str text

def sortedItems : List (JsValue Number) → List (JsValue Number)
  | [] => []
  | item :: items => sorted item :: sortedItems items

def sortedMembers : JsMembers Number → JsMembers Number
  | [] => []
  | (key, value) :: members => (key, sorted value) :: sortedMembers members

end

theorem sortedMembers_map (members : JsMembers Number) :
    sortedMembers members = members.map fun member => (member.1, sorted member.2) := by
  induction members with
  | nil => rfl
  | cons member members ih => rw [sortedMembers, ih, List.map_cons]

theorem keys_sortedMembers (members : JsMembers Number) :
    keys (sortedMembers members) = keys members := by
  rw [sortedMembers_map]
  exact keys_mapValues (fun _ => sorted) members

theorem lookup_sortedMembers (key : JsString) (members : JsMembers Number) :
    (sortedMembers members).lookup key = (members.lookup key).map sorted := by
  induction members with
  | nil => rfl
  | cons member members ih =>
      rw [sortedMembers, List.lookup_cons, List.lookup_cons]
      split
      next => rfl
      next => exact ih

theorem distinct_of_lookup {members : JsMembers Number} (distinct : DistinctMembers members)
    {key : JsString} {value : JsValue Number} (held : members.lookup key = some value) :
    Distinct value := by
  induction members with
  | nil => cases held
  | cons member members ih =>
      rw [List.lookup_cons] at held
      split at held
      next =>
        rw [← Option.some.inj held]
        exact distinct.1
      next => exact ih distinct.2 held

mutual

/-- The sorted form is one exactly for values that are alike. -/
theorem sorted_eq_iff : ∀ first second : JsValue Number, Distinct first → Distinct second →
    (sorted first = sorted second ↔ Alike first second)
  | .null, second, _, _ => by
      constructor
      · intro same
        cases second with
        | null => exact .null
        | _ => cases same
      · intro alike
        cases alike
        rfl
  | .bool value, second, _, _ => by
      constructor
      · intro same
        cases second with
        | bool other => cases same; exact .bool value
        | _ => cases same
      · intro alike
        cases alike
        rfl
  | .num number, second, _, _ => by
      constructor
      · intro same
        cases second with
        | num other => cases same; exact .num number
        | _ => cases same
      · intro alike
        cases alike
        rfl
  | .str text, second, _, _ => by
      constructor
      · intro same
        cases second with
        | str other => cases same; exact .str text
        | _ => cases same
      · intro alike
        cases alike
        rfl
  | .arr items, second, distinct, distinctSecond => by
      constructor
      · intro same
        cases second with
        | arr others =>
            rw [sorted, sorted, JsValue.arr.injEq] at same
            exact .arr ((sortedItems_eq_iff items others distinct distinctSecond).mp same)
        | _ => cases same
      · intro alike
        cases alike with
        | @arr _ others each =>
            rw [sorted, sorted, (sortedItems_eq_iff items others distinct distinctSecond).mpr each]
  | .obj members, second, distinct, distinctSecond => by
      constructor
      · intro same
        cases second with
        | obj others =>
            rw [sorted, sorted, JsValue.obj.injEq,
              sortKeys_eq_iff (by rw [keys_sortedMembers]; exact distinct.1)
                (by rw [keys_sortedMembers]; exact distinctSecond.1)] at same
            apply Alike.obj
            intro key
            have here := same key
            rw [lookup_sortedMembers, lookup_sortedMembers] at here
            exact (sortedLookup_eq_iff members distinct.2 key (others.lookup key)
              fun _ held => distinct_of_lookup distinctSecond.2 held).mp here
        | _ => cases same
      · intro alike
        cases alike with
        | @obj _ others each =>
            rw [sorted, sorted, JsValue.obj.injEq,
              sortKeys_eq_iff (by rw [keys_sortedMembers]; exact distinct.1)
                (by rw [keys_sortedMembers]; exact distinctSecond.1)]
            intro key
            rw [lookup_sortedMembers, lookup_sortedMembers]
            exact (sortedLookup_eq_iff members distinct.2 key (others.lookup key)
              fun _ held => distinct_of_lookup distinctSecond.2 held).mpr (each key)

theorem sortedItems_eq_iff : ∀ items others : List (JsValue Number), DistinctItems items →
    DistinctItems others →
      (sortedItems items = sortedItems others ↔ List.Forall₂ Alike items others)
  | [], [], _, _ => iff_of_true rfl .nil
  | [], _ :: _, _, _ => iff_of_false (fun same => nomatch same) (fun each => nomatch each)
  | _ :: _, [], _, _ => iff_of_false (fun same => nomatch same) (fun each => nomatch each)
  | item :: items, other :: others, distinct, distinctOthers => by
      rw [sortedItems, sortedItems, List.cons.injEq, List.forall₂_cons,
        sorted_eq_iff item other distinct.1 distinctOthers.1,
        sortedItems_eq_iff items others distinct.2 distinctOthers.2]

theorem sortedLookup_eq_iff : ∀ members : JsMembers Number, DistinctMembers members →
    ∀ (key : JsString) (other : Option (JsValue Number)),
      (∀ value, other = some value → Distinct value) →
        ((members.lookup key).map sorted = other.map sorted ↔
          Option.Rel Alike (members.lookup key) other)
  | [], _, key, none, _ => iff_of_true rfl .none
  | [], _, key, some _, _ => iff_of_false (fun same => nomatch same) (fun each => nomatch each)
  | (name, value) :: members, distinct, key, other, distinctOther => by
      rw [List.lookup_cons]
      split
      next =>
        cases other with
        | none => exact iff_of_false (fun same => nomatch same) (fun each => nomatch each)
        | some held =>
            rw [Option.map_some, Option.map_some, Option.some.injEq, Option.rel_some_some,
              sorted_eq_iff value held distinct.1 (distinctOther held rfl)]
      next => exact sortedLookup_eq_iff members distinct.2 key other distinctOther

end

theorem alike_of_sorted_eq {first second : JsValue Number} (distinct : Distinct first)
    (distinctSecond : Distinct second) (same : sorted first = sorted second) :
    Alike first second :=
  (sorted_eq_iff first second distinct distinctSecond).mp same

/-! ### The sorted form of what is sorted or written -/

theorem sortKeys_map {Value Other : Type} (change : Value → Other)
    (members : List (JsString × Value)) :
    sortKeys (members.map fun member => (member.1, change member.2)) =
      (sortKeys members).map fun member => (member.1, change member.2) :=
  (List.map_insertionSort KeyLe KeyLe (fun member => (member.1, change member.2)) members
    fun _ _ _ _ => Iff.rfl).symm

mutual

theorem sorted_sorted : ∀ value : JsValue Number, Distinct value →
    sorted (sorted value) = sorted value
  | .null, _ => rfl
  | .bool _, _ => rfl
  | .num _, _ => rfl
  | .str _, _ => rfl
  | .arr items, distinct => by
      rw [sorted, sorted, sortedItems_sortedItems items distinct]
  | .obj members, distinct => by
      have perm := (sortKeys_perm (sortedMembers members)).map fun member =>
        (member.1, sorted member.2)
      rw [← sortedMembers_map, ← sortedMembers_map,
        sortedMembers_sortedMembers members distinct.2] at perm
      rw [sorted, sorted, JsValue.obj.injEq, sortKeys_eq_iff_perm]
      · exact perm
      · rw [keys_sortedMembers]
        apply nodup_sortKeys
        rw [keys_sortedMembers]
        exact distinct.1

theorem sortedItems_sortedItems : ∀ items : List (JsValue Number), DistinctItems items →
    sortedItems (sortedItems items) = sortedItems items
  | [], _ => rfl
  | item :: items, distinct => by
      rw [sortedItems, sortedItems, sorted_sorted item distinct.1,
        sortedItems_sortedItems items distinct.2]

theorem sortedMembers_sortedMembers : ∀ members : JsMembers Number, DistinctMembers members →
    sortedMembers (sortedMembers members) = sortedMembers members
  | [], _ => rfl
  | (key, value) :: members, distinct => by
      rw [sortedMembers, sortedMembers, sorted_sorted value distinct.1,
        sortedMembers_sortedMembers members distinct.2]

end

theorem distinctMembers_iff {members : JsMembers Number} :
    DistinctMembers members ↔ ∀ member ∈ members, Distinct member.2 := by
  induction members with
  | nil => exact iff_of_true trivial fun _ isIn => nomatch isIn
  | cons member members ih => rw [DistinctMembers, ih, List.forall_mem_cons]

mutual

theorem distinct_sorted : ∀ value : JsValue Number, Distinct value → Distinct (sorted value)
  | .null, _ => trivial
  | .bool _, _ => trivial
  | .num _, _ => trivial
  | .str _, _ => trivial
  | .arr items, distinct => distinctItems_sorted items distinct
  | .obj members, distinct => by
      constructor
      · apply nodup_sortKeys
        rw [keys_sortedMembers]
        exact distinct.1
      · have inside := distinctMembers_iff.mp (distinctMembers_sorted members distinct.2)
        rw [distinctMembers_iff]
        intro member isIn
        exact inside member ((sortKeys_perm _).subset isIn)

theorem distinctItems_sorted : ∀ items : List (JsValue Number), DistinctItems items →
    DistinctItems (sortedItems items)
  | [], _ => trivial
  | item :: items, distinct =>
      ⟨distinct_sorted item distinct.1, distinctItems_sorted items distinct.2⟩

theorem distinctMembers_sorted : ∀ members : JsMembers Number, DistinctMembers members →
    DistinctMembers (sortedMembers members)
  | [], _ => trivial
  | (_, value) :: members, distinct =>
      ⟨distinct_sorted value distinct.1, distinctMembers_sorted members distinct.2⟩

end

/-! ### Reading what was written in another order -/

variable {numbers : JsNumbers Number}

theorem sortKeys_collapse (keeps : DuplicateKeys) {members : JsMembers Number}
    (nodup : (keys members).Nodup) :
    sortKeys (sortedMembers (collapse keeps members)) = sortKeys (sortedMembers members) := by
  have perm : (collapse keeps members).Perm members := by
    rw [collapse, foldl_add_of_nodup keeps nodup]
    exact List.perm_insertionSort Earlier members
  rw [sortKeys_eq_iff_perm, sortedMembers_map, sortedMembers_map]
  · exact perm.map _
  · rw [keys_sortedMembers]
    exact (perm.map Prod.fst).nodup_iff.mpr nodup

theorem keys_reviveMembers_writeMembers (keeps : DuplicateKeys) (members : JsMembers Number) :
    keys (reviveMembers numbers keeps (writeMembers numbers members)) = keys members := by
  induction members with
  | nil => rfl
  | cons member members ih =>
      rw [writeMembers, reviveMembers, keys_cons, keys_cons, ih]

mutual

theorem sorted_revive_write (keeps : DuplicateKeys) : ∀ value : JsValue Number, Distinct value →
    sorted (revive numbers keeps (write numbers value)) = sorted (rewritten numbers value)
  | .null, _ => rfl
  | .bool _, _ => rfl
  | .num number, _ => by
      rw [write, rewritten]
      cases written : numbers.write number with
      | none => rfl
      | some text =>
          change sorted (.num (numbers.read text)) = sorted (.num number)
          rw [numbers.read_write written]
  | .str _, _ => rfl
  | .arr items, distinct => by
      rw [write, revive, rewritten, sorted, sorted,
        sortedItems_revive_write keeps items distinct]
  | .obj members, distinct => by
      rw [write, revive, rewritten, sorted, sorted, sortKeys_collapse keeps,
        sortedMembers_revive_write keeps members distinct.2]
      rw [keys_reviveMembers_writeMembers]
      exact distinct.1

theorem sortedItems_revive_write (keeps : DuplicateKeys) : ∀ items : List (JsValue Number),
    DistinctItems items →
      sortedItems (reviveItems numbers keeps (writeItems numbers items)) =
        sortedItems (rewrittenItems numbers items)
  | [], _ => rfl
  | item :: items, distinct => by
      rw [writeItems, reviveItems, rewrittenItems, sortedItems, sortedItems,
        sorted_revive_write keeps item distinct.1,
        sortedItems_revive_write keeps items distinct.2]

theorem sortedMembers_revive_write (keeps : DuplicateKeys) : ∀ members : JsMembers Number,
    DistinctMembers members →
      sortedMembers (reviveMembers numbers keeps (writeMembers numbers members)) =
        sortedMembers (rewrittenMembers numbers members)
  | [], _ => rfl
  | (key, value) :: members, distinct => by
      rw [writeMembers, reviveMembers, rewrittenMembers, sortedMembers, sortedMembers,
        sorted_revive_write keeps value distinct.1,
        sortedMembers_revive_write keeps members distinct.2]

end

mutual

theorem rewritten_sorted : ∀ value : JsValue Number,
    rewritten numbers (sorted value) = sorted (rewritten numbers value)
  | .null => rfl
  | .bool _ => rfl
  | .num number => by
      rw [sorted, rewritten]
      cases numbers.write number with
      | none => rfl
      | some text => rfl
  | .str _ => rfl
  | .arr items => by
      rw [sorted, rewritten, rewritten, sorted, rewrittenItems_sorted items]
  | .obj members => by
      rw [sorted, rewritten, rewritten, sorted, ← rewrittenMembers_sorted members,
        rewrittenMembers_map, rewrittenMembers_map, sortKeys_map]

theorem rewrittenItems_sorted : ∀ items : List (JsValue Number),
    rewrittenItems numbers (sortedItems items) = sortedItems (rewrittenItems numbers items)
  | [] => rfl
  | item :: items => by
      rw [sortedItems, rewrittenItems, rewrittenItems, sortedItems, rewritten_sorted item,
        rewrittenItems_sorted items]

theorem rewrittenMembers_sorted : ∀ members : JsMembers Number,
    rewrittenMembers numbers (sortedMembers members) =
      sortedMembers (rewrittenMembers numbers members)
  | [] => rfl
  | (key, value) :: members => by
      rw [sortedMembers, rewrittenMembers, rewrittenMembers, sortedMembers,
        rewritten_sorted value, rewrittenMembers_sorted members]

end

/-- What is written in sorted order and read again is the value, if its numbers are finite. -/
theorem sorted_revive_write_sorted (keeps : DuplicateKeys) {value : JsValue Number}
    (distinct : Distinct value)
    (finite : ∀ number ∈ numbersOf value, (numbers.write number).isSome = true) :
    sorted (revive numbers keeps (write numbers (sorted value))) = sorted value := by
  rw [sorted_revive_write keeps _ (distinct_sorted value distinct), rewritten_sorted,
    (rewritten_eq_iff value).mpr finite, sorted_sorted value distinct]

end

end JsValue
