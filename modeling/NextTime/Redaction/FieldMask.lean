import NextTime.Library.JsonText

/-
What lies under a secret-named key: the structure walk, and the mask of every leaf a
rule hides. A value is what JSON has of it, its members in their own order.
-/

namespace NextTime.Redaction

open JsonText
open JsString (js)

/-- `SECRET_FIELD_MASK`. -/
def REDACTED : JsString := js "[redacted]"

/-- A non-blank string or a number. -/
def isSecretFieldValue : Json → Bool
  | .str text => decide (JsString.trim text ≠ [])
  | .num _ => true
  | _ => false

structure Scrubbed (Value : Type) where
  value : Value
  redactedValues : Nat

/-! ### The structure walk -/

/-- Where the walk is. A walk without `schemaLiterals` is never at a `property`. -/
inductive Within
  | plain
  | field
deriving DecidableEq, Repr

section
variable (isSecretKey : JsString → Bool)

mutual

/-- The walk with no patterns, no literals and no bounds. -/
def redactInto (within : Within) (count : Nat) : Json → Json × Nat
  | .arr items =>
      let walked := redactItems within count items
      (.arr walked.1, walked.2)
  | .obj members =>
      let walked := redactMembers within count members
      (.obj walked.1, walked.2)
  | value =>
      if within = .field && isSecretFieldValue value then (.str REDACTED, count + 1)
      else (value, count)

def redactItems (within : Within) (count : Nat) : List Json → List Json × Nat
  | [] => ([], count)
  | item :: items =>
      let walked := redactInto within count item
      let others := redactItems within walked.2 items
      (walked.1 :: others.1, others.2)

def redactMembers (within : Within) (count : Nat) :
    List (JsString × Json) → List (JsString × Json) × Nat
  | [] => ([], count)
  | (key, inner) :: members =>
      let innerWithin := if within = .field || isSecretKey key then .field else .plain
      let walked := redactInto innerWithin count inner
      let others := redactMembers within walked.2 members
      ((key, walked.1) :: others.1, others.2)

end

def redactSecrets (value : Json) : Scrubbed Json :=
  let walked := redactInto isSecretKey .plain 0 value
  { value := walked.1, redactedValues := walked.2 }

/-! ### The leaves of a rule -/

mutual

/-- The strings, numbers and literals under a secret-named key, at any depth. -/
def secretLeaves (secret : Bool) : Json → List Json
  | .arr items => secretLeavesOfItems secret items
  | .obj members => secretLeavesOfMembers secret members
  | leaf => if secret then [leaf] else []

def secretLeavesOfItems (secret : Bool) : List Json → List Json
  | [] => []
  | item :: items => secretLeaves secret item ++ secretLeavesOfItems secret items

def secretLeavesOfMembers (secret : Bool) : List (JsString × Json) → List Json
  | [] => []
  | (key, value) :: members =>
      secretLeaves (secret || isSecretKey key) value ++ secretLeavesOfMembers secret members

end

/-- A leaf as a rule shows it. -/
def maskLeaf (hides : Json → Bool) (leaf : Json) : Json :=
  if hides leaf then .str REDACTED else leaf

mutual

/-- A value with the leaves under a secret-named key as a rule shows them. -/
def mask (hides : Json → Bool) (secret : Bool) : Json → Json
  | .arr items => .arr (maskItems hides secret items)
  | .obj members => .obj (maskMembers hides secret members)
  | leaf => if secret then maskLeaf hides leaf else leaf

def maskItems (hides : Json → Bool) (secret : Bool) : List Json → List Json
  | [] => []
  | item :: items => mask hides secret item :: maskItems hides secret items

def maskMembers (hides : Json → Bool) (secret : Bool) :
    List (JsString × Json) → List (JsString × Json)
  | [] => []
  | (key, value) :: members =>
      (key, mask hides (secret || isSecretKey key) value) :: maskMembers hides secret members

end

/-- How many leaves a rule hides. -/
def hiddenCount (hides : Json → Bool) (secret : Bool) (value : Json) : Nat :=
  (secretLeaves isSecretKey secret value).countP hides

end

/-! ### The structure walk is the mask of its rule -/

section
variable {isSecretKey : JsString → Bool}

def Within.secret : Within → Bool
  | .plain => false
  | .field => true

mutual

theorem redactInto_mask (within : Within) (count : Nat) : ∀ value : Json,
    redactInto isSecretKey within count value =
      (mask isSecretKey isSecretFieldValue within.secret value,
        count + hiddenCount isSecretKey isSecretFieldValue within.secret value)
  | .arr items => by
      rw [redactInto, redactItems_mask within count items, mask, hiddenCount, secretLeaves]
  | .obj members => by
      rw [redactInto, redactMembers_mask within count members, mask, hiddenCount, secretLeaves]
  | .null => by cases within <;> rfl
  | .bool value => by cases within <;> rfl
  | .num text => by cases within <;> rfl
  | .str text => by
      cases within with
      | plain => rfl
      | field =>
          change (if isSecretFieldValue (.str text) then (Json.str REDACTED, count + 1)
            else (.str text, count)) = (maskLeaf isSecretFieldValue (.str text),
              count + [Json.str text].countP isSecretFieldValue)
          rw [maskLeaf, List.countP_singleton]
          split
          next => rfl
          next => rfl

theorem redactItems_mask (within : Within) (count : Nat) : ∀ items : List Json,
    redactItems isSecretKey within count items =
      (maskItems isSecretKey isSecretFieldValue within.secret items,
        count + (secretLeavesOfItems isSecretKey within.secret items).countP isSecretFieldValue)
  | [] => rfl
  | item :: items => by
      rw [redactItems, redactInto_mask within count item, redactItems_mask within _ items,
        maskItems, secretLeavesOfItems, List.countP_append, hiddenCount, Nat.add_assoc]

theorem redactMembers_mask (within : Within) (count : Nat) :
    ∀ members : List (JsString × Json),
    redactMembers isSecretKey within count members =
      (maskMembers isSecretKey isSecretFieldValue within.secret members,
        count +
          (secretLeavesOfMembers isSecretKey within.secret members).countP isSecretFieldValue)
  | [] => rfl
  | (key, inner) :: members => by
      have innerSecret : Within.secret
          (if (decide (within = .field) || isSecretKey key) = true then .field else .plain) =
            (within.secret || isSecretKey key) := by
        cases within <;> cases isSecretKey key <;> rfl
      rw [redactMembers, redactInto_mask _ count inner, redactMembers_mask within _ members,
        innerSecret, maskMembers, secretLeavesOfMembers, List.countP_append, hiddenCount,
        Nat.add_assoc]

end

/-- The structure walk masks what `isSecretFieldValue` names, and counts it. -/
theorem redactSecrets_mask (value : Json) :
    redactSecrets isSecretKey value =
      { value := mask isSecretKey isSecretFieldValue false value,
        redactedValues := hiddenCount isSecretKey isSecretFieldValue false value } := by
  rw [redactSecrets, redactInto_mask, Nat.zero_add]
  rfl

/-! ### Two rules, one mask -/

mutual

/-- Two rules show a value alike exactly when they show every leaf alike. -/
theorem mask_eq_iff {hides others : Json → Bool} (secret : Bool) : ∀ value : Json,
    mask isSecretKey hides secret value = mask isSecretKey others secret value ↔
      ∀ leaf ∈ secretLeaves isSecretKey secret value, maskLeaf hides leaf = maskLeaf others leaf
  | .arr items => by
      rw [mask, mask, Json.arr.injEq, secretLeaves]
      exact maskItems_eq_iff secret items
  | .obj members => by
      rw [mask, mask, Json.obj.injEq, secretLeaves]
      exact maskMembers_eq_iff secret members
  | .null => by cases secret <;> simp [mask, secretLeaves]
  | .bool value => by cases secret <;> simp [mask, secretLeaves]
  | .num text => by cases secret <;> simp [mask, secretLeaves]
  | .str text => by cases secret <;> simp [mask, secretLeaves]

theorem maskItems_eq_iff {hides others : Json → Bool} (secret : Bool) : ∀ items : List Json,
    maskItems isSecretKey hides secret items = maskItems isSecretKey others secret items ↔
      ∀ leaf ∈ secretLeavesOfItems isSecretKey secret items,
        maskLeaf hides leaf = maskLeaf others leaf
  | [] => by simp [maskItems, secretLeavesOfItems]
  | item :: items => by
      rw [maskItems, maskItems, secretLeavesOfItems, List.cons.injEq,
        mask_eq_iff secret item, maskItems_eq_iff secret items, List.forall_mem_append]

theorem maskMembers_eq_iff {hides others : Json → Bool} (secret : Bool) :
    ∀ members : List (JsString × Json),
    maskMembers isSecretKey hides secret members =
        maskMembers isSecretKey others secret members ↔
      ∀ leaf ∈ secretLeavesOfMembers isSecretKey secret members,
        maskLeaf hides leaf = maskLeaf others leaf
  | [] => by simp [maskMembers, secretLeavesOfMembers]
  | (key, value) :: members => by
      rw [maskMembers, maskMembers, secretLeavesOfMembers, List.cons.injEq, Prod.mk.injEq,
        mask_eq_iff (secret || isSecretKey key) value, maskMembers_eq_iff secret members,
        List.forall_mem_append]
      simp only [true_and]

end

/-- No array and no object. -/
def IsLeaf : Json → Prop
  | .arr _ => False
  | .obj _ => False
  | _ => True

theorem secretLeaves_leaf {leaf : Json} (isLeaf : IsLeaf leaf) :
    secretLeaves isSecretKey true leaf = [leaf] := by
  cases leaf with
  | arr items => exact isLeaf.elim
  | obj members => exact isLeaf.elim
  | null => rfl
  | bool value => rfl
  | num text => rfl
  | str text => rfl

theorem isLeaf_maskLeaf (hides : Json → Bool) {leaf : Json} (isLeaf : IsLeaf leaf) :
    IsLeaf (maskLeaf hides leaf) := by
  rw [maskLeaf]
  split
  next => trivial
  next => exact isLeaf

/-- A masked leaf is the leaf of what is shown. -/
theorem secretLeaves_maskLeaf (hides : Json → Bool) (secret : Bool) {leaf : Json}
    (isLeaf : IsLeaf leaf)
    (masked : mask isSecretKey hides secret leaf = if secret then maskLeaf hides leaf else leaf)
    (leaves : secretLeaves isSecretKey secret leaf = if secret then [leaf] else []) :
    secretLeaves isSecretKey secret (mask isSecretKey hides secret leaf) =
      (secretLeaves isSecretKey secret leaf).map (maskLeaf hides) := by
  cases secret with
  | false =>
      rw [masked, if_neg Bool.false_ne_true, leaves, if_neg Bool.false_ne_true]
      rfl
  | true =>
      rw [masked, if_pos rfl, leaves, if_pos rfl, secretLeaves_leaf (isLeaf_maskLeaf hides isLeaf)]
      rfl

mutual

/-- The leaves of a masked value are the leaves as they are shown. -/
theorem secretLeaves_mask (hides : Json → Bool) (secret : Bool) : ∀ value : Json,
    secretLeaves isSecretKey secret (mask isSecretKey hides secret value) =
      (secretLeaves isSecretKey secret value).map (maskLeaf hides)
  | .arr items => by
      rw [mask, secretLeaves, secretLeaves, secretLeavesOfItems_mask hides secret items]
  | .obj members => by
      rw [mask, secretLeaves, secretLeaves, secretLeavesOfMembers_mask hides secret members]
  | .null => secretLeaves_maskLeaf hides secret trivial rfl rfl
  | .bool _ => secretLeaves_maskLeaf hides secret trivial rfl rfl
  | .num _ => secretLeaves_maskLeaf hides secret trivial rfl rfl
  | .str _ => secretLeaves_maskLeaf hides secret trivial rfl rfl

theorem secretLeavesOfItems_mask (hides : Json → Bool) (secret : Bool) :
    ∀ items : List Json,
    secretLeavesOfItems isSecretKey secret (maskItems isSecretKey hides secret items) =
      (secretLeavesOfItems isSecretKey secret items).map (maskLeaf hides)
  | [] => rfl
  | item :: items => by
      rw [maskItems, secretLeavesOfItems, secretLeavesOfItems, secretLeaves_mask hides secret item,
        secretLeavesOfItems_mask hides secret items, List.map_append]

theorem secretLeavesOfMembers_mask (hides : Json → Bool) (secret : Bool) :
    ∀ members : List (JsString × Json),
    secretLeavesOfMembers isSecretKey secret (maskMembers isSecretKey hides secret members) =
      (secretLeavesOfMembers isSecretKey secret members).map (maskLeaf hides)
  | [] => rfl
  | (key, value) :: members => by
      rw [maskMembers, secretLeavesOfMembers, secretLeavesOfMembers, secretLeaves_mask hides _ value,
        secretLeavesOfMembers_mask hides secret members, List.map_append]

end

/-- Under a secret-named key the structure walk leaves the mask, blank strings, literals. -/
theorem redactSecrets_hidden (value : Json) {leaf : Json}
    (member : leaf ∈ secretLeaves isSecretKey false (redactSecrets isSecretKey value).value) :
    leaf = .str REDACTED ∨ isSecretFieldValue leaf = false := by
  rw [redactSecrets_mask, secretLeaves_mask, List.mem_map] at member
  obtain ⟨source, _, shown⟩ := member
  rw [← shown, maskLeaf]
  split
  next => exact .inl rfl
  next visible => exact .inr (Bool.eq_false_iff.mpr visible)

end

end NextTime.Redaction
