import NextTime.PlanText.DocumentWalk

/-
How many values of a document the walk suspects. A walk that suspects none leaves the
document as it is, and what the rule of call arguments does not suspect, the rule of a
document does not either.
-/

namespace NextTime.PlanText

open JsString (js)

/-! ### Texts -/

theorem replaceMatch_count (text : JsString) (state : Scrubbing) (found : SecretMatch) :
    state.count ≤ (replaceMatch text state found).count := by
  unfold replaceMatch
  split
  next => exact Nat.le_refl _
  next => exact Nat.le_succ _

theorem foldl_replaceMatch_count (text : JsString) (matches' : List SecretMatch) :
    ∀ state : Scrubbing, state.count ≤ (matches'.foldl (replaceMatch text) state).count := by
  induction matches' with
  | nil => exact fun state => Nat.le_refl _
  | cons found matches' ih =>
      intro state
      exact Nat.le_trans (replaceMatch_count text state found) (ih _)

/-- Matches that replace nothing leave the text where it was. -/
theorem foldl_replaceMatch_same {text : JsString} {matches' : List SecretMatch} :
    ∀ {state : Scrubbing}, (matches'.foldl (replaceMatch text) state).count = state.count →
      matches'.foldl (replaceMatch text) state = state := by
  induction matches' with
  | nil => exact fun _ => rfl
  | cons found matches' ih =>
      intro state same
      rw [List.foldl_cons] at same ⊢
      have grown := foldl_replaceMatch_count text matches' (replaceMatch text state found)
      cases replaced : found.replacement with
      | none =>
          have kept : replaceMatch text state found = state := by
            rw [replaceMatch, replaced]
          rw [kept] at same ⊢
          exact ih same
      | some replacement =>
          have counted : (replaceMatch text state found).count = state.count + 1 := by
            rw [replaceMatch, replaced]
          omega

theorem scrubOnce_same {pattern : ValuePattern} {text : JsString}
    (nothing : (scrubOnce pattern text).2 = 0) : (scrubOnce pattern text).1 = text := by
  unfold scrubOnce at nothing ⊢
  have still := @foldl_replaceMatch_same _ _ ⟨[], 0, 0⟩ nothing
  simp only [still]
  exact if_neg (Nat.lt_irrefl 0)

/-- A text no pattern replaces anything in is left as it is. -/
theorem scrubInto_same {patterns : List ValuePattern} {text : JsString}
    (nothing : (scrubInto patterns text).2 = 0) : (scrubInto patterns text).1 = text := by
  induction patterns with
  | nil => rfl
  | cons pattern patterns ih =>
      rw [scrubInto] at nothing ⊢
      simp only at nothing ⊢
      have once := @scrubOnce_same pattern text (by omega)
      rw [once] at nothing ⊢
      exact ih (by omega)

/-! ### Values -/

section
variable {Number : Type} (patterns : List ValuePattern) (isFinite : Number → Bool)
  (namesASecretField : JsString → Bool)

mutual

/-- How many values a walk replaces. -/
def suspected (secretFields : Bool) (within : Within) : JsValue Number → Nat
  | .str text =>
      if within = .field && isSecretFieldValue isFinite (.str text) then 1
      else (scrubInto patterns text).2
  | .num number =>
      if within = .field && isSecretFieldValue isFinite (.num number) then 1 else 0
  | .arr items => suspectedItems secretFields (itemWithin within) items
  | .obj members => suspectedMembers secretFields within members
  | _ => 0

def suspectedItems (secretFields : Bool) (within : Within) : List (JsValue Number) → Nat
  | [] => 0
  | item :: items => suspected secretFields within item + suspectedItems secretFields within items

def suspectedMembers (secretFields : Bool) (within : Within) : JsMembers Number → Nat
  | [] => 0
  | (key, inner) :: members =>
      suspected secretFields (innerWithin namesASecretField secretFields within key) inner +
        suspectedMembers secretFields within members

end

end

section
variable {Number : Type} {patterns : List ValuePattern} {isFinite : Number → Bool}
  {namesASecretField : JsString → Bool}

mutual

/-- The walk counts what it suspects. -/
theorem redactInto_count (secretFields : Bool) (within : Within) (path : JsString)
    (found : Found) : ∀ value : JsValue Number,
    (redactInto patterns isFinite namesASecretField secretFields within path found value).2.count =
      found.count + suspected patterns isFinite namesASecretField secretFields within value
  | .null => rfl
  | .bool _ => rfl
  | .str text => by
      rw [redactInto, suspected]
      split
      next => rfl
      next => rfl
  | .num number => by
      rw [redactInto, suspected]
      split
      next => rfl
      next => rfl
  | .arr items => by
      rw [redactInto, suspected]
      exact redactItems_count secretFields (itemWithin within) path 0 found items
  | .obj members => by
      rw [redactInto, suspected]
      exact redactMembers_count secretFields within path found members

theorem redactItems_count (secretFields : Bool) (within : Within) (path : JsString)
    (index : Nat) (found : Found) : ∀ items : List (JsValue Number),
    (redactItems patterns isFinite namesASecretField secretFields within path index found
        items).2.count =
      found.count + suspectedItems patterns isFinite namesASecretField secretFields within items
  | [] => rfl
  | item :: items => by
      have first := redactInto_count secretFields within (itemPath path index) found item
      rw [redactItems, suspectedItems]
      simp only
      rw [redactItems_count secretFields within path (index + 1) _ items, first]
      omega

theorem redactMembers_count (secretFields : Bool) (within : Within) (path : JsString)
    (found : Found) : ∀ members : JsMembers Number,
    (redactMembers patterns isFinite namesASecretField secretFields within path found
        members).2.count =
      found.count +
        suspectedMembers patterns isFinite namesASecretField secretFields within members
  | [] => rfl
  | (key, inner) :: members => by
      have first := redactInto_count secretFields
        (innerWithin namesASecretField secretFields within key) (childPath patterns path key)
        found inner
      rw [redactMembers, suspectedMembers]
      simp only
      rw [redactMembers_count secretFields within path _ members, first]
      omega

end

mutual

/-- A value the walk suspects nothing in is left as it is. -/
theorem redactInto_same (secretFields : Bool) (within : Within) (path : JsString)
    (found : Found) : ∀ value : JsValue Number,
    suspected patterns isFinite namesASecretField secretFields within value = 0 →
      (redactInto patterns isFinite namesASecretField secretFields within path found value).1 =
        value
  | .null, _ => rfl
  | .bool _, _ => rfl
  | .str text, nothing => by
      rw [suspected] at nothing
      split at nothing
      next => omega
      next kept =>
        rw [redactInto, if_neg kept]
        exact congrArg JsValue.str (scrubInto_same nothing)
  | .num number, nothing => by
      rw [suspected] at nothing
      split at nothing
      next => omega
      next kept => rw [redactInto, if_neg kept]
  | .arr items, nothing => by
      rw [redactInto]
      exact congrArg JsValue.arr
        (redactItems_same secretFields (itemWithin within) path 0 found items nothing)
  | .obj members, nothing => by
      rw [redactInto]
      exact congrArg JsValue.obj
        (redactMembers_same secretFields within path found members nothing)

theorem redactItems_same (secretFields : Bool) (within : Within) (path : JsString)
    (index : Nat) (found : Found) : ∀ items : List (JsValue Number),
    suspectedItems patterns isFinite namesASecretField secretFields within items = 0 →
      (redactItems patterns isFinite namesASecretField secretFields within path index found
        items).1 = items
  | [], _ => rfl
  | item :: items, nothing => by
      rw [suspectedItems] at nothing
      have first := redactInto_same secretFields within (itemPath path index) found item
        (by omega)
      rw [redactItems]
      simp only
      rw [first, redactItems_same secretFields within path (index + 1) _ items (by omega)]

theorem redactMembers_same (secretFields : Bool) (within : Within) (path : JsString)
    (found : Found) : ∀ members : JsMembers Number,
    suspectedMembers patterns isFinite namesASecretField secretFields within members = 0 →
      (redactMembers patterns isFinite namesASecretField secretFields within path found
        members).1 = members
  | [], _ => rfl
  | (key, inner) :: members, nothing => by
      rw [suspectedMembers] at nothing
      have first := redactInto_same secretFields
        (innerWithin namesASecretField secretFields within key) (childPath patterns path key)
        found inner (by omega)
      rw [redactMembers]
      simp only
      rw [first, redactMembers_same secretFields within path _ members (by omega)]

end

/-! ### The two rules -/

/-- Where a walk under the rule of a document is while one under the rule of call arguments,
which started no later, is there. -/
inductive NoStricter : Within → Within → Prop
  | plain (within : Within) : NoStricter .plain within
  | property : NoStricter .property .field
  | field : NoStricter .field .field

theorem NoStricter.item {document arguments : Within} (no : NoStricter document arguments) :
    NoStricter (itemWithin document) (itemWithin arguments) := by
  cases no with
  | plain within => exact .plain _
  | property => exact .plain _
  | field => exact .field

theorem innerWithin_secret {key : JsString} (secret : namesASecretField key = true)
    (within : Within) : innerWithin namesASecretField true within key = .field := by
  rw [innerWithin, secret]
  exact if_pos (Bool.or_true _)

theorem NoStricter.inner {document arguments : Within} (no : NoStricter document arguments)
    (key : JsString) :
    NoStricter (innerWithin namesASecretField false document key)
      (innerWithin namesASecretField true arguments key) := by
  cases no with
  | plain within =>
      change NoStricter (if namesASecretField key then .property else .plain) _
      split
      next secret =>
        rw [innerWithin_secret secret]
        exact .property
      next => exact .plain _
  | property =>
      change NoStricter (if SCHEMA_VALUE_KEYWORDS.contains key then .field
        else if namesASecretField key then .property else .plain) .field
      split
      next => exact .field
      next =>
        split
        next => exact .property
        next => exact .plain _
  | field => exact .field

mutual

/-- What the rule of call arguments does not suspect, the rule of a document does not. -/
theorem suspected_document {document arguments : Within} (no : NoStricter document arguments) :
    ∀ value : JsValue Number,
    suspected patterns isFinite namesASecretField true arguments value = 0 →
      suspected patterns isFinite namesASecretField false document value = 0
  | .null, _ => rfl
  | .bool _, _ => rfl
  | .str text, nothing => by
      rw [suspected] at nothing ⊢
      cases no with
      | plain within =>
          split at nothing
          next => omega
          next => exact nothing
      | property =>
          split at nothing
          next => omega
          next => exact nothing
      | field => exact nothing
  | .num number, nothing => by
      rw [suspected] at nothing ⊢
      cases no with
      | plain within => rfl
      | property => rfl
      | field => exact nothing
  | .arr items, nothing => suspectedItems_document no.item items nothing
  | .obj members, nothing => suspectedMembers_document no members nothing

theorem suspectedItems_document {document arguments : Within}
    (no : NoStricter document arguments) : ∀ items : List (JsValue Number),
    suspectedItems patterns isFinite namesASecretField true arguments items = 0 →
      suspectedItems patterns isFinite namesASecretField false document items = 0
  | [], _ => rfl
  | item :: items, nothing => by
      rw [suspectedItems] at nothing ⊢
      have first := suspected_document no item (by omega)
      have rest := suspectedItems_document no items (by omega)
      omega

theorem suspectedMembers_document {document arguments : Within}
    (no : NoStricter document arguments) : ∀ members : JsMembers Number,
    suspectedMembers patterns isFinite namesASecretField true arguments members = 0 →
      suspectedMembers patterns isFinite namesASecretField false document members = 0
  | [], _ => rfl
  | (key, inner) :: members, nothing => by
      rw [suspectedMembers] at nothing ⊢
      have stricter := @NoStricter.inner namesASecretField _ _ no key
      have first := suspected_document stricter inner (by omega)
      have rest := suspectedMembers_document no members (by omega)
      omega

end

/-- What a walk suspects of some members, it suspects of one of them. -/
theorem suspectedMembers_eq_zero_iff {secretFields : Bool} {within : Within}
    {members : JsMembers Number} :
    suspectedMembers patterns isFinite namesASecretField secretFields within members = 0 ↔
      ∀ member ∈ members,
        suspected patterns isFinite namesASecretField secretFields
          (innerWithin namesASecretField secretFields within member.1) member.2 = 0 := by
  induction members with
  | nil => exact iff_of_true rfl fun _ member => nomatch member
  | cons member members ih =>
      rw [suspectedMembers, List.forall_mem_cons, ← ih]
      omega

end

end NextTime.PlanText
