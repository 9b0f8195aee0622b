import NextTime.PlanText.PlanReview
import NextTime.PlanText.SuspectedValues

/-
A plan that is not refused for what it carries reads back as it was written. The review
walks the call arguments under one rule and the plan without them under another; a read
walks the call arguments under the first and then the whole plan under the second.
-/

namespace NextTime.PlanText

open JsString (js)
open NextTime.Redaction (LetterCase asciiLetters)

/-! ### Members -/

section
variable {Value : Type}

theorem assign_lookup {key : JsString} {inner : Value} {members : List (JsString × Value)}
    (held : members.lookup key = some inner) :
    OwnProperties.assign key inner members = members := by
  induction members with
  | nil => cases held
  | cons member members ih =>
      rw [List.lookup_cons] at held
      rw [OwnProperties.assign]
      by_cases same : key = member.1
      · rw [same, beq_self_eq_true] at held
        cases held
        rw [if_pos same.symm, same]
      · rw [beq_false_of_ne same] at held
        rw [if_neg (Ne.symm same), ih held]

theorem mem_assign_self (key : JsString) (value : Value) (members : List (JsString × Value)) :
    (key, value) ∈ OwnProperties.assign key value members := by
  induction members with
  | nil => exact List.mem_singleton.mpr rfl
  | cons member members ih =>
      rw [OwnProperties.assign]
      split
      next => exact List.mem_cons_self
      next => exact List.mem_cons_of_mem _ ih

/-- Of what was there, assigning a property replaces what a lookup reads. -/
theorem mem_assign_of_mem {key : JsString} {inner value : Value}
    {members : List (JsString × Value)} (held : members.lookup key = some inner)
    {member : JsString × Value} (isIn : member ∈ members) :
    member = (key, inner) ∨ member ∈ OwnProperties.assign key value members := by
  induction members with
  | nil => cases isIn
  | cons first members ih =>
      rw [List.lookup_cons] at held
      rw [OwnProperties.assign]
      by_cases same : key = first.1
      · rw [same, beq_self_eq_true] at held
        cases held
        rw [if_pos same.symm]
        cases List.mem_cons.mp isIn with
        | inl isFirst => exact .inl (isFirst.trans (by rw [same]))
        | inr later => exact .inr (List.mem_cons_of_mem _ later)
      · rw [beq_false_of_ne same] at held
        rw [if_neg (Ne.symm same)]
        cases List.mem_cons.mp isIn with
        | inl isFirst => exact .inr (isFirst ▸ List.mem_cons_self)
        | inr later =>
            cases ih held later with
            | inl isKey => exact .inl isKey
            | inr kept => exact .inr (List.mem_cons_of_mem _ kept)

end

section
variable {Number : Type} {patterns : List ValuePattern} {isFinite : Number → Bool}
  {namesASecretField : JsString → Bool}

/-! ### Shapes whose field names are no secrets -/

mutual

/-- The fields of every object are different, and none of them names a secret. -/
def Shape.Fine (namesASecretField : JsString → Bool) : Shape → Prop
  | .params => True
  | .fields named => FineFields namesASecretField named
  | .items each => each.Fine namesASecretField
  | .kinds _ shape => shape.Fine namesASecretField

def FineFields (namesASecretField : JsString → Bool) : List (JsString × Shape) → Prop
  | [] => True
  | (key, shape) :: named =>
      (namesASecretField key = false ∧ key ∉ named.map Prod.fst) ∧
        shape.Fine namesASecretField ∧ FineFields namesASecretField named

end

/-! ### One value without and with its call arguments -/

/-- Call arguments left out. -/
def leftOut (_place : JsString) (_params : JsValue Number) (state : Unit) :
    JsValue Number × Unit := (.obj [], state)

/-- A value with its call arguments read: nothing found before is lost, and where nothing is
found the value is as it was, all of it, should the rule of a document find nothing in what is
left of it without them. -/
structure ReadsAlike (patterns : List ValuePattern) (isFinite : Number → Bool)
    (namesASecretField : JsString → Bool) (value without : JsValue Number) (found : Found)
    (read : JsValue Number × Found) : Prop where
  grows : found.count ≤ read.2.count
  same : read.2.count = found.count → read.1 = value
  unsuspected : read.2.count = found.count →
    suspected patterns isFinite namesASecretField false .plain without = 0 →
      suspected patterns isFinite namesASecretField false .plain value = 0

theorem ReadsAlike.untouched (value : JsValue Number) (found : Found) :
    ReadsAlike patterns isFinite namesASecretField value value found (value, found) where
  grows := Nat.le_refl _
  same _ := rfl
  unsuspected _ nothing := nothing

theorem paramsAsRead_readsAlike (place : JsString) (params : JsValue Number) (found : Found) :
    ReadsAlike patterns isFinite namesASecretField params (.obj []) found
      (paramsAsRead patterns isFinite namesASecretField place params found) := by
  have counted := @redactInto_count _ patterns isFinite namesASecretField true .plain [] ⟨0, []⟩ params
  have none (same : (paramsAsRead patterns isFinite namesASecretField place params
      found).2.count = found.count) :
      suspected patterns isFinite namesASecretField true .plain params = 0 := by
    change found.count + (redactInto patterns isFinite namesASecretField true .plain [] ⟨0, []⟩
      params).2.count = found.count at same
    omega
  constructor
  · exact Nat.le_add_right _ _
  · exact fun same => redactInto_same true .plain [] ⟨0, []⟩ params (none same)
  · exact fun same _ => suspected_document (.plain .plain) params (none same)

/-! ### Items and fields -/

section
variable {each : JsString → JsValue Number → Found → JsValue Number × Found}
  {without : JsString → JsValue Number → Unit → JsValue Number × Unit}

theorem mapItems_readsAlike
    (alike : ∀ place item found, ReadsAlike patterns isFinite namesASecretField item
      (without place item ()).1 found (each place item found)) (place : JsString) :
    ∀ (items : List (JsValue Number)) (index : Nat) (found : Found),
      ReadsAlike patterns isFinite namesASecretField (.arr items)
        (.arr (mapItems without place index items ()).1) found
        (.arr (mapItems each place index items found).1,
          (mapItems each place index items found).2) := by
  intro items
  induction items with
  | nil => exact fun _ found => .untouched (.arr []) found
  | cons item items ih =>
      intro index found
      have first := alike (itemPath place index) item found
      have rest := ih (index + 1) (each (itemPath place index) item found).2
      have grownFirst := first.grows
      have grownRest := rest.grows
      have sameBoth (same : (mapItems each place index (item :: items) found).2.count =
          found.count) :
          (each (itemPath place index) item found).2.count = found.count ∧
            (mapItems each place (index + 1) items
              (each (itemPath place index) item found).2).2.count =
              (each (itemPath place index) item found).2.count := by
        rw [mapItems] at same
        simp only at same grownRest
        omega
      constructor
      · exact Nat.le_trans grownFirst grownRest
      · intro same
        rw [mapItems]
        simp only
        rw [first.same (sameBoth same).1, JsValue.arr.inj (rest.same (sameBoth same).2)]
      · intro same nothing
        rw [mapItems, suspected, suspectedItems] at nothing
        rw [suspected, suspectedItems]
        have noRest := rest.unsuspected (sameBoth same).2 (Nat.eq_zero_of_add_eq_zero nothing).2
        have noFirst := first.unsuspected (sameBoth same).1 (Nat.eq_zero_of_add_eq_zero nothing).1
        exact Nat.add_eq_zero_iff.mpr ⟨noFirst, noRest⟩

/-- Members with some fields read, and others with the same fields left without their call
arguments: as for a value, but for the place of what is left out. -/
structure FieldsAlike (patterns : List ValuePattern) (isFinite : Number → Bool)
    (namesASecretField : JsString → Bool) (members others left : JsMembers Number)
    (found : Found) (read : JsMembers Number × Found) : Prop where
  grows : found.count ≤ read.2.count
  same : read.2.count = found.count → read.1 = members
  unsuspected : read.2.count = found.count →
    suspectedMembers patterns isFinite namesASecretField false .plain left = 0 →
      suspectedMembers patterns isFinite namesASecretField false .plain others = 0

theorem FieldsAlike.untouched (members others : JsMembers Number) (found : Found) :
    FieldsAlike patterns isFinite namesASecretField members others others found
      (members, found) where
  grows := Nat.le_refl _
  same _ := rfl
  unsuspected _ nothing := nothing

theorem FieldsAlike.trans {members others left : JsMembers Number} {found : Found}
    {first read : JsMembers Number × Found} {leftFirst : JsMembers Number}
    (one : FieldsAlike patterns isFinite namesASecretField members others leftFirst found first)
    (rest : FieldsAlike patterns isFinite namesASecretField first.1 leftFirst left first.2 read) :
    FieldsAlike patterns isFinite namesASecretField members others left found read := by
  have grownOne := one.grows
  have grownRest := rest.grows
  constructor
  · exact Nat.le_trans grownOne grownRest
  · intro same
    rw [rest.same (by omega), one.same (by omega)]
  · intro same nothing
    exact one.unsuspected (by omega) (rest.unsuspected (by omega) nothing)

theorem mapField_fieldsAlike
    (alike : ∀ place inner found, ReadsAlike patterns isFinite namesASecretField inner
      (without place inner ()).1 found (each place inner found))
    {key : JsString} (plain : namesASecretField key = false) (place : JsString)
    {members others : JsMembers Number} (agree : others.lookup key = members.lookup key)
    (found : Found) :
    FieldsAlike patterns isFinite namesASecretField members others
      (mapField without key place others ()).1 found
      (mapField each key place members found) := by
  unfold mapField
  rw [agree]
  cases held : members.lookup key with
  | none => exact .untouched members others found
  | some inner =>
      have read := alike (fieldPlace place key) inner found
      have within : innerWithin namesASecretField false .plain key = .plain := by
        change (if namesASecretField key then Within.property else .plain) = .plain
        rw [plain]
        rfl
      constructor
      · exact read.grows
      · intro same
        simp only
        rw [read.same same]
        exact assign_lookup held
      · intro same nothing
        rw [suspectedMembers_eq_zero_iff] at nothing ⊢
        have noInner := nothing _ (mem_assign_self key _ others)
        simp only [within] at noInner
        intro member isIn
        cases mem_assign_of_mem (agree.trans held) isIn with
        | inl isKey =>
            rw [isKey, within]
            exact read.unsuspected same noInner
        | inr kept => exact nothing member kept

end

/-- Only the field itself is mapped. -/
theorem mapField_lookup {State : Type}
    (each : JsString → JsValue Number → State → JsValue Number × State) {key other : JsString}
    (different : other ≠ key) (place : JsString) (members : JsMembers Number) (state : State) :
    (mapField each key place members state).1.lookup other = members.lookup other := by
  unfold mapField
  split
  next => exact JsValue.lookup_assign_other different _ members
  next => rfl

/-! ### Any shape -/

mutual

theorem mapShape_readsAlike : ∀ shape : Shape, shape.Fine namesASecretField →
    ∀ (place : JsString) (value : JsValue Number) (found : Found),
      ReadsAlike patterns isFinite namesASecretField value
        (mapShape leftOut shape place value ()).1 found
        (mapShape (paramsAsRead patterns isFinite namesASecretField) shape place value found)
  | .params, _, place, value, found => paramsAsRead_readsAlike place value found
  | .fields named, fine, place, value, found => by
      cases value with
      | obj members =>
          have alike := mapFields_fieldsAlike named fine place members members found
            fun _ _ => rfl
          constructor
          · exact alike.grows
          · exact fun same => congrArg JsValue.obj (alike.same same)
          · exact alike.unsuspected
      | null => exact .untouched _ found
      | bool value => exact .untouched _ found
      | num number => exact .untouched _ found
      | str text => exact .untouched _ found
      | arr items => exact .untouched _ found
  | .items each, fine, place, value, found => by
      cases value with
      | arr items => exact mapItems_readsAlike (mapShape_readsAlike each fine) place items 0 found
      | null => exact .untouched _ found
      | bool value => exact .untouched _ found
      | num number => exact .untouched _ found
      | str text => exact .untouched _ found
      | obj members => exact .untouched _ found
  | .kinds kinds shape, fine, place, value, found => by
      unfold mapShape
      split
      next => exact mapShape_readsAlike shape fine place value found
      next => exact .untouched value found

theorem mapFields_fieldsAlike : ∀ named : List (JsString × Shape),
    FineFields namesASecretField named →
    ∀ (place : JsString) (members others : JsMembers Number) (found : Found),
      (∀ key ∈ named.map Prod.fst, others.lookup key = members.lookup key) →
        FieldsAlike patterns isFinite namesASecretField members others
          (mapFields leftOut named place others ()).1 found
          (mapFields (paramsAsRead patterns isFinite namesASecretField) named place members found)
  | [], _, _, members, others, found, _ => .untouched members others found
  | (key, shape) :: named, fine, place, members, others, found, agree => by
      have first := mapField_fieldsAlike (mapShape_readsAlike shape fine.2.1) fine.1.1 place
        (agree key List.mem_cons_self) found
      apply first.trans
      apply mapFields_fieldsAlike named fine.2.2 place
      intro other isIn
      have different : other ≠ key := fun same => fine.1.2 (same ▸ isIn)
      rw [mapField_lookup _ different, mapField_lookup _ different]
      exact agree other (List.mem_cons_of_mem _ isIn)

end

end

/-! ### The plan -/

section
variable {letters : LetterCase}

theorem planShape_fine (ofAscii : letters.OfAscii) :
    planShape.Fine letters.namesASecretField := by
  have plain (key : JsString) (ascii : Redaction.isAsciiName key = true)
      (public' : asciiLetters.namesASecretField key = false) :
      letters.namesASecretField key = false :=
    (Redaction.namesASecretField_ofAscii ofAscii ascii).trans public'
  have params := plain (js "params") (by decide) (by decide)
  have check := plain (js "check") (by decide) (by decide)
  have action := plain (js "action") (by decide) (by decide)
  have input := plain (js "input") (by decide) (by decide)
  have reconcile := plain (js "reconcile") (by decide) (by decide)
  have acceptance := plain (js "acceptance") (by decide) (by decide)
  have steps := plain (js "steps") (by decide) (by decide)
  have fineParams : withParams.Fine letters.namesASecretField :=
    ⟨⟨params, List.not_mem_nil⟩, trivial, trivial⟩
  have fineObservation : observation.Fine letters.namesASecretField :=
    ⟨⟨check, List.not_mem_nil⟩, fineParams, trivial⟩
  have fineStep : stepShape.Fine letters.namesASecretField :=
    ⟨⟨input, by decide⟩, trivial, ⟨reconcile, by decide⟩,
      ⟨⟨action, by decide⟩, fineParams, ⟨check, List.not_mem_nil⟩, fineParams, trivial⟩,
      ⟨acceptance, List.not_mem_nil⟩, fineObservation, trivial⟩
  exact ⟨⟨steps, by decide⟩, fineStep, ⟨acceptance, List.not_mem_nil⟩, fineObservation, trivial⟩

variable {Number : Type} {patterns : List ValuePattern} {isFinite : Number → Bool}

/-- A plan that is accepted reads back as it was written, its invisible characters spelled
out. -/
theorem planAsRead_of_accepted (isUnseen : Nat → Bool) (ofAscii : letters.OfAscii)
    (plan : JsValue Number)
    (accepted :
      refusePlanCredentials patterns isFinite letters.namesASecretField plan = .ok ()) :
    planAsRead patterns isFinite letters.namesASecretField isUnseen plan =
      visibleStrings isUnseen plan := by
  have alike := @mapShape_readsAlike _ patterns isFinite _ planShape
    (planShape_fine ofAscii) [] plan ⟨0, []⟩
  have counted := @redactInto_count _ patterns isFinite letters.namesASecretField false .plain [] ⟨0, []⟩
    (withoutParams plan)
  unfold refusePlanCredentials at accepted
  simp only at accepted
  split at accepted
  next => cases accepted
  next =>
    split at accepted
    next nothing =>
      obtain ⟨noneFound, noneLeft⟩ := Nat.add_eq_zero_iff.mp nothing
      have unread : (planParamsAsRead patterns isFinite letters.namesASecretField plan).1 = plan :=
        alike.same noneFound
      have unsuspected : suspected patterns isFinite letters.namesASecretField false .plain
          plan = 0 := by
        apply alike.unsuspected noneFound
        change suspected patterns isFinite letters.namesASecretField false .plain
          (withoutParams plan) = 0
        change (redactInto patterns isFinite letters.namesASecretField false .plain [] ⟨0, []⟩
          (withoutParams plan)).2.count = 0 at noneLeft
        omega
      rw [planAsRead, unread, shownFreeTextIn, redactSuspectedSecrets,
        redactInto_same false .plain [] ⟨0, []⟩ plan unsuspected]
    next => cases accepted

/-- A plan with a parameter named `password` that is blank, and a zero width space in a
prompt. -/
def blankPasswordPlan : JsValue Nat :=
  .obj
    [(js "steps", .arr
      [.obj
        [(js "key", .str (js "restart")),
          (js "input", .obj [(js "password", .str []), (js "port", .num 22)]),
          (js "acceptance", .arr
            [.obj
              [(js "kind", .str (js "human_confirm")),
                (js "prompt", .str (js "is it" ++ [0x200B] ++ js "up?"))]])]])]

theorem planAsRead_of_accepted_blankPassword :
    planAsRead [fun _ => []] (fun _ => true) asciiLetters.namesASecretField (· == 0x200B)
        blankPasswordPlan =
      visibleStrings (· == 0x200B) blankPasswordPlan :=
  @planAsRead_of_accepted asciiLetters _ [fun _ => []] _ (· == 0x200B) (fun _ _ => ⟨rfl, rfl⟩)
    blankPasswordPlan rfl

end

end NextTime.PlanText
