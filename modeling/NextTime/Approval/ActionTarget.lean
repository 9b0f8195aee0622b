/-
The instance an ActionRequest acts on, and the two implementations of the
relation that orders requests: the TypeScript one, on parsed values, and the SQL
one, on the stored document. An identity number is stored as the text of a
numeric, which may carry a fractional part of zeros.
-/

namespace NextTime.Approval

/-- The largest integer the writer of a target lets through. -/
def maxSafeInteger : Int := 9007199254740991

/-- A scalar of the stored identity: a string, or a whole number with the zeros
its text has after the decimal point. -/
inductive IdentityValue
  | text (value : String)
  | number (value : Int) (fractionZeros : Nat)
deriving DecidableEq, Repr

/-- A target as the column holds it: written by `actionTargetOf`, kept by the
shape check and never changed. -/
structure ActionTarget where
  type : String
  params : List String
  identity : List IdentityValue
  paramsPresent : params ≠ []
  sameArity : params.length = identity.length
  safe : ∀ value zeros, .number value zeros ∈ identity →
    -maxSafeInteger ≤ value ∧ value ≤ maxSafeInteger
deriving DecidableEq, Repr

/-! ### The TypeScript relation -/

/-- `String(value)`: a whole number of this size is written in full. -/
def IdentityValue.string : IdentityValue → String
  | .text value => value
  | .number value _ => toString value

/-- `left.every((value, index) => same(value, right[index]))`. -/
def everyIndexed {Item : Type} (same : Item → Item → Bool) (left right : List Item) : Bool :=
  left.zipIdx.all fun entry =>
    match right[entry.2]? with
    | some other => same entry.1 other
    | none => false

def actionTargetsConflict (a b : Option ActionTarget) : Bool :=
  match a, b with
  | some a, some b =>
      if a.type ≠ b.type then false
      else
        let sameParams :=
          a.params.length == b.params.length && everyIndexed (· == ·) a.params b.params
        if !sameParams || a.identity.length != b.identity.length then true
        else everyIndexed (fun left right => left.string == right.string) a.identity b.identity
  | _, _ => true

/-! ### The SQL relation -/

/-- The text of a numeric with the given number of zeros after the point. -/
def numericText (value : Int) (zeros : Nat) : String :=
  if zeros = 0 then toString value else toString value ++ "." ++ String.ofList (List.replicate zeros '0')

/-- `trim_scale` on a whole number drops its fractional zeros. -/
def trimScale (number : Int × Nat) : Int × Nat := (number.1, 0)

def action_request_identity_text : IdentityValue → String
  | .number value zeros =>
      let trimmed := trimScale (value, zeros)
      numericText trimmed.1 trimmed.2
  | .text value => value

/-- `generate_series(0, length - 1)` has no index whose texts are distinct; a
position past the end reads as null, which is distinct from any text. -/
def noDistinctIdentity (a b : List IdentityValue) : Bool :=
  (List.range a.length).all fun i =>
    (a[i]?).map action_request_identity_text == (b[i]?).map action_request_identity_text

def action_request_targets_conflict (a b : Option ActionTarget) : Bool :=
  match a, b with
  | none, _ => true
  | _, none => true
  | some a, some b =>
      if a.type ≠ b.type then false
      else if a.params ≠ b.params then true
      else if a.identity.length ≠ b.identity.length then true
      else noDistinctIdentity a.identity b.identity

/-! ### Both are one relation -/

theorem identity_text_eq (value : IdentityValue) :
    action_request_identity_text value = value.string := by
  cases value with
  | text value => rfl
  | number value zeros => simp [action_request_identity_text, trimScale, numericText,
      IdentityValue.string]

theorem everyIndexed_iff {Item : Type} (same : Item → Item → Bool) (left right : List Item)
    (lengths : left.length = right.length) :
    everyIndexed same left right = true ↔
      ∀ i, (inLeft : i < left.length) → (inRight : i < right.length) →
        same (left[i]) (right[i]) = true := by
  simp only [everyIndexed, List.all_eq_true]
  constructor
  · intro every i inLeft inRight
    have member : (left[i], i) ∈ left.zipIdx := by
      rw [List.mem_zipIdx_iff_getElem?]
      exact List.getElem?_eq_getElem inLeft
    have holds := every (left[i], i) member
    simpa [List.getElem?_eq_getElem inRight] using holds
  · rintro every ⟨item, i⟩ member
    have found : left[i]? = some item := List.mem_zipIdx_iff_getElem?.mp member
    obtain ⟨inLeft, rfl⟩ := List.getElem?_eq_some_iff.mp found
    have inRight : i < right.length := lengths ▸ inLeft
    simpa [List.getElem?_eq_getElem inRight] using every i inLeft inRight

theorem everyIndexed_eq_iff (left right : List String) (lengths : left.length = right.length) :
    everyIndexed (· == ·) left right = true ↔ left = right := by
  rw [everyIndexed_iff _ left right lengths]
  constructor
  · intro every
    apply List.ext_getElem lengths
    intro i inLeft inRight
    exact eq_of_beq (every i inLeft inRight)
  · rintro rfl i inLeft inRight
    exact beq_self_eq_true _

theorem noDistinctIdentity_iff (a b : List IdentityValue) (lengths : a.length = b.length) :
    noDistinctIdentity a b = true ↔
      ∀ i, (inA : i < a.length) → (inB : i < b.length) →
        (a[i].string == b[i].string) = true := by
  simp only [noDistinctIdentity, List.all_eq_true, List.mem_range]
  constructor
  · intro none i inA inB
    have same := eq_of_beq (none i inA)
    simp only [List.getElem?_eq_getElem inA, List.getElem?_eq_getElem inB, Option.map_some,
      Option.some.injEq, identity_text_eq] at same
    exact beq_iff_eq.mpr same
  · intro every i inA
    have inB : i < b.length := lengths ▸ inA
    have same := eq_of_beq (every i inA inB)
    simp only [List.getElem?_eq_getElem inA, List.getElem?_eq_getElem inB, Option.map_some,
      identity_text_eq, same, beq_self_eq_true]

private theorem namedAlike_iff (a b : ActionTarget) :
    (a.params.length == b.params.length && everyIndexed (· == ·) a.params b.params) = true ↔
      a.params = b.params := by
  rw [Bool.and_eq_true, beq_iff_eq]
  constructor
  · rintro ⟨lengths, every⟩
    exact (everyIndexed_eq_iff _ _ lengths).mp every
  · intro same
    have lengths : a.params.length = b.params.length := by rw [same]
    exact ⟨lengths, (everyIndexed_eq_iff _ _ lengths).mpr same⟩

/-- The kernel and the database order the same pairs of stored targets. -/
theorem targetsConflict_agree (a b : Option ActionTarget) :
    actionTargetsConflict a b = action_request_targets_conflict a b := by
  cases a with
  | none => cases b <;> rfl
  | some a =>
      cases b with
      | none => rfl
      | some b =>
          simp only [actionTargetsConflict, action_request_targets_conflict]
          by_cases sameType : a.type = b.type
          · rw [if_neg (not_not_intro sameType), if_neg (not_not_intro sameType)]
            by_cases sameParams : a.params = b.params
            · have lengths : a.identity.length = b.identity.length := by
                rw [← a.sameArity, ← b.sameArity, sameParams]
              have values :
                  everyIndexed (fun left right => left.string == right.string)
                    a.identity b.identity = noDistinctIdentity a.identity b.identity := by
                rw [Bool.eq_iff_iff, everyIndexed_iff _ _ _ lengths,
                  noDistinctIdentity_iff _ _ lengths]
              rw [(namedAlike_iff a b).mpr sameParams, if_neg (not_not_intro sameParams),
                if_neg (not_not_intro lengths), values, lengths]
              simp
            · have notNamed : (a.params.length == b.params.length &&
                  everyIndexed (· == ·) a.params b.params) = false := by
                rw [← Bool.not_eq_true, namedAlike_iff]
                exact sameParams
              rw [notNamed, if_pos sameParams]
              simp
          · rw [if_pos sameType, if_pos sameType]

theorem targetsConflict_symm (a b : Option ActionTarget) :
    action_request_targets_conflict a b = action_request_targets_conflict b a := by
  cases a with
  | none => cases b <;> rfl
  | some a =>
      cases b with
      | none => rfl
      | some b =>
          simp only [action_request_targets_conflict]
          by_cases sameType : a.type = b.type
          · by_cases sameParams : a.params = b.params
            · by_cases lengths : a.identity.length = b.identity.length
              · have swapped : noDistinctIdentity a.identity b.identity =
                    noDistinctIdentity b.identity a.identity := by
                  rw [Bool.eq_iff_iff, noDistinctIdentity_iff _ _ lengths,
                    noDistinctIdentity_iff _ _ lengths.symm]
                  constructor
                  · intro every i inB inA
                    rw [beq_iff_eq]
                    exact (eq_of_beq (every i inA inB)).symm
                  · intro every i inA inB
                    rw [beq_iff_eq]
                    exact (eq_of_beq (every i inB inA)).symm
                simp [sameType, sameParams, lengths, swapped]
              · simp [sameType, sameParams, lengths, Ne.symm lengths]
            · simp [sameType, sameParams, Ne.symm sameParams]
          · simp [sameType, Ne.symm sameType]

end NextTime.Approval
