import NextTime.Library.JsonValue
import Mathlib.Order.Defs.Unbundled

/-
The rules of one field: whether a change of its value can widen authority. Every
rule here permits a preorder of changes, so a chain of permitted changes is one.
-/

namespace NextTime.Governance

inductive WideningReasonCode
  | added
  | removed
  | loosened
  | changed
  | unrecognized
deriving DecidableEq, Repr

/-- The reason a change widens authority, or none; a field left out is `none`. -/
abbrev FieldRule := Option JsonValue → Option JsonValue → Option WideningReasonCode

/-- Equal as JSON text, the order of an object's fields included. -/
def sameValue (before after : Option JsonValue) : Bool :=
  decide (before = after)

def NOT_WIDENING : FieldRule := fun _ _ => none

def ANY_CHANGE : FieldRule := fun before after =>
  if sameValue before after then none else some .changed

def strictness (rank : Option JsonValue → Option Nat) : FieldRule := fun before after =>
  if sameValue before after then none
  else
    match rank before, rank after with
    | some start, some stop => if stop < start then some .loosened else none
    | _, _ => some .changed

def rankOf (order : List JsonValue) (value : Option JsonValue) : Option Nat :=
  value.bind fun value => order.idxOf? value

/-- A list of strings; a field left out reads as `absent`. -/
def stringList (value : Option JsonValue) (absent : Option (List String)) :
    Option (List String) :=
  match value with
  | none => absent
  | some value => value.strings?

inductive WidensWhen
  | grows
  | shrinks
deriving DecidableEq, Repr

def listRule (widensWhen : WidensWhen) (absentIsEmpty : Bool) : FieldRule := fun before after =>
  if sameValue before after then none
  else if !absentIsEmpty && before.isNone != after.isNone then some .changed
  else
    let absent := if absentIsEmpty then some [] else none
    match stringList before absent, stringList after absent with
    | some before, some after =>
        let (wider, narrower) :=
          match widensWhen with
          | .grows => (after, before)
          | .shrinks => (before, after)
        if wider.all fun entry => narrower.contains entry then none else some .loosened
    | _, _ => some .changed

/-! ### What the rules permit -/

/-- The rule proves the change not to widen authority. -/
def Permits (rule : FieldRule) (before after : Option JsonValue) : Prop :=
  rule before after = none

theorem permits_notWidening (before after : Option JsonValue) :
    Permits NOT_WIDENING before after := rfl

theorem permits_anyChange {before after : Option JsonValue} :
    Permits ANY_CHANGE before after ↔ before = after := by
  rw [Permits, ANY_CHANGE, sameValue]
  by_cases same : before = after
  · simp [same]
  · simp [same]

theorem permits_strictness {rank : Option JsonValue → Option Nat}
    {before after : Option JsonValue} :
    Permits (strictness rank) before after ↔
      before = after ∨
        ∃ start stop, rank before = some start ∧ rank after = some stop ∧ start ≤ stop := by
  rw [Permits, strictness, sameValue]
  by_cases same : before = after
  · simp [same]
  · rw [if_neg (by simpa using same)]
    cases rank before with
    | none => simp [same]
    | some start =>
        cases rank after with
        | none => simp [same]
        | some stop => simp [same]

/-- A list rule's reading of a value. -/
def listReads (absentIsEmpty : Bool) (value : Option JsonValue) : Option (List String) :=
  stringList value (if absentIsEmpty then some [] else none)

/-- No entry on the side that reaches further is missing on the other. -/
def listWithin : WidensWhen → List String → List String → Prop
  | .grows, before, after => after ⊆ before
  | .shrinks, before, after => before ⊆ after

theorem listReads_absent {value : Option JsonValue} (absent : value.isNone = true) :
    listReads false value = none := by
  rw [Option.isNone_iff_eq_none.mp absent]
  rfl

theorem all_contains_iff (wider narrower : List String) :
    (wider.all fun entry => narrower.contains entry) = true ↔ wider ⊆ narrower := by
  rw [List.all_eq_true]
  constructor
  · intro within entry member
    exact List.contains_iff_mem.mp (within entry member)
  · intro within entry member
    exact List.contains_iff_mem.mpr (within member)

theorem permits_listRule {widensWhen : WidensWhen} {absentIsEmpty : Bool}
    {before after : Option JsonValue} :
    Permits (listRule widensWhen absentIsEmpty) before after ↔
      before = after ∨
        ∃ start stop, listReads absentIsEmpty before = some start ∧
          listReads absentIsEmpty after = some stop ∧ listWithin widensWhen start stop := by
  rw [Permits, listRule, sameValue]
  by_cases same : before = after
  · simp [same]
  · rw [if_neg (by simpa using same)]
    by_cases apart : (!absentIsEmpty && before.isNone != after.isNone) = true
    · -- One side is left out, and a field left out has no entries to read.
      rw [if_pos apart]
      have given : absentIsEmpty = false := by
        cases absentIsEmpty with
        | false => rfl
        | true => cases apart
      rw [given]
      cases before with
      | none => simp [same, listReads_absent]
      | some value =>
          cases after with
          | none => simp [same, listReads_absent]
          | some other =>
              rw [given] at apart
              cases apart
    · rw [if_neg apart]
      change (match listReads absentIsEmpty before, listReads absentIsEmpty after with
        | some start, some stop => _
        | _, _ => some WideningReasonCode.changed) = none ↔ _
      cases listReads absentIsEmpty before with
      | none => simp [same]
      | some start =>
          cases listReads absentIsEmpty after with
          | none => simp [same]
          | some stop =>
              cases widensWhen with
              | grows =>
                  have within := all_contains_iff stop start
                  simp [same, listWithin, ← within]
              | shrinks =>
                  have within := all_contains_iff start stop
                  simp [same, listWithin, ← within]

/-- Nothing changed is permitted, and so is what two permitted changes make. -/
structure Composes (rule : FieldRule) : Prop where
  refl : ∀ value, Permits rule value value
  trans : ∀ first second third, Permits rule first second → Permits rule second third →
    Permits rule first third

/-- A rule that compares what it reads of the two values, by a preorder. -/
theorem composes_of_reads {Grade : Type} {rule : FieldRule} {reads : Option JsonValue → Option Grade}
    {within : Grade → Grade → Prop}
    (transitive : ∀ first second third, within first second → within second third →
      within first third)
    (permits : ∀ before after, Permits rule before after ↔
      before = after ∨
        ∃ start stop, reads before = some start ∧ reads after = some stop ∧ within start stop) :
    Composes rule where
  refl value := (permits value value).mpr (Or.inl rfl)
  trans first second third early late := by
    cases (permits first second).mp early with
    | inl same => rw [same]; exact late
    | inr graded =>
        obtain ⟨start, middle, readFirst, readSecond, low⟩ := graded
        cases (permits second third).mp late with
        | inl same => rw [← same]; exact early
        | inr graded =>
            obtain ⟨again, stop, readAgain, readThird, high⟩ := graded
            rw [readSecond, Option.some.injEq] at readAgain
            rw [← readAgain] at high
            exact (permits first third).mpr
              (Or.inr ⟨start, stop, readFirst, readThird, transitive _ _ _ low high⟩)

theorem composes_notWidening : Composes NOT_WIDENING where
  refl _ := rfl
  trans _ _ _ _ _ := rfl

theorem composes_anyChange : Composes ANY_CHANGE where
  refl _ := permits_anyChange.mpr rfl
  trans _ _ _ early late :=
    permits_anyChange.mpr ((permits_anyChange.mp early).trans (permits_anyChange.mp late))

theorem composes_strictness (rank : Option JsonValue → Option Nat) : Composes (strictness rank) :=
  @composes_of_reads Nat _ rank (fun start stop => start ≤ stop) (fun _ _ _ => Nat.le_trans)
    fun _ _ => permits_strictness

theorem composes_listRule (widensWhen : WidensWhen) (absentIsEmpty : Bool) :
    Composes (listRule widensWhen absentIsEmpty) := by
  apply @composes_of_reads _ _ _ (listWithin widensWhen) _ fun _ _ => permits_listRule
  intro first second third early late
  cases widensWhen with
  | grows => exact List.Subset.trans late early
  | shrinks => exact List.Subset.trans early late

end NextTime.Governance
