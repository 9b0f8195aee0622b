import Mathlib

/-
Lines of rows of which each is replaced by the next at the moment the next one
begins. Nothing here names a particular program.
-/

namespace Lineage

open Relation (ReflTransGen)

variable {Row Time : Type} [LinearOrder Time]

/-- A row is in force from its beginning on, and until it is replaced. -/
def InForce (begins : Row → Time) (replacedAt : Row → Option Time) (time : Time) (row : Row) :
    Prop :=
  begins row ≤ time ∧ ∀ moment, replacedAt row = some moment → time < moment

/-- The rows replaced one by another: nothing lies between two rows, no row is replaced
twice, and a row that is replaced has its successor. -/
structure Lined (rows : List Row) (begins : Row → Time) (replacedAt : Row → Option Time)
    (replaces : Row → Row → Prop) (rank : Row → Nat) : Prop where
  present : ∀ {old new}, replaces old new → old ∈ rows ∧ new ∈ rows
  handed : ∀ {old new}, replaces old new → replacedAt old = some (begins new)
  onward : ∀ {old new}, replaces old new → begins old ≤ begins new
  once : ∀ {old new other}, replaces old new → replaces old other → new = other
  succeeded : ∀ {old moment}, old ∈ rows → replacedAt old = some moment →
    ∃ new, replaces old new
  rising : ∀ {old new}, replaces old new → rank old < rank new
  bounded : ∀ {row}, row ∈ rows → rank row < rows.length

namespace Lined

variable {rows : List Row} {begins : Row → Time} {replacedAt : Row → Option Time}
  {replaces : Row → Row → Prop} {rank : Row → Nat}
  (lined : Lined rows begins replacedAt replaces rank)

include lined

theorem begins_le {first last : Row} (line : ReflTransGen replaces first last) :
    begins first ≤ begins last := by
  induction line with
  | refl => exact le_refl _
  | tail _ replaced ih => exact le_trans ih (lined.onward replaced)

theorem mem_of_line {first last : Row} (member : first ∈ rows)
    (line : ReflTransGen replaces first last) : last ∈ rows := by
  induction line with
  | refl => exact member
  | tail _ replaced _ => exact (lined.present replaced).2

/-- Of two rows of one line that follow each other, one is in force. -/
theorem eq_of_line {time : Time} {first last : Row} (line : ReflTransGen replaces first last)
    (firstForce : InForce begins replacedAt time first)
    (lastForce : InForce begins replacedAt time last) : first = last := by
  cases line.cases_head with
  | inl same => exact same
  | inr further =>
      obtain ⟨second, replaced, rest⟩ := further
      have before : time < begins second := firstForce.2 _ (lined.handed replaced)
      have after : begins second ≤ time := le_trans (lined.begins_le rest) lastForce.1
      exact absurd after (not_le_of_gt before)

/-- At no time are two rows of one line in force. -/
theorem inForce_unique {time : Time} {root first second : Row}
    (firstLine : ReflTransGen replaces root first)
    (secondLine : ReflTransGen replaces root second)
    (firstForce : InForce begins replacedAt time first)
    (secondForce : InForce begins replacedAt time second) : first = second := by
  have unique : Relator.RightUnique replaces := fun _ _ _ => lined.once
  cases ReflTransGen.total_of_right_unique unique firstLine secondLine with
  | inl line => exact lined.eq_of_line line firstForce secondForce
  | inr line => exact (lined.eq_of_line line secondForce firstForce).symm

/-- From its first row on, some row of a line is in force at every time. -/
theorem exists_inForce {time : Time} {root : Row} (member : root ∈ rows)
    (begun : begins root ≤ time) :
    ∃ row, ReflTransGen replaces root row ∧ InForce begins replacedAt time row := by
  -- Along the line the ranks rise, and they are bounded.
  induction left : rows.length - rank root using Nat.strongRecOn generalizing root with
  | _ bound ih =>
      by_cases inForce : InForce begins replacedAt time root
      · exact ⟨root, .refl, inForce⟩
      · have passed : ∃ moment, replacedAt root = some moment ∧ moment ≤ time := by
          by_contra never
          apply inForce
          constructor
          · exact begun
          · intro moment replaced
            exact lt_of_not_ge fun late => never ⟨moment, replaced, late⟩
        obtain ⟨moment, replaced, late⟩ := passed
        obtain ⟨next, follows⟩ := lined.succeeded member replaced
        have handed : begins next = moment :=
          Option.some.inj ((lined.handed follows).symm.trans replaced)
        have nextMember := (lined.present follows).2
        have fewer : rows.length - rank next < bound := by
          have rises := lined.rising follows
          have within := lined.bounded nextMember
          omega
        obtain ⟨row, line, force⟩ := ih _ fewer nextMember (handed ▸ late) rfl
        exact ⟨row, .head follows line, force⟩

end Lined
end Lineage
