import Mathlib.Data.List.Basic
import Mathlib.Data.List.Flatten

/-
Rounds that each serve so many items, when an item may be served only so often. Nothing here
names a particular scheduler.
-/

namespace Rounds

variable {Item : Type} [DecidableEq Item]

/-- Served out of a list, each at most so often. -/
theorem length_le_of_count_le {served items : List Item} {limit : Nat}
    (within : ∀ item ∈ served, item ∈ items)
    (few : ∀ item ∈ items, served.count item ≤ limit) :
    served.length ≤ items.length * limit := by
  induction items generalizing served with
  | nil =>
      rw [List.eq_nil_iff_forall_not_mem.mpr fun item isIn => nomatch within item isIn]
      exact Nat.zero_le _
  | cons first items ih =>
      have split := List.length_eq_countP_add_countP (fun item => item == first) (l := served)
      have others := @ih (served.filter fun item => !(item == first)) ?_ ?_
      · have here := few first List.mem_cons_self
        rw [List.count] at here
        rw [← List.countP_eq_length_filter] at others
        have same : served.countP (fun item => !(item == first)) =
            served.countP fun item => decide ¬(item == first) = true := by
          congr 1
          funext item
          cases item == first with
          | true => rfl
          | false => rfl
        rw [List.length_cons, Nat.succ_mul]
        omega
      · intro item isIn
        obtain ⟨isServed, other⟩ := List.mem_filter.mp isIn
        rcases List.mem_cons.mp (within item isServed) with same | behind
        · rw [same, beq_self_eq_true] at other
          cases other
        · exact behind
      · intro item isIn
        exact Nat.le_trans (List.filter_sublist.count_le item) (few item (List.mem_cons_of_mem _ isIn))

/-- So many full rounds fit. -/
theorem full_rounds_le {rounds : List (List Item)} {items : List Item} {size limit : Nat}
    (full : ∀ round ∈ rounds, round.length = size)
    (within : ∀ item ∈ rounds.flatten, item ∈ items)
    (few : ∀ item ∈ items, rounds.flatten.count item ≤ limit) (some : 0 < size) :
    rounds.length ≤ items.length * limit / size := by
  have total : rounds.flatten.length = rounds.length * size := by
    rw [List.length_flatten, List.map_congr_left full, List.map_const', List.sum_replicate_nat]
  have bound := length_le_of_count_le within few
  rw [total] at bound
  exact (Nat.le_div_iff_mul_le some).mpr bound

end Rounds
