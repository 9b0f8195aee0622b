import Mathlib.Data.List.Count
import Mathlib.Data.List.Nodup

/-
Items that are recorded, wait in a queue, are under way in a batch and are at
last settled. A batch is the whole queue, and what is not settled of it goes
back in front. Items of one lane are settled together or not at all, so within
a lane the order of recording survives. Nothing here names a particular sender.
-/

namespace Outbox

structure Ledger (Item : Type) where
  recorded : List Item
  settled : List Item
  flying : List Item
  queued : List Item

variable {Item Lane : Type} [DecidableEq Lane]

namespace Ledger

/-- Where the items are, the longest gone first. -/
def standing (ledger : Ledger Item) : List Item :=
  ledger.settled ++ ledger.flying ++ ledger.queued

/-- Lane by lane, what is settled, under way and queued is what was recorded, in order. -/
def InOrder (lane : Item → Lane) (ledger : Ledger Item) : Prop :=
  ∀ one, ledger.standing.filter (fun item => decide (lane item = one)) =
    ledger.recorded.filter fun item => decide (lane item = one)

variable {lane : Item → Lane}

theorem InOrder.record {ledger : Ledger Item} (inOrder : ledger.InOrder lane) (item : Item) :
    { ledger with
      recorded := ledger.recorded ++ [item]
      queued := ledger.queued ++ [item] }.InOrder lane := by
  intro one
  change (ledger.settled ++ ledger.flying ++ (ledger.queued ++ [item])).filter _ =
    (ledger.recorded ++ [item]).filter _
  rw [← List.append_assoc, List.filter_append, @List.filter_append _ _ ledger.recorded,
    ← inOrder one]
  rfl

/-- The queue becomes the batch. -/
theorem InOrder.take {ledger : Ledger Item} (inOrder : ledger.InOrder lane)
    (grounded : ledger.flying = []) :
    { ledger with flying := ledger.queued, queued := [] }.InOrder lane := by
  intro one
  rw [← inOrder one]
  simp only [standing, grounded, List.append_nil]

/-- A batch of which whole lanes are settled; the rest goes back in front. -/
theorem InOrder.settle {ledger : Ledger Item} (inOrder : ledger.InOrder lane)
    (done : Lane → Bool) :
    { ledger with
      settled := ledger.settled ++ ledger.flying.filter fun item => done (lane item)
      flying := []
      queued := (ledger.flying.filter fun item => !done (lane item)) ++
        ledger.queued }.InOrder lane := by
  intro one
  rw [← inOrder one]
  simp only [standing, List.append_nil, List.filter_append, List.filter_filter]
  rw [List.append_assoc, List.append_assoc, ← List.append_assoc (List.filter _ ledger.flying)]
  congr 2
  -- one lane of the batch is settled or not, as a whole
  cases settled : done one with
  | true =>
      have all : ∀ item ∈ ledger.flying,
          (decide (lane item = one) && done (lane item)) = decide (lane item = one) := by
        intro item _
        by_cases same : lane item = one
        · rw [same, settled, Bool.and_true]
        · rw [decide_eq_false same, Bool.false_and]
      have none' : ∀ item ∈ ledger.flying,
          ¬ (decide (lane item = one) && !done (lane item)) = true := by
        intro item _ kept
        rw [Bool.and_eq_true, decide_eq_true_iff] at kept
        rw [kept.1, settled] at kept
        cases kept.2
      rw [List.filter_congr all, List.filter_eq_nil_iff.mpr none', List.append_nil]
  | false =>
      have none' : ∀ item ∈ ledger.flying,
          ¬ (decide (lane item = one) && done (lane item)) = true := by
        intro item _ kept
        rw [Bool.and_eq_true, decide_eq_true_iff] at kept
        rw [kept.1, settled] at kept
        cases kept.2
      have all : ∀ item ∈ ledger.flying,
          (decide (lane item = one) && !done (lane item)) = decide (lane item = one) := by
        intro item _
        by_cases same : lane item = one
        · rw [same, settled, Bool.not_false, Bool.and_true]
        · rw [decide_eq_false same, Bool.false_and]
      rw [List.filter_congr all, List.filter_eq_nil_iff.mpr none', List.nil_append]

/-- In order lane by lane: nothing is lost and nothing is there twice. -/
theorem InOrder.perm [DecidableEq Item] {ledger : Ledger Item} (inOrder : ledger.InOrder lane) :
    ledger.standing.Perm ledger.recorded := by
  rw [List.perm_iff_count]
  intro item
  have sameLane : ∀ items : List Item,
      (items.filter fun other => decide (lane other = lane item)).count item =
        items.count item := by
    intro items
    exact List.count_filter (decide_eq_true rfl)
  rw [← sameLane ledger.standing, inOrder (lane item), sameLane]

/-- Items recorded once each stand in exactly one place. -/
theorem InOrder.nodup [DecidableEq Item] {ledger : Ledger Item} (inOrder : ledger.InOrder lane)
    (distinct : ledger.recorded.Nodup) : ledger.standing.Nodup :=
  inOrder.perm.nodup_iff.mpr distinct

end Ledger
end Outbox
