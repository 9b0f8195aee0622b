/-
Histories that only grow. A chronicle is a list in which every entry was
admissible given the entries before it, so a fact about all earlier entries is
proved when an entry is added and never revisited.
-/

namespace Chronicle

universe u

variable {Entry : Type u}

/-- Every entry was admissible after the entries that precede it. -/
def Admissible (admits : List Entry → Entry → Prop) (history : List Entry) : Prop :=
  ∀ before entry after, history = before ++ entry :: after → admits before entry

variable {admits : List Entry → Entry → Prop}

theorem admissible_nil : Admissible admits [] := by
  intro before entry after split
  have lengths := congrArg List.length split
  simp at lengths

theorem admissible_append_one {history : List Entry} {entry : Entry}
    (prior : Admissible admits history) (admitted : admits history entry) :
    Admissible admits (history ++ [entry]) := by
  intro before found after split
  rcases List.eq_nil_or_concat after with rfl | ⟨front, last, rfl⟩
  · obtain ⟨sameBefore, sameEntry⟩ := List.append_inj' split rfl
    cases sameEntry
    exact sameBefore ▸ admitted
  · have regrouped : history ++ [entry] = (before ++ found :: front) ++ [last] := by
      simpa using split
    obtain ⟨sameBefore, _⟩ := List.append_inj' regrouped rfl
    exact prior before found front sameBefore

/-- The entries a longer history adds to a shorter one satisfy a property. -/
def Extends (property : Entry → Prop) (history longer : List Entry) : Prop :=
  ∃ added, longer = history ++ added ∧ ∀ entry ∈ added, property entry

theorem Extends.refl (property : Entry → Prop) (history : List Entry) :
    Extends property history history :=
  ⟨[], (List.append_nil history).symm, fun _ member => nomatch member⟩

theorem Extends.append {property : Entry → Prop} {history longer : List Entry}
    (extended : Extends property history longer) {added : List Entry}
    (holds : ∀ entry ∈ added, property entry) :
    Extends property history (longer ++ added) := by
  obtain ⟨front, rfl, frontHolds⟩ := extended
  refine ⟨front ++ added, List.append_assoc history front added, ?_⟩
  intro entry member
  rcases List.mem_append.mp member with inFront | inAdded
  · exact frontHolds entry inFront
  · exact holds entry inAdded

end Chronicle
