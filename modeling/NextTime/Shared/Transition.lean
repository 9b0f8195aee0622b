/-
The transition tables every state machine of the platform is driven by: a list
of edges, and the one function that looks an edge up.
-/

namespace NextTime.Shared

/-- `transition`: the target of the edge, or none where it throws `IllegalTransition`. -/
def transition {Status Event : Type} [BEq Status] [BEq Event]
    (edges : List (Status × Event × Status)) (status : Status) (event : Event) : Option Status :=
  (edges.find? fun edge => edge.1 == status && edge.2.1 == event).map (·.2.2)

theorem transition_mem {Status Event : Type} [BEq Status] [LawfulBEq Status] [BEq Event]
    [LawfulBEq Event] {edges : List (Status × Event × Status)} {status next : Status}
    {event : Event} (moved : transition edges status event = some next) :
    (status, event, next) ∈ edges := by
  obtain ⟨⟨origin, label, target⟩, found, rfl⟩ := Option.map_eq_some_iff.mp moved
  have matched := List.find?_some found
  simp only [Bool.and_eq_true, beq_iff_eq] at matched
  obtain ⟨rfl, rfl⟩ := matched
  exact List.mem_of_find?_eq_some found

end NextTime.Shared
