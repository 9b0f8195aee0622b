import Mathlib.Data.List.Nodup

/-
Walks by their number of steps, and the least rank under which each key was met.
Nothing here names a particular program.
-/

namespace BreadthFirst

/-! ### Walks -/

variable {Node Edge : Type}

/-- From the first node to the second in this many steps along edges that are followed. -/
inductive Walk (follows : Edge → Node → Node → Prop) : Nat → Node → Node → Prop
  | stay (node : Node) : Walk follows 0 node node
  | onward {steps : Nat} {start middle finish : Node} {edge : Edge}
      (walk : Walk follows steps start middle) (followed : follows edge middle finish) :
      Walk follows (steps + 1) start finish

namespace Walk

variable {follows : Edge → Node → Node → Prop}

theorem succ_iff {steps : Nat} {start finish : Node} :
    Walk follows (steps + 1) start finish ↔
      ∃ middle edge, Walk follows steps start middle ∧ follows edge middle finish := by
  constructor
  · intro walk
    cases walk with
    | onward walk followed => exact ⟨_, _, walk, followed⟩
  · intro walk
    obtain ⟨middle, edge, walk, followed⟩ := walk
    exact .onward walk followed

theorem zero_iff {start finish : Node} : Walk follows 0 start finish ↔ start = finish := by
  constructor
  · intro walk
    cases walk
    rfl
  · intro same
    exact same ▸ .stay start

/-- A walk that is not empty has a first step. -/
theorem first_step {steps : Nat} {start finish : Node}
    (walk : Walk follows (steps + 1) start finish) : ∃ edge next, follows edge start next := by
  induction steps generalizing finish with
  | zero =>
      obtain ⟨middle, edge, rest, followed⟩ := succ_iff.mp walk
      exact ⟨edge, finish, zero_iff.mp rest ▸ followed⟩
  | succ steps ih =>
      obtain ⟨middle, edge, rest, _⟩ := succ_iff.mp walk
      exact ih rest

end Walk

/-! ### Least ranks -/

variable {Key : Type} [DecidableEq Key]

/-- A key is noted where it is first met, and its rank lowered where a lower one is met. -/
def noteLeast (known : List (Key × Nat)) (entry : Key × Nat) : List (Key × Nat) :=
  if entry.1 ∈ known.map Prod.fst then
    known.map fun other =>
      if other.1 = entry.1 ∧ entry.2 < other.2 then entry else other
  else known ++ [entry]

def leastRanks (entries : List (Key × Nat)) : List (Key × Nat) :=
  entries.foldl noteLeast []

/-- The keys met, once each, with their least rank. -/
structure LeastOf (entries known : List (Key × Nat)) : Prop where
  distinct : (known.map Prod.fst).Nodup
  complete : ∀ entry ∈ entries, ∃ rank, (entry.1, rank) ∈ known
  met : ∀ entry ∈ known, entry ∈ entries
  least : ∀ entry ∈ known, ∀ rank, (entry.1, rank) ∈ entries → entry.2 ≤ rank

theorem map_fst_lowered (known : List (Key × Nat)) (entry : Key × Nat) :
    (known.map fun other => if other.1 = entry.1 ∧ entry.2 < other.2 then entry else other).map
      Prod.fst = known.map Prod.fst := by
  rw [List.map_map]
  apply List.map_congr_left
  intro other _
  change (if other.1 = entry.1 ∧ entry.2 < other.2 then entry else other).1 = other.1
  split
  next lower => exact lower.1.symm
  next => rfl

theorem LeastOf.note {entries known : List (Key × Nat)} (least : LeastOf entries known)
    (entry : Key × Nat) : LeastOf (entries ++ [entry]) (noteLeast known entry) := by
  by_cases met : entry.1 ∈ known.map Prod.fst
  · rw [noteLeast, if_pos met]
    constructor
    · rw [map_fst_lowered]
      exact least.distinct
    · intro other member
      have isKey : other.1 ∈ known.map Prod.fst := by
        cases List.mem_append.mp member with
        | inl before =>
            obtain ⟨rank, found⟩ := least.complete other before
            exact List.mem_map.mpr ⟨_, found, rfl⟩
        | inr now => exact List.mem_singleton.mp now ▸ met
      rw [← map_fst_lowered known entry] at isKey
      obtain ⟨found, isKnown, same⟩ := List.mem_map.mp isKey
      exact ⟨found.2, same ▸ isKnown⟩
    · intro other member
      obtain ⟨old, isKnown, same⟩ := List.mem_map.mp member
      split at same
      next =>
        rw [← same]
        exact List.mem_append_right _ (List.mem_singleton_self entry)
      next =>
        rw [← same]
        exact List.mem_append_left _ (least.met old isKnown)
    · intro other member rank met
      obtain ⟨old, isKnown, same⟩ := List.mem_map.mp member
      have ranked : ∀ rank, (old.1, rank) ∈ entries → old.2 ≤ rank := least.least old isKnown
      split at same
      next lower =>
        rw [← same] at met ⊢
        cases List.mem_append.mp met with
        | inl before => exact Nat.le_trans (Nat.le_of_lt lower.2) (ranked rank (lower.1 ▸ before))
        | inr now => exact Nat.le_of_eq (congrArg Prod.snd (List.mem_singleton.mp now)).symm
      next notLower =>
        rw [← same] at met ⊢
        cases List.mem_append.mp met with
        | inl before => exact ranked rank before
        | inr now =>
            have isEntry : (old.1, rank) = entry := List.mem_singleton.mp now
            have above : ¬ entry.2 < old.2 := fun lower =>
              notLower ⟨(congrArg Prod.fst isEntry :), lower⟩
            rw [← isEntry] at above
            exact Nat.le_of_not_lt above
  · rw [noteLeast, if_neg met]
    constructor
    · rw [List.map_append, List.map_singleton, List.nodup_append]
      refine ⟨least.distinct, List.nodup_singleton _, ?_⟩
      intro key isKey other isOther same
      rw [List.mem_singleton.mp isOther] at same
      exact met (same ▸ isKey)
    · intro other member
      cases List.mem_append.mp member with
      | inl before =>
          obtain ⟨rank, found⟩ := least.complete other before
          exact ⟨rank, List.mem_append_left _ found⟩
      | inr now =>
          rw [List.mem_singleton.mp now]
          exact ⟨entry.2, List.mem_append_right _ (List.mem_singleton_self _)⟩
    · intro other member
      cases List.mem_append.mp member with
      | inl before => exact List.mem_append_left _ (least.met other before)
      | inr now => exact List.mem_append_right _ now
    · intro other member rank ranked
      cases List.mem_append.mp member with
      | inl before =>
          cases List.mem_append.mp ranked with
          | inl old => exact least.least other before rank old
          | inr now =>
              have same := congrArg Prod.fst (List.mem_singleton.mp now)
              exact absurd (List.mem_map.mpr ⟨other, before, same⟩) met
      | inr now =>
          rw [List.mem_singleton.mp now] at ranked ⊢
          cases List.mem_append.mp ranked with
          | inl old =>
              obtain ⟨known', found⟩ := least.complete (entry.1, rank) old
              exact absurd (List.mem_map.mpr ⟨_, found, rfl⟩) met
          | inr same => exact Nat.le_of_eq (congrArg Prod.snd (List.mem_singleton.mp same)).symm

theorem leastRanks_least (entries : List (Key × Nat)) : LeastOf entries (leastRanks entries) := by
  have noted : ∀ (before rest known : List (Key × Nat)), LeastOf before known →
      LeastOf (before ++ rest) (rest.foldl noteLeast known) := by
    intro before rest
    induction rest generalizing before with
    | nil =>
        intro known least
        rw [List.append_nil]
        exact least
    | cons entry rest ih =>
        intro known least
        have later := ih (before ++ [entry]) _ (least.note entry)
        rw [List.append_assoc, List.singleton_append] at later
        exact later
  apply noted [] entries []
  exact ⟨List.nodup_nil, fun _ member => (nomatch member), fun _ member => (nomatch member),
    fun _ member => (nomatch member)⟩

end BreadthFirst
