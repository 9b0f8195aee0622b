import NextTime.Packs.Clashes

/-
The rounds in which packs are left out for what they require: what one round can do, and what
holds when there is no further one.
-/

namespace NextTime.Packs

open OwnProperties (assign)
open Relation (ReflTransGen TransGen)

theorem mem_keptOf {loaded : List PackEntry} {skipped : Skipped} {entry : PackEntry} :
    entry ∈ keptOf loaded skipped ↔ entry ∈ loaded ∧ ¬skipped.has entry.name = true := by
  rw [keptOf, List.mem_filter, Bool.not_eq_true']
  exact and_congr_right (fun _ => Bool.not_eq_true _ ▸ Iff.rfl)

theorem nodup_keptOf {loaded : List PackEntry} (distinct : (loaded.map PackEntry.name).Nodup)
    (skipped : Skipped) : ((keptOf loaded skipped).map PackEntry.name).Nodup :=
  List.Nodup.sublist (List.filter_sublist.map PackEntry.name) distinct

/-! ### One round -/

/-- The packs are left out, each with its reason. -/
def leaveAll (skipped : Skipped) (newly : List (JsString × SkipReason)) : Skipped :=
  newly.foldl (fun skipped unmet => assign unmet.1 unmet.2 skipped) skipped

theorem leaveAll_has {newly : List (JsString × SkipReason)} {name : JsString} :
    ∀ {skipped : Skipped}, (leaveAll skipped newly).has name = true ↔
      skipped.has name = true ∨ ∃ unmet ∈ newly, unmet.1 = name := by
  induction newly with
  | nil => simp [leaveAll]
  | cons unmet newly ih =>
      intro skipped
      unfold leaveAll at ih ⊢
      rw [List.foldl_cons, ih, has_assign]
      simp only [List.mem_cons, exists_eq_or_imp]
      rw [← or_assoc]
      apply or_congr_left
      rw [or_comm]
      exact or_congr_right ⟨Eq.symm, Eq.symm⟩

section
variable (builtin loaded : List PackEntry)

/-- The pack kept under the name requires one that is not here, or lies on a cycle. -/
def Broken (skipped : Skipped) (name : JsString) : Prop :=
  (∃ entry ∈ keptOf loaded skipped, entry.name = name ∧ ∃ required ∈ entry.requirements,
    ¬Meets (findKept builtin loaded skipped) required) ∨
  TransGen (Requires (keptOf loaded skipped)) name name

/-- Every pack that is kept has what it requires, and none is on a cycle. -/
structure Settled (skipped : Skipped) : Prop where
  met : ∀ entry ∈ keptOf loaded skipped, ∀ required ∈ entry.requirements,
    Meets (findKept builtin loaded skipped) required
  acyclic : ∀ name, ¬TransGen (Requires (keptOf loaded skipped)) name name

end

section
variable {builtin loaded : List PackEntry}

theorem Broken.kept {skipped : Skipped} {name : JsString}
    (broken : Broken builtin loaded skipped name) :
    ∃ entry ∈ keptOf loaded skipped, entry.name = name := by
  rcases broken with ⟨entry, isKept, named, _⟩ | back
  · exact ⟨entry, isKept, named⟩
  · obtain ⟨_, ⟨entry, isKept, named, _⟩, _⟩ := TransGen.head'_iff.mp back
    exact ⟨entry, isKept, named⟩

theorem broken_of_unmetOf {skipped : Skipped} {unmet : JsString × SkipReason}
    (isUnmet : unmet ∈ unmetOf builtin loaded skipped) :
    Broken builtin loaded skipped unmet.1 := by
  obtain ⟨entry, isKept, isReason⟩ := List.mem_filterMap.mp isUnmet
  obtain ⟨reason, found, isPair⟩ := Option.map_eq_some_iff.mp isReason
  left
  refine ⟨entry, isKept, congrArg Prod.fst isPair, ?_⟩
  have notMet := mt unmetRequirement_eq_none_iff.mpr (Option.ne_none_iff_exists'.mpr ⟨reason, found⟩)
  simpa only [not_forall, exists_prop] using notMet

theorem unmetOf_nil {skipped : Skipped} (none : unmetOf builtin loaded skipped = []) :
    ∀ entry ∈ keptOf loaded skipped, ∀ required ∈ entry.requirements,
      Meets (findKept builtin loaded skipped) required := by
  intro entry isKept
  apply unmetRequirement_eq_none_iff.mp
  have here := List.filterMap_eq_nil_iff.mp none entry isKept
  exact Option.map_eq_none_iff.mp here

/-- What a round does: it ends the loop where nothing is broken, or leaves broken packs out. -/
theorem leaveOut_round (distinct : (loaded.map PackEntry.name).Nodup) (fuel : Nat)
    (skipped : Skipped) :
    (Settled builtin loaded skipped ∧ leaveOut builtin loaded (fuel + 1) skipped = some skipped) ∨
    ∃ newly, newly ≠ [] ∧ (∀ unmet ∈ newly, Broken builtin loaded skipped unmet.1) ∧
      leaveOut builtin loaded (fuel + 1) skipped =
        leaveOut builtin loaded fuel (leaveAll skipped newly) := by
  rw [leaveOut]
  cases found : unmetOf builtin loaded skipped with
  | cons first rest =>
      right
      refine ⟨first :: rest, List.cons_ne_nil first rest, ?_, rfl⟩
      intro unmet isUnmet
      exact broken_of_unmetOf (found ▸ isUnmet)
  | nil =>
      have keptDistinct := nodup_keptOf distinct skipped
      cases searched : requirementCycle (keptOf loaded skipped) with
      | none => exact absurd searched (requirementCycle_returns _)
      | some cycle =>
          cases cycle with
          | none =>
              left
              exact ⟨⟨unmetOf_nil found, requirementCycle_none keptDistinct searched⟩, rfl⟩
          | some cycle =>
              obtain ⟨isSome, around⟩ := requirementCycle_some keptDistinct searched
              right
              refine ⟨cycle.dropLast.map fun name => (name, .cycle cycle), ?_, ?_, ?_⟩
              · exact mt List.map_eq_nil_iff.mp isSome
              · intro unmet isUnmet
                obtain ⟨name, isName, isPair⟩ := List.mem_map.mp isUnmet
                rw [← isPair]
                exact .inr (around name (List.dropLast_subset cycle isName))
              · rw [leaveAll, List.foldl_map]

/-! ### All of them -/

/-- What holds before the rounds and is kept by each holds in the end, where nothing is broken. -/
theorem leaveOut_keeps (distinct : (loaded.map PackEntry.name).Nodup) (Holds : Skipped → Prop)
    (round : ∀ skipped newly, (∀ unmet ∈ newly, Broken builtin loaded skipped unmet.1) →
      Holds skipped → Holds (leaveAll skipped newly)) {final : Skipped} :
    ∀ {fuel : Nat} {skipped : Skipped}, Holds skipped →
      leaveOut builtin loaded fuel skipped = some final →
        Holds final ∧ Settled builtin loaded final := by
  intro fuel
  induction fuel with
  | zero =>
      intro skipped _ out
      cases out
  | succ fuel ih =>
      intro skipped holds out
      rcases leaveOut_round distinct fuel skipped with ⟨settled, last⟩ | ⟨newly, _, broken, next⟩
      · rw [last, Option.some.injEq] at out
        rw [← out]
        exact ⟨holds, settled⟩
      · rw [next] at out
        exact ih (round skipped newly broken holds) out

/-- A round leaves fewer packs. -/
theorem keptOf_leaveAll_lt {skipped : Skipped} {newly : List (JsString × SkipReason)}
    (isSome : newly ≠ []) (broken : ∀ unmet ∈ newly, Broken builtin loaded skipped unmet.1) :
    (keptOf loaded (leaveAll skipped newly)).length < (keptOf loaded skipped).length := by
  obtain ⟨unmet, isNew⟩ := List.exists_mem_of_ne_nil newly isSome
  obtain ⟨entry, isKept, named⟩ := (broken unmet isNew).kept
  have fewer : keptOf loaded (leaveAll skipped newly) =
      (keptOf loaded skipped).filter fun entry => !(leaveAll skipped newly).has entry.name := by
    rw [keptOf, keptOf, List.filter_filter]
    apply List.filter_congr
    intro other _
    by_cases before : skipped.has other.name = true
    · have now := leaveAll_has.mpr (.inl before : _ ∨ ∃ unmet ∈ newly, unmet.1 = other.name)
      rw [now]
      rfl
    · rw [Bool.eq_false_of_not_eq_true before, Bool.not_false, Bool.and_true]
  rw [fewer]
  apply List.length_filter_lt_length_iff_exists.mpr
  refine ⟨entry, isKept, ?_⟩
  rw [named, leaveAll_has.mpr (.inr ⟨unmet, isNew, rfl⟩)]
  exact Bool.false_ne_true

theorem leaveOut_returns (distinct : (loaded.map PackEntry.name).Nodup) :
    ∀ {fuel : Nat} {skipped : Skipped}, (keptOf loaded skipped).length < fuel →
      ∃ final, leaveOut builtin loaded fuel skipped = some final := by
  intro fuel
  induction fuel with
  | zero =>
      intro skipped enough
      cases enough
  | succ fuel ih =>
      intro skipped enough
      rcases leaveOut_round distinct fuel skipped with ⟨_, last⟩ | ⟨newly, isSome, broken, next⟩
      · exact ⟨skipped, last⟩
      · have fewer := keptOf_leaveAll_lt isSome broken
        rw [next]
        apply ih
        omega

end

end NextTime.Packs
