import NextTime.Packs.Requirements

/-
The rules a registry of packs keeps, and that the platform's packs keep them once read.
-/

namespace NextTime.Packs

open OwnProperties (assign)
open Relation (ReflTransGen TransGen)

/-! ### The registry's rules -/

/-- Every component in one pack, every requirement met, and no cycle of them. -/
structure KeepsRules (registry : List PackEntry) : Prop where
  names : (registry.map PackEntry.name).Nodup
  components : ∀ one ∈ registry, ∀ other ∈ registry, ∀ key ∈ componentKeysOf one,
    key ∈ componentKeysOf other → one.name = other.name
  requirements : ∀ entry ∈ registry, ∀ required ∈ entry.requirements,
    Meets (get registry) required
  acyclic : ∀ name, ¬TransGen (Requires registry) name name

/-- The owners of the keys claimed so far. -/
def Owned (owners : List (JsString × JsString)) (claims : List (JsString × JsString)) : Prop :=
  ∀ key name, owners.lookup key = some name ↔ (name, key) ∈ claims

theorem Owned.claim {owners next claims : List (JsString × JsString)} (owned : Owned owners claims)
    {name key : JsString} (claimed : claimKey name owners key = .ok next) :
    Owned next (claims ++ [(name, key)]) := by
  have isNext : next = assign key name owners ∧ ∀ owner, owners.lookup key = some owner →
      owner = name := by
    unfold claimKey at claimed
    split at claimed
    next owner found =>
      split at claimed
      next => cases claimed
      next same =>
        refine ⟨(Except.ok.inj claimed).symm, ?_⟩
        intro other isOther
        rw [found, Option.some.injEq] at isOther
        rw [← isOther]
        exact not_not.mp same
    next free =>
      refine ⟨(Except.ok.inj claimed).symm, ?_⟩
      intro other isOther
      rw [free] at isOther
      cases isOther
  obtain ⟨isNext, same⟩ := isNext
  intro other owner
  rw [isNext, List.mem_append, List.mem_singleton, Prod.mk.injEq]
  by_cases here : other = key
  · rw [here, JsValue.lookup_assign_same, Option.some.injEq]
    constructor
    · exact fun isName => .inr ⟨isName.symm, rfl⟩
    · intro either
      rcases either with before | isNew
      · exact (same owner ((owned key owner).mpr before)).symm
      · exact isNew.1.symm
  · rw [JsValue.lookup_assign_other here, owned]
    simp [here]

theorem Owned.claimAll {name : JsString} {keys : List JsString} :
    ∀ {owners next claims : List (JsString × JsString)}, Owned owners claims →
      keys.foldlM (claimKey name) owners = .ok next →
        Owned next (claims ++ keys.map fun key => (name, key)) := by
  induction keys with
  | nil =>
      intro owners next claims owned claimed
      rw [← Except.ok.inj claimed, List.map_nil, List.append_nil]
      exact owned
  | cons key keys ih =>
      intro owners next claims owned claimed
      rw [List.foldlM_cons] at claimed
      cases first : claimKey name owners key with
      | error => rw [first] at claimed; cases claimed
      | ok after =>
          rw [first] at claimed
          have rest := ih (owned.claim first) claimed
          rwa [List.append_assoc, List.singleton_append, ← List.map_cons] at rest

/-- Every component of the entries, with the pack it is of. -/
def componentsOf (entries : List PackEntry) : List (JsString × JsString) :=
  entries.flatMap fun entry => entry.components.map fun key => (entry.name, key)

theorem Owned.claimEntries {entries : List PackEntry} :
    ∀ {owners next claims : List (JsString × JsString)}, Owned owners claims →
      entries.foldlM claimComponents owners = .ok next →
        Owned next (claims ++ componentsOf entries) := by
  induction entries with
  | nil =>
      intro owners next claims owned claimed
      rw [← Except.ok.inj claimed, componentsOf, List.flatMap_nil, List.append_nil]
      exact owned
  | cons entry entries ih =>
      intro owners next claims owned claimed
      rw [List.foldlM_cons] at claimed
      cases first : claimComponents owners entry with
      | error => rw [first] at claimed; cases claimed
      | ok after =>
          rw [first] at claimed
          have rest := ih (owned.claimAll first) claimed
          rw [List.append_assoc] at rest
          exact rest

theorem mem_componentsOf {entries : List PackEntry} {name key : JsString} :
    (name, key) ∈ componentsOf entries ↔
      ∃ entry ∈ entries, entry.name = name ∧ key ∈ componentKeysOf entry := by
  unfold componentsOf componentKeysOf
  simp only [List.mem_flatMap, List.mem_map, Prod.mk.injEq, List.mem_eraseDups]
  constructor
  · rintro ⟨entry, isIn, held, isHeld, named, isKey⟩
    exact ⟨entry, isIn, named, isKey ▸ isHeld⟩
  · rintro ⟨entry, isIn, named, isHeld⟩
    exact ⟨entry, isIn, key, isHeld, named, rfl⟩

theorem assertPackRequirements_ok {registry : List PackEntry}
    (distinct : (registry.map PackEntry.name).Nodup)
    (asserted : assertPackRequirements registry = .ok ()) :
    (∀ entry ∈ registry, ∀ required ∈ entry.requirements, Meets (get registry) required) ∧
      ∀ name, ¬TransGen (Requires registry) name name := by
  unfold assertPackRequirements at asserted
  split at asserted
  next => cases asserted
  next met =>
    constructor
    · intro entry isIn
      have here := List.findSome?_eq_none_iff.mp met entry isIn
      rw [Option.map_eq_none_iff] at here
      exact unmetRequirement_eq_none_iff.mp here
    · split at asserted
      next => cases asserted
      next => cases asserted
      next searched => exact requirementCycle_none distinct searched

/-- What the platform's packs keep once they are read. -/
theorem readBuiltin_ok {builtin : List PackEntry} {owners : List (JsString × JsString)}
    (distinct : (builtin.map PackEntry.name).Nodup) (read : readBuiltin builtin = .ok owners) :
    KeepsRules builtin ∧ Owned owners (componentsOf builtin) := by
  unfold readBuiltin at read
  cases claimed : builtin.foldlM claimComponents [] with
  | error => rw [claimed] at read; cases read
  | ok held =>
      rw [claimed] at read
      cases asserted : assertPackRequirements builtin with
      | error =>
          change (assertPackRequirements builtin).bind _ = _ at read
          rw [asserted] at read
          cases read
      | ok =>
          change (assertPackRequirements builtin).bind _ = _ at read
          rw [asserted] at read
          have isOwners : held = owners := Except.ok.inj read
          have none : Owned [] [] := by
            intro key name
            exact iff_of_false (fun found => nomatch found) (fun isIn => nomatch isIn)
          have owned := none.claimEntries claimed
          rw [List.nil_append, isOwners] at owned
          obtain ⟨met, acyclic⟩ := assertPackRequirements_ok distinct asserted
          refine ⟨⟨distinct, ?_, met, acyclic⟩, owned⟩
          intro one isOne other isOther key inOne inOther
          have first := (owned key one.name).mpr (mem_componentsOf.mpr ⟨one, isOne, rfl, inOne⟩)
          rw [(owned key other.name).mpr (mem_componentsOf.mpr ⟨other, isOther, rfl, inOther⟩)]
            at first
          exact (Option.some.inj first).symm

end NextTime.Packs
