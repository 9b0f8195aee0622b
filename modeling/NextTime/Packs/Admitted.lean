import NextTime.Packs.LeavingOut

/-
Which extra packs belong in the registry, and when these are the ones it admits.
-/

namespace NextTime.Packs

open OwnProperties (assign)
open Relation (ReflTransGen TransGen)

section
variable (builtin loaded : List PackEntry)

/-- The pack of a name: the platform's, or an extra one that loaded. -/
def packOf (name : JsString) : Option PackEntry := (get builtin name).or (get loaded name)

/-- The pack of the name is the platform's or shares no component, has each pack it requires
in the version named, and lies on no cycle. -/
def Stands (name : JsString) : Prop :=
  ∃ target, packOf builtin loaded name = some target ∧
    (target ∈ builtin ∨ Alone builtin loaded target) ∧
    (∀ required ∈ target.requirements, Meets (packOf builtin loaded) required) ∧
    ¬TransGen (Requires (builtin ++ loaded)) name name

/-- The extra pack loaded, is alone in what it publishes, and no chain of requirements leads
from it to a pack that does not stand. -/
structure Belongs (entry : PackEntry) : Prop where
  loads : entry ∈ loaded
  alone : Alone builtin loaded entry
  chain : ∀ name, ReflTransGen (Requires (builtin ++ loaded)) entry.name name →
    Stands builtin loaded name

end

section
variable {builtin loaded : List PackEntry}

theorem findKept_some {skipped : Skipped} {name : JsString} {target : PackEntry} :
    findKept builtin loaded skipped name = some target ↔
      packOf builtin loaded name = some target ∧ ¬skipped.has name = true := by
  unfold findKept packOf
  cases (get builtin name).or (get loaded name) with
  | none => simp
  | some held =>
      simp only
      split
      next left => simp [left]
      next kept => simp [kept]

theorem packOf_builtin {name : JsString} {entry : PackEntry}
    (found : get builtin name = some entry) : packOf builtin loaded name = some entry := by
  rw [packOf, found]
  rfl

theorem packOf_loaded {name : JsString} (free : get builtin name = none) :
    packOf builtin loaded name = get loaded name := by
  rw [packOf, free]
  rfl

theorem Requires.mono {entries others : List PackEntry} (among : entries ⊆ others) :
    Requires entries ≤ Requires others := by
  intro name next requires
  obtain ⟨entry, isIn, rest⟩ := requires
  exact ⟨entry, among isIn, rest⟩

/-! ### The names a chain can come to -/

/-- The extra packs are named apart from the platform's. -/
structure Apart (builtin loaded : List PackEntry) : Prop where
  shippedNames : (builtin.map PackEntry.name).Nodup
  extraNames : (loaded.map PackEntry.name).Nodup
  free : ∀ entry ∈ loaded, get builtin entry.name = none

theorem Apart.requires_builtin (apart : Apart builtin loaded) {name next : JsString}
    (shipped : (get builtin name).isSome = true) (requires : Requires (builtin ++ loaded) name next) :
    Requires builtin name next := by
  obtain ⟨entry, isIn, named, isNext⟩ := requires
  rcases List.mem_append.mp isIn with isBuiltin | isLoaded
  · exact ⟨entry, isBuiltin, named, isNext⟩
  · rw [← named, apart.free entry isLoaded] at shipped
    cases shipped

theorem Apart.requires_kept (apart : Apart builtin loaded) {skipped : Skipped}
    {entry : PackEntry} (isKept : entry ∈ keptOf loaded skipped) {next : JsString}
    (requires : Requires (builtin ++ loaded) entry.name next) :
    ∃ required ∈ entry.requirements, required.name = next := by
  have isLoaded := (mem_keptOf.mp isKept).1
  obtain ⟨other, isIn, named, isNext⟩ := requires
  rcases List.mem_append.mp isIn with isBuiltin | isOther
  · have shipped := get_isSome_iff.mpr ⟨other, isBuiltin, named⟩
    rw [apart.free entry isLoaded] at shipped
    cases shipped
  · rw [List.inj_on_of_nodup_map apart.extraNames isOther isLoaded named] at isNext
    exact isNext

/-- The names of the registry's packs. -/
def Held (builtin loaded : List PackEntry) (skipped : Skipped) (name : JsString) : Prop :=
  (get builtin name).isSome = true ∨ ∃ entry ∈ keptOf loaded skipped, entry.name = name

theorem builtin_requires (rules : KeepsRules builtin) {name next : JsString}
    (requires : Requires builtin name next) : (get builtin next).isSome = true := by
  obtain ⟨entry, isIn, _, required, isRequired, named⟩ := requires
  obtain ⟨target, found, _⟩ := rules.requirements entry isIn required isRequired
  rw [← named, found]
  rfl

theorem builtin_chain (apart : Apart builtin loaded) (rules : KeepsRules builtin)
    {name last : JsString} (shipped : (get builtin name).isSome = true)
    (walk : TransGen (Requires (builtin ++ loaded)) name last) :
    TransGen (Requires builtin) name last ∧ (get builtin last).isSome = true := by
  induction walk with
  | single requires =>
      have here := apart.requires_builtin shipped requires
      exact ⟨.single here, builtin_requires rules here⟩
  | tail _ requires ih =>
      have here := apart.requires_builtin ih.2 requires
      exact ⟨ih.1.tail here, builtin_requires rules here⟩

variable {skipped : Skipped}

/-- What a kept pack requires is in the registry. -/
theorem Settled.requires (settled : Settled builtin loaded skipped) (apart : Apart builtin loaded)
    {entry : PackEntry} (isKept : entry ∈ keptOf loaded skipped) {next : JsString}
    (requires : Requires (builtin ++ loaded) entry.name next) : Held builtin loaded skipped next := by
  obtain ⟨required, isRequired, named⟩ := apart.requires_kept isKept requires
  obtain ⟨target, found, _⟩ := settled.met entry isKept required isRequired
  rw [named] at found
  obtain ⟨here, kept⟩ := findKept_some.mp found
  cases shipped : get builtin next with
  | some held => exact .inl (shipped ▸ rfl)
  | none =>
      rw [packOf_loaded shipped] at here
      obtain ⟨isLoaded, called⟩ := get_some here
      exact .inr ⟨target, mem_keptOf.mpr ⟨isLoaded, called ▸ kept⟩, called⟩

theorem Settled.held_chain (settled : Settled builtin loaded skipped)
    (apart : Apart builtin loaded) (rules : KeepsRules builtin) {name last : JsString}
    (held : Held builtin loaded skipped name)
    (walk : ReflTransGen (Requires (builtin ++ loaded)) name last) :
    Held builtin loaded skipped last := by
  induction walk with
  | refl => exact held
  | tail _ requires ih =>
      rcases ih with shipped | ⟨entry, isKept, named⟩
      · exact .inl (builtin_requires rules (apart.requires_builtin shipped requires))
      · exact settled.requires apart isKept (named ▸ requires)

/-- A chain from a kept pack stays among the kept packs until it comes to the platform's. -/
theorem Settled.kept_chain (settled : Settled builtin loaded skipped)
    (apart : Apart builtin loaded) (rules : KeepsRules builtin) {entry : PackEntry}
    (isKept : entry ∈ keptOf loaded skipped) {last : JsString}
    (walk : TransGen (Requires (builtin ++ loaded)) entry.name last) :
    (get builtin last).isSome = true ∨
      TransGen (Requires (keptOf loaded skipped)) entry.name last := by
  induction walk with
  | single requires =>
      exact .inr (.single ⟨entry, isKept, rfl, apart.requires_kept isKept requires⟩)
  | @tail middle last before requires ih =>
      rcases settled.held_chain apart rules (.inr ⟨entry, isKept, rfl⟩) before.to_reflTransGen
        with shipped | ⟨other, isOther, named⟩
      · exact .inl (builtin_requires rules (apart.requires_builtin shipped requires))
      · rcases ih with shipped | among
        · exact .inl (builtin_requires rules (apart.requires_builtin shipped requires))
        · have isNext := apart.requires_kept isOther (named ▸ requires)
          exact .inr (among.tail ⟨other, isOther, named, isNext⟩)

theorem Settled.acyclic_here (settled : Settled builtin loaded skipped)
    (apart : Apart builtin loaded) (rules : KeepsRules builtin) {name : JsString}
    (held : Held builtin loaded skipped name) :
    ¬TransGen (Requires (builtin ++ loaded)) name name := by
  intro back
  rcases held with shipped | ⟨entry, isKept, named⟩
  · exact rules.acyclic name (builtin_chain apart rules shipped back).1
  · rw [← named] at back
    rcases settled.kept_chain apart rules isKept back with shipped | among
    · rw [apart.free entry (mem_keptOf.mp isKept).1] at shipped
      cases shipped
    · exact settled.acyclic entry.name among

theorem Meets.mono {find other : JsString → Option PackEntry}
    (more : ∀ name target, find name = some target → other name = some target)
    {required : PackRequirement} (meets : Meets find required) : Meets other required := by
  obtain ⟨target, found, enough⟩ := meets
  exact ⟨target, more _ _ found, enough⟩

theorem Settled.stands (settled : Settled builtin loaded skipped) (apart : Apart builtin loaded)
    (rules : KeepsRules builtin)
    (alone : ∀ entry ∈ keptOf loaded skipped, Alone builtin loaded entry) {name : JsString}
    (held : Held builtin loaded skipped name) : Stands builtin loaded name := by
  have acyclic := settled.acyclic_here apart rules held
  rcases held with shipped | ⟨entry, isKept, named⟩
  · obtain ⟨target, found⟩ := Option.isSome_iff_exists.mp shipped
    obtain ⟨isBuiltin, _⟩ := get_some found
    refine ⟨target, packOf_builtin found, .inl isBuiltin, ?_, acyclic⟩
    intro required isRequired
    exact (rules.requirements target isBuiltin required isRequired).mono
      (fun _ _ => packOf_builtin)
  · have isLoaded := (mem_keptOf.mp isKept).1
    refine ⟨entry, ?_, .inr (alone entry isKept), ?_, acyclic⟩
    · rw [← named, packOf_loaded (apart.free entry isLoaded)]
      exact get_of_mem apart.extraNames isLoaded
    · intro required isRequired
      exact (settled.met entry isKept required isRequired).mono
        (fun _ _ found => (findKept_some.mp found).1)

/-- Every pack that is kept belongs. -/
theorem Settled.belongs (settled : Settled builtin loaded skipped) (apart : Apart builtin loaded)
    (rules : KeepsRules builtin)
    (alone : ∀ entry ∈ keptOf loaded skipped, Alone builtin loaded entry) {entry : PackEntry}
    (isKept : entry ∈ keptOf loaded skipped) : Belongs builtin loaded entry := by
  refine ⟨(mem_keptOf.mp isKept).1, alone entry isKept, ?_⟩
  intro name walk
  apply settled.stands apart rules alone
  exact settled.held_chain apart rules (.inr ⟨entry, isKept, rfl⟩) walk

/-- The platform's packs and those kept make a registry that keeps the rules. -/
theorem Settled.keepsRules (settled : Settled builtin loaded skipped)
    (apart : Apart builtin loaded) (rules : KeepsRules builtin)
    (alone : ∀ entry ∈ keptOf loaded skipped, Alone builtin loaded entry) :
    KeepsRules (builtin ++ keptOf loaded skipped) := by
  have names : ((builtin ++ keptOf loaded skipped).map PackEntry.name).Nodup := by
    rw [List.map_append]
    apply List.Nodup.append apart.shippedNames (nodup_keptOf apart.extraNames skipped)
    intro name isBuiltin isExtra
    obtain ⟨shipped, isShipped, called⟩ := List.mem_map.mp isBuiltin
    obtain ⟨entry, isKept, named⟩ := List.mem_map.mp isExtra
    have found := get_isSome_iff.mpr ⟨shipped, isShipped, called⟩
    rw [← named, apart.free entry (mem_keptOf.mp isKept).1] at found
    cases found
  have among : builtin ++ keptOf loaded skipped ⊆ builtin ++ loaded :=
    List.append_subset.mpr ⟨List.subset_append_left _ _,
      fun _ isKept => List.mem_append_right _ (mem_keptOf.mp isKept).1⟩
  have found (name : JsString) (target : PackEntry)
      (isKept : findKept builtin loaded skipped name = some target) :
      get (builtin ++ keptOf loaded skipped) name = some target := by
    obtain ⟨here, kept⟩ := findKept_some.mp isKept
    cases shipped : get builtin name with
    | some held =>
        rw [packOf_builtin shipped] at here
        obtain ⟨isIn, named⟩ := get_some shipped
        rw [← named, get_of_mem names (List.mem_append_left _ isIn)]
        exact here
    | none =>
        rw [packOf_loaded shipped] at here
        obtain ⟨isIn, named⟩ := get_some here
        have stays := mem_keptOf.mpr ⟨isIn, named ▸ kept⟩
        rw [← named, get_of_mem names (List.mem_append_right _ stays)]
  constructor
  · exact names
  · intro one isOne other isOther key inOne inOther
    rcases List.mem_append.mp isOne with oneShipped | oneKept
    · rcases List.mem_append.mp isOther with otherShipped | otherKept
      · exact rules.components one oneShipped other otherShipped key inOne inOther
      · exact absurd inOne ((alone other otherKept key inOther).1 one oneShipped)
    · rcases List.mem_append.mp isOther with otherShipped | otherKept
      · exact absurd inOther ((alone one oneKept key inOne).1 other otherShipped)
      · have isLoaded := (mem_keptOf.mp otherKept).1
        exact ((alone one oneKept key inOne).2 other isLoaded inOther).symm
  · intro entry isIn required isRequired
    rcases List.mem_append.mp isIn with shipped | isKept
    · obtain ⟨target, here, enough⟩ := rules.requirements entry shipped required isRequired
      obtain ⟨isTarget, named⟩ := get_some here
      refine ⟨target, ?_, enough⟩
      rw [← named, get_of_mem names (List.mem_append_left _ isTarget)]
    · exact (settled.met entry isKept required isRequired).mono found
  · intro name back
    obtain ⟨_, ⟨entry, isIn, named, _⟩, _⟩ := TransGen.head'_iff.mp back
    have held : Held builtin loaded skipped name := by
      rcases List.mem_append.mp isIn with shipped | isKept
      · exact .inl (get_isSome_iff.mpr ⟨entry, shipped, named⟩)
      · exact .inr ⟨entry, isKept, named⟩
    exact settled.acyclic_here apart rules held (TransGen.mono (Requires.mono among) _ _ back)

end

end NextTime.Packs
