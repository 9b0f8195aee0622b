import NextTime.Packs.Registry
import NextTime.Library.JsObject

/-
What the registry's tests say: of a requirement, of a cycle of them, and of the components
of the platform's packs.
-/

namespace NextTime.Packs

open OwnProperties (assign)
open Relation (ReflTransGen TransGen)

/-! ### Packs by name -/

theorem get_some {registry : List PackEntry} {name : JsString} {entry : PackEntry}
    (found : get registry name = some entry) : entry ∈ registry ∧ entry.name = name := by
  have named := List.find?_some found
  exact ⟨List.mem_of_find?_eq_some found, beq_iff_eq.mp named⟩

theorem get_isSome_iff {registry : List PackEntry} {name : JsString} :
    (get registry name).isSome = true ↔ ∃ entry ∈ registry, entry.name = name := by
  rw [get, List.find?_isSome]
  simp only [beq_iff_eq]

theorem get_of_mem {registry : List PackEntry}
    (distinct : (registry.map PackEntry.name).Nodup) {entry : PackEntry}
    (isIn : entry ∈ registry) : get registry entry.name = some entry := by
  obtain ⟨held, found⟩ := Option.isSome_iff_exists.mp (get_isSome_iff.mpr ⟨entry, isIn, rfl⟩)
  obtain ⟨isHeld, named⟩ := get_some found
  rw [found, List.inj_on_of_nodup_map distinct isHeld isIn named]

theorem has_assign {skipped : Skipped} {name other : JsString} {reason : SkipReason} :
    Skipped.has (assign name reason skipped) other = true ↔
      other = name ∨ skipped.has other = true := by
  unfold Skipped.has
  by_cases same : other = name
  · rw [same, JsValue.lookup_assign_same]
    simp
  · rw [JsValue.lookup_assign_other same]
    simp [same]

/-- One order for the same names. -/
theorem sortNames_eq_of_perm {names others : List JsString} (perm : names.Perm others) :
    sortNames names = sortNames others := by
  apply List.Perm.eq_of_pairwise
  · exact fun _ _ _ _ before behind => List.le_antisymm before behind
  · exact List.pairwise_insertionSort _ names
  · exact List.pairwise_insertionSort _ others
  · exact (List.perm_insertionSort _ names).trans
      (perm.trans (List.perm_insertionSort _ others).symm)

/-! ### One requirement -/

/-- The pack of the name is there, in the version named. -/
def Meets (find : JsString → Option PackEntry) (required : PackRequirement) : Prop :=
  ∃ target, find required.name = some target ∧ required.minVersion ≤ target.versions.length

theorem unmetRequirement_eq_none_iff {entry : PackEntry} {find : JsString → Option PackEntry} :
    unmetRequirement entry find = none ↔ ∀ required ∈ entry.requirements, Meets find required := by
  unfold unmetRequirement PackEntry.requirements
  simp only [List.findSome?_eq_none_iff, List.mem_flatMap]
  constructor
  · intro met required isIn
    obtain ⟨version, isVersion, isRequired⟩ := isIn
    have here := met version isVersion required isRequired
    cases found : find required.name with
    | none =>
        rw [found] at here
        cases here
    | some target =>
        rw [found] at here
        simp only at here
        split at here
        next => cases here
        next enough => exact ⟨target, found, not_lt.mp enough⟩
  · intro met version isVersion required isRequired
    obtain ⟨target, found, enough⟩ := met required ⟨version, isVersion, isRequired⟩
    rw [found]
    exact if_neg (not_lt.mpr enough)

/-! ### Cycles -/

/-- The pack of the first name requires the second. -/
def Requires (entries : List PackEntry) (name next : JsString) : Prop :=
  ∃ entry ∈ entries, entry.name = name ∧ ∃ required ∈ entry.requirements, required.name = next

theorem edgesOf_iff {entries : List PackEntry} (distinct : (entries.map PackEntry.name).Nodup)
    {name next : JsString} : DepthFirst.Edge (edgesOf entries) name next ↔
      Requires entries name next ∧ (get entries next).isSome = true := by
  unfold DepthFirst.Edge edgesOf
  constructor
  · intro edge
    split at edge
    next => cases edge
    next entry found =>
      obtain ⟨isIn, named⟩ := get_some found
      obtain ⟨isNext, here⟩ := List.mem_filter.mp edge
      rw [List.mem_eraseDups, List.mem_map] at isNext
      exact ⟨⟨entry, isIn, named, isNext⟩, here⟩
  · intro edge
    obtain ⟨⟨entry, isIn, named, isNext⟩, here⟩ := edge
    rw [← named, get_of_mem distinct isIn]
    apply List.mem_filter.mpr
    rw [List.mem_eraseDups, List.mem_map]
    exact ⟨isNext, here⟩

theorem edgesOf_leading {entries : List PackEntry} (name : JsString)
    (leads : edgesOf entries name ≠ []) : name ∈ entries.map PackEntry.name := by
  unfold edgesOf at leads
  split at leads
  next => exact absurd rfl leads
  next entry found =>
    obtain ⟨isIn, named⟩ := get_some found
    exact List.mem_map.mpr ⟨entry, isIn, named⟩

theorem requirementCycle_returns (entries : List PackEntry) : requirementCycle entries ≠ none := by
  rw [requirementCycle, DepthFirst.cycleByTrail_eq]
  apply DepthFirst.cycleFrom_returns edgesOf_leading
  rw [List.length_map]

/-- A way back among the requirements is one among the edges. -/
theorem transGen_edges {entries : List PackEntry} (distinct : (entries.map PackEntry.name).Nodup)
    {name last : JsString} (walk : TransGen (Requires entries) name last)
    (isLast : (get entries last).isSome = true) :
    TransGen (DepthFirst.Edge (edgesOf entries)) name last := by
  induction walk using TransGen.head_induction_on with
  | single requires => exact .single ((edgesOf_iff distinct).mpr ⟨requires, isLast⟩)
  | head requires rest ih =>
      obtain ⟨next, ⟨entry, isIn, named, _⟩, _⟩ := TransGen.head'_iff.mp rest
      have isSome := get_isSome_iff.mpr ⟨entry, isIn, named⟩
      exact .head ((edgesOf_iff distinct).mpr ⟨requires, isSome⟩) ih

theorem requirementCycle_none {entries : List PackEntry}
    (distinct : (entries.map PackEntry.name).Nodup)
    (searched : requirementCycle entries = some none) (name : JsString) :
    ¬TransGen (Requires entries) name name := by
  intro back
  obtain ⟨_, ⟨entry, isIn, named, _⟩, _⟩ := TransGen.head'_iff.mp back
  have walk := transGen_edges distinct back (get_isSome_iff.mpr ⟨entry, isIn, named⟩)
  rw [requirementCycle, DepthFirst.cycleByTrail_eq, DepthFirst.cycleFrom_none_iff] at searched
  · exact searched name walk
  · intro other leads
    rw [sortNames, List.mem_insertionSort]
    exact edgesOf_leading other leads
  · rw [sortNames, List.length_insertionSort, List.length_map]

theorem reaches_of_chain {Vertex : Type} {edge : Vertex → Vertex → Prop} {first : Vertex}
    {rest : List Vertex} (chain : (first :: rest).IsChain edge) :
    ∀ vertex ∈ first :: rest, ReflTransGen edge first vertex ∧
      ∀ last ∈ (first :: rest).getLast?, ReflTransGen edge vertex last := by
  induction rest generalizing first with
  | nil =>
      intro vertex isIn
      rw [List.mem_singleton.mp isIn]
      constructor
      · exact .refl
      · intro last isLast
        rw [List.getLast?_singleton, Option.mem_some_iff] at isLast
        rw [isLast]
  | cons second rest ih =>
      intro vertex isIn
      obtain ⟨step, later⟩ := List.isChain_cons_cons.mp chain
      rcases List.mem_cons.mp isIn with isFirst | isLater
      · rw [isFirst]
        constructor
        · exact .refl
        · intro last isLast
          rw [List.getLast?_cons_cons] at isLast
          exact .head step ((ih later second List.mem_cons_self).2 last isLast)
      · obtain ⟨fromSecond, toLast⟩ := ih later vertex isLater
        constructor
        · exact .head step fromSecond
        · intro last isLast
          rw [List.getLast?_cons_cons] at isLast
          exact toLast last isLast

/-- Every vertex of a cycle lies on a way back to itself. -/
theorem transGen_of_isCycle {Vertex : Type} {next : Vertex → List Vertex} {cycle : List Vertex}
    (isCycle : DepthFirst.IsCycle next cycle) {vertex : Vertex} (isIn : vertex ∈ cycle) :
    TransGen (DepthFirst.Edge next) vertex vertex := by
  obtain ⟨long, closed, chain⟩ := isCycle
  match cycle, long, closed, chain, isIn with
  | first :: second :: rest, _, closed, chain, isIn =>
      have isLast : first ∈ (first :: second :: rest).getLast? := closed ▸ rfl
      obtain ⟨fromFirst, toLast⟩ := reaches_of_chain chain vertex isIn
      obtain ⟨step, later⟩ := List.isChain_cons_cons.mp chain
      have back : ReflTransGen (DepthFirst.Edge next) second first := by
        rw [List.getLast?_cons_cons] at isLast
        exact (reaches_of_chain later second List.mem_cons_self).2 first isLast
      have around : TransGen (DepthFirst.Edge next) first first := .head' step back
      exact TransGen.trans_right (toLast first isLast) (around.trans_left fromFirst)

theorem requirementCycle_some {entries : List PackEntry}
    (distinct : (entries.map PackEntry.name).Nodup) {cycle : List JsString}
    (searched : requirementCycle entries = some (some cycle)) :
    cycle.dropLast ≠ [] ∧ ∀ name ∈ cycle, TransGen (Requires entries) name name := by
  rw [requirementCycle, DepthFirst.cycleByTrail_eq] at searched
  have isCycle := DepthFirst.cycleFrom_isCycle searched
  constructor
  · intro empty
    have short := congrArg List.length empty
    rw [List.length_dropLast, List.length_nil] at short
    have long := isCycle.1
    omega
  · intro name isIn
    have among : DepthFirst.Edge (edgesOf entries) ≤ Requires entries :=
      fun _ _ edge => ((edgesOf_iff distinct).mp edge).1
    exact TransGen.mono among name name (transGen_of_isCycle isCycle isIn)

end NextTime.Packs
