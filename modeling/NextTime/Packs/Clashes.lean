import NextTime.Packs.BuiltinPacks

/-
What is read of the directories of the extra packs, and which of these packs have a
component of another pack.
-/

namespace NextTime.Packs

open OwnProperties (assign)

/-! ### Reading the directories -/

section
variable (builtin : List PackEntry) (load : JsString → Except JsString (List PackVersion))

/-- The extra pack of a directory that loads, unless the platform has one of its name. -/
def extraPackOf (name : JsString) : Option PackEntry :=
  if (get builtin name).isSome then none
  else (load name).toOption.map fun versions => ⟨name, versions⟩

def loadedOf (names : List JsString) : List PackEntry := names.filterMap (extraPackOf builtin load)

end

section
variable {builtin : List PackEntry} {load : JsString → Except JsString (List PackVersion)}

theorem extraPackOf_some {name : JsString} {entry : PackEntry} :
    extraPackOf builtin load name = some entry ↔
      entry.name = name ∧ get builtin name = none ∧ load name = .ok entry.versions := by
  unfold extraPackOf
  cases shipped : get builtin name with
  | some held => simp
  | none =>
      cases loads : load name with
      | error message => simp [Except.toOption]
      | ok versions =>
          cases entry
          simp [Except.toOption, eq_comm]

theorem mem_loadedOf {names : List JsString} {entry : PackEntry} :
    entry ∈ loadedOf builtin load names ↔ entry.name ∈ names ∧
      get builtin entry.name = none ∧ load entry.name = .ok entry.versions := by
  rw [loadedOf, List.mem_filterMap]
  constructor
  · intro read
    obtain ⟨name, isIn, isEntry⟩ := read
    obtain ⟨named, free, loads⟩ := extraPackOf_some.mp isEntry
    rw [named]
    exact ⟨isIn, free, loads⟩
  · intro read
    exact ⟨entry.name, read.1, extraPackOf_some.mpr ⟨rfl, read.2⟩⟩

theorem nodup_loadedOf {names : List JsString} (distinct : names.Nodup) :
    ((loadedOf builtin load names).map PackEntry.name).Nodup := by
  refine List.Nodup.sublist ?_ distinct
  clear distinct
  induction names with
  | nil => exact .slnil
  | cons name names ih =>
      unfold loadedOf at ih ⊢
      rw [List.filterMap_cons]
      cases read : extraPackOf builtin load name with
      | none => exact ih.cons name
      | some entry =>
          obtain ⟨named, _⟩ := extraPackOf_some.mp read
          simp only [List.map_cons, named]
          exact ih.cons_cons name

/-- What the directories read so far have come to. -/
structure ReadOf (builtin : List PackEntry) (load : JsString → Except JsString (List PackVersion))
    (names : List JsString) (read : ExtraRead) : Prop where
  loaded : read.loaded = loadedOf builtin load names
  skipped : ∀ name, read.skipped.has name = true ↔
    name ∈ names ∧ extraPackOf builtin load name = none

theorem ReadOf.skip {names : List JsString} {read : ExtraRead}
    (readOf : ReadOf builtin load names read) {name : JsString}
    (left : extraPackOf builtin load name = none) (reason : SkipReason) :
    ReadOf builtin load (names ++ [name]) ⟨read.loaded, assign name reason read.skipped⟩ := by
  constructor
  · rw [readOf.loaded, loadedOf, loadedOf, List.filterMap_append, List.filterMap_cons_none left,
      List.filterMap_nil, List.append_nil]
  · intro other
    rw [has_assign, readOf.skipped, List.mem_append, List.mem_singleton]
    constructor
    · rintro (same | ⟨isIn, none⟩)
      · exact ⟨.inr same, same ▸ left⟩
      · exact ⟨.inl isIn, none⟩
    · rintro ⟨isIn | same, none⟩
      · exact .inr ⟨isIn, none⟩
      · exact .inl same

theorem ReadOf.directory {names : List JsString} {read : ExtraRead}
    (readOf : ReadOf builtin load names read) (name : JsString) :
    ReadOf builtin load (names ++ [name]) (readDirectory builtin load read name) := by
  unfold readDirectory
  split
  next shipped =>
    apply readOf.skip
    exact if_pos shipped
  next free =>
    cases loads : load name with
    | error message =>
        apply readOf.skip
        rw [extraPackOf, if_neg free, loads]
        rfl
    | ok versions =>
        have here : extraPackOf builtin load name = some ⟨name, versions⟩ := by
          rw [extraPackOf, if_neg free, loads]
          rfl
        constructor
        · change read.loaded ++ _ = _
          rw [readOf.loaded, loadedOf, loadedOf, List.filterMap_append,
            List.filterMap_cons_some here, List.filterMap_nil]
        · intro other
          rw [readOf.skipped, List.mem_append, List.mem_singleton]
          constructor
          · exact fun left => ⟨.inl left.1, left.2⟩
          · rintro ⟨isIn | same, none⟩
            · exact ⟨isIn, none⟩
            · rw [same, here] at none
              cases none

theorem readOf_directories (names : List JsString) :
    ReadOf builtin load names (names.foldl (readDirectory builtin load) ⟨[], []⟩) := by
  induction names using List.reverseRecOn with
  | nil =>
      constructor
      · rfl
      · intro name
        apply iff_of_false
        · intro held
          cases held
        · intro left
          exact List.not_mem_nil left.1
  | append_singleton names name ih =>
      rw [List.foldl_append]
      exact ih.directory name

end

/-! ### Components of two packs -/

theorem mem_claimsOf {loaded : List PackEntry} {name key : JsString} :
    (name, key) ∈ claimsOf loaded ↔
      ∃ entry ∈ loaded, entry.name = name ∧ key ∈ componentKeysOf entry := by
  unfold claimsOf
  simp only [List.mem_flatMap, List.mem_map, Prod.mk.injEq]
  constructor
  · rintro ⟨entry, isIn, held, isHeld, named, isKey⟩
    exact ⟨entry, isIn, named, isKey ▸ isHeld⟩
  · rintro ⟨entry, isIn, named, isHeld⟩
    exact ⟨entry, isIn, key, isHeld, named, rfl⟩

theorem nodup_eraseDups (keys : List JsString) : keys.eraseDups.Nodup := by
  induction spent : keys.length using Nat.strong_induction_on generalizing keys with
  | h length ih =>
      cases keys with
      | nil => exact List.nodup_nil
      | cons key keys =>
          rw [List.eraseDups_cons, List.nodup_cons]
          constructor
          · rw [List.mem_eraseDups]
            intro isIn
            have other := (List.mem_filter.mp isIn).2
            rw [beq_self_eq_true] at other
            cases other
          · refine ih _ ?_ _ rfl
            have shorter := List.length_filter_le (fun other => !other == key) keys
            rw [List.length_cons] at spent
            omega

theorem nodup_claimsOf {loaded : List PackEntry}
    (distinct : (loaded.map PackEntry.name).Nodup) : (claimsOf loaded).Nodup := by
  apply List.nodup_flatMap.mpr
  constructor
  · intro entry _
    apply List.Nodup.map
    · exact fun _ _ same => (Prod.mk.inj same).2
    · exact nodup_eraseDups _
  · rw [List.Nodup, List.pairwise_map] at distinct
    apply distinct.imp
    intro one other different claim inOne inOther
    obtain ⟨_, _, isOne⟩ := List.mem_map.mp inOne
    obtain ⟨_, _, isOther⟩ := List.mem_map.mp inOther
    exact different ((congrArg Prod.fst isOne).trans (congrArg Prod.fst isOther).symm)

/-- The packs that claim a key. -/
def claimants (claims : List (JsString × JsString)) (key : JsString) : List JsString :=
  (claims.filter fun claim => claim.2 == key).map Prod.fst

theorem mem_claimants {claims : List (JsString × JsString)} {key name : JsString} :
    name ∈ claimants claims key ↔ (name, key) ∈ claims := by
  unfold claimants
  simp

theorem nodup_claimants {claims : List (JsString × JsString)} (distinct : claims.Nodup)
    (key : JsString) : (claimants claims key).Nodup := by
  apply List.Nodup.map_on
  · intro one isOne other isOther same
    have oneKey := beq_iff_eq.mp (List.mem_filter.mp isOne).2
    have otherKey := beq_iff_eq.mp (List.mem_filter.mp isOther).2
    exact Prod.ext same (oneKey.trans otherKey.symm)
  · exact distinct.filter _

theorem claimants_append (claims : List (JsString × JsString)) (name key other : JsString) :
    claimants (claims ++ [(name, key)]) other =
      claimants claims other ++ if key = other then [name] else [] := by
  unfold claimants
  rw [List.filter_append, List.map_append]
  by_cases same : key = other
  · simp [same]
  · simp [same]

/-- Left out already, or now. -/
theorem leave_has {skipped : Skipped} {name other : JsString} {reason : SkipReason} :
    Skipped.has (if skipped.has name then skipped else assign name reason skipped) other = true ↔
      skipped.has other = true ∨ other = name := by
  split
  next before =>
    constructor
    · exact .inl
    · rintro (left | same)
      · exact left
      · rw [same]
        exact before
  next => rw [has_assign, or_comm]

/-- What the components noted so far have come to. -/
structure Noted (builtinOwner : List (JsString × JsString)) (start : Skipped)
    (claims : List (JsString × JsString)) (state : Skipped × ExtraOwners) : Prop where
  skipped : ∀ name, state.1.has name = true ↔ start.has name = true ∨
    ∃ key, (name, key) ∈ claims ∧ (builtinOwner.lookup key).isSome = true
  keys : (JsValue.keys state.2).Nodup
  owners : ∀ key, (state.2.lookup key).getD [] = claimants claims key

theorem Noted.component {builtinOwner : List (JsString × JsString)} {start : Skipped}
    {claims : List (JsString × JsString)} {state : Skipped × ExtraOwners}
    (noted : Noted builtinOwner start claims state) (claim : JsString × JsString) :
    Noted builtinOwner start (claims ++ [claim]) (noteComponent builtinOwner state claim) := by
  obtain ⟨name, key⟩ := claim
  have grows (other : JsString) :
      (∃ held, (other, held) ∈ claims ++ [(name, key)] ∧
          (builtinOwner.lookup held).isSome = true) ↔
        (∃ held, (other, held) ∈ claims ∧ (builtinOwner.lookup held).isSome = true) ∨
          other = name ∧ (builtinOwner.lookup key).isSome = true := by
    simp only [List.mem_append, List.mem_singleton, Prod.mk.injEq, or_and_right, exists_or]
    simp
  constructor
  · intro other
    rw [grows, ← or_assoc, ← noted.skipped]
    unfold noteComponent
    dsimp only
    cases owned : builtinOwner.lookup key with
    | none => simp
    | some owner => simp [leave_has]
  · exact JsValue.nodup_assign noted.keys key _
  · intro other
    rw [claimants_append, ← noted.owners]
    unfold noteComponent
    by_cases same : key = other
    · rw [if_pos same, ← same, JsValue.lookup_assign_same]
      rfl
    · rw [if_neg same, JsValue.lookup_assign_other (Ne.symm same), List.append_nil]

theorem noted_components (builtinOwner : List (JsString × JsString)) (start : Skipped)
    (claims : List (JsString × JsString)) :
    Noted builtinOwner start claims (claims.foldl (noteComponent builtinOwner) (start, [])) := by
  induction claims using List.reverseRecOn with
  | nil =>
      constructor
      · intro name
        exact (or_iff_left (fun left => nomatch left.choose_spec.1)).symm
      · exact List.nodup_nil
      · exact fun _ => rfl
  | append_singleton claims claim ih =>
      rw [List.foldl_append]
      exact ih.component claim

theorem skipOwners_has {key : JsString} {all owners : List JsString} {name : JsString} :
    ∀ {skipped : Skipped}, (owners.foldl (skipOwner key all) skipped).has name = true ↔
      skipped.has name = true ∨ name ∈ owners := by
  induction owners with
  | nil => simp
  | cons owner owners ih =>
      intro skipped
      rw [List.foldl_cons, ih, skipOwner, leave_has, List.mem_cons, or_assoc]

theorem skipAllShared_has {extraOwners : ExtraOwners} {name : JsString} :
    ∀ {skipped : Skipped}, (extraOwners.foldl skipShared skipped).has name = true ↔
      skipped.has name = true ∨ ∃ owned ∈ extraOwners, 2 ≤ owned.2.length ∧ name ∈ owned.2 := by
  induction extraOwners with
  | nil => simp
  | cons owned extraOwners ih =>
      intro skipped
      rw [List.foldl_cons, ih]
      simp only [List.mem_cons, exists_eq_or_imp]
      rw [← or_assoc]
      apply or_congr_left
      unfold skipShared
      split
      next alone => simp [Nat.not_le.mpr alone]
      next shared => simp [skipOwners_has, Nat.not_lt.mp shared]

theorem two_le_length_iff {names : List JsString} (distinct : names.Nodup) {name : JsString}
    (isIn : name ∈ names) : 2 ≤ names.length ↔ ∃ other ∈ names, other ≠ name := by
  have shorter := List.length_erase_of_mem isIn
  constructor
  · intro two
    obtain ⟨other, isOther⟩ := List.exists_mem_of_length_pos
      (show 0 < (names.erase name).length by omega)
    obtain ⟨different, here⟩ := (List.Nodup.mem_erase_iff distinct).mp isOther
    exact ⟨other, here, different⟩
  · intro another
    obtain ⟨other, here, different⟩ := another
    have pos := List.length_pos_of_mem ((List.Nodup.mem_erase_iff distinct).mpr ⟨different, here⟩)
    omega

/-- No other pack has a component of the pack. -/
def Alone (builtin loaded : List PackEntry) (entry : PackEntry) : Prop :=
  ∀ key ∈ componentKeysOf entry, (∀ other ∈ builtin, key ∉ componentKeysOf other) ∧
    ∀ other ∈ loaded, key ∈ componentKeysOf other → other.name = entry.name

/-- Before the requirements are read, those with a component of another pack are left out. -/
theorem skippedAlone_has {builtin : List PackEntry} {owners : List (JsString × JsString)}
    (owned : Owned owners (componentsOf builtin)) {read : ExtraRead}
    (distinct : (read.loaded.map PackEntry.name).Nodup) {name : JsString} :
    (skippedAlone owners read).has name = true ↔ read.skipped.has name = true ∨
      ∃ entry ∈ read.loaded, entry.name = name ∧ ¬Alone builtin read.loaded entry := by
  have noted := noted_components owners read.skipped (claimsOf read.loaded)
  have shipped (key : JsString) : (owners.lookup key).isSome = true ↔
      ∃ other ∈ builtin, key ∈ componentKeysOf other := by
    rw [Option.isSome_iff_exists]
    constructor
    · rintro ⟨owner, found⟩
      obtain ⟨other, isIn, _, held⟩ := mem_componentsOf.mp ((owned key owner).mp found)
      exact ⟨other, isIn, held⟩
    · rintro ⟨other, isIn, held⟩
      exact ⟨other.name, (owned key other.name).mpr (mem_componentsOf.mpr ⟨other, isIn, rfl, held⟩)⟩
  change Skipped.has (((claimsOf read.loaded).foldl (noteComponent owners)
    (read.skipped, [])).2.foldl skipShared _) name = true ↔ _
  rw [skipAllShared_has, noted.skipped, or_assoc]
  apply or_congr_right
  generalize (claimsOf read.loaded).foldl (noteComponent owners) (read.skipped, []) = state
    at noted
  have nodup (key : JsString) := nodup_claimants (nodup_claimsOf distinct) key
  constructor
  · rintro (⟨key, isClaim, isShipped⟩ | ⟨⟨key, held⟩, isOwned, two, isHeld⟩)
    · obtain ⟨entry, isIn, named, isKey⟩ := mem_claimsOf.mp isClaim
      obtain ⟨other, isOther, also⟩ := (shipped key).mp isShipped
      exact ⟨entry, isIn, named, fun alone => (alone key isKey).1 other isOther also⟩
    · have same := noted.owners key
      rw [JsValue.lookup_of_mem noted.keys isOwned, Option.getD_some] at same
      simp only at same two isHeld
      rw [same] at two isHeld
      obtain ⟨second, isSecond, different⟩ := (two_le_length_iff (nodup key) isHeld).mp two
      obtain ⟨entry, isIn, named, isKey⟩ := mem_claimsOf.mp (mem_claimants.mp isHeld)
      obtain ⟨other, isOther, called, also⟩ := mem_claimsOf.mp (mem_claimants.mp isSecond)
      refine ⟨entry, isIn, named, fun alone => different ?_⟩
      rw [← called, (alone key isKey).2 other isOther also, named]
  · rintro ⟨entry, isIn, named, shared⟩
    unfold Alone at shared
    simp only [not_forall, not_and_or] at shared
    obtain ⟨key, isKey, either⟩ := shared
    have isClaim := mem_claimsOf.mpr ⟨entry, isIn, named, isKey⟩
    rcases either with ⟨other, isOther, also⟩ | ⟨other, isOther, also, different⟩
    · exact .inl ⟨key, isClaim, (shipped key).mpr ⟨other, isOther, not_not.mp also⟩⟩
    · right
      have isHeld := mem_claimants.mpr isClaim
      have isOtherHeld := mem_claimants.mpr (mem_claimsOf.mpr ⟨other, isOther, rfl, also⟩)
      have two := (two_le_length_iff (nodup key) isHeld).mpr
        ⟨other.name, isOtherHeld, named ▸ different⟩
      cases found : state.2.lookup key with
      | none =>
          have same := noted.owners key
          rw [found, Option.getD_none] at same
          rw [← same] at isHeld
          cases isHeld
      | some held =>
          have same := noted.owners key
          rw [found, Option.getD_some] at same
          rw [← same] at two isHeld
          exact ⟨(key, held), JsValue.mem_of_lookup found, two, isHeld⟩

end NextTime.Packs
