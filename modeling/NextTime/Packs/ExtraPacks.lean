import NextTime.Packs.Admitted

/-
What the registry is of a directory of extra packs, and when only the broken ones are left
out of it.
-/

namespace NextTime.Packs

open JsString (js)
open Relation (ReflTransGen TransGen)

theorem foldl_setEntry {admitted : List PackEntry} :
    ∀ {registry : List PackEntry}, ((registry ++ admitted).map PackEntry.name).Nodup →
      admitted.foldl setEntry registry = registry ++ admitted := by
  induction admitted with
  | nil => exact fun _ => (List.append_nil _).symm
  | cons entry admitted ih =>
      intro registry distinct
      have regroup : registry ++ entry :: admitted = (registry ++ [entry]) ++ admitted := by
        rw [List.append_assoc, List.singleton_append]
      have fresh : ¬(get registry entry.name).isSome = true := by
        intro found
        obtain ⟨held, isIn, named⟩ := get_isSome_iff.mp found
        rw [List.map_append] at distinct
        exact (List.nodup_append.mp distinct).2.2 held.name (List.mem_map_of_mem isIn)
          entry.name (List.mem_map_of_mem List.mem_cons_self) named
      rw [List.foldl_cons, setEntry, if_neg fresh, regroup]
      exact ih (regroup ▸ distinct)

theorem nodup_subdirectories {entries : List DirectoryEntry}
    (distinct : (entries.map DirectoryEntry.name).Nodup) : (subdirectories entries).Nodup := by
  apply (List.perm_insertionSort _ _).nodup_iff.mpr
  exact List.Nodup.sublist (List.filter_sublist.map DirectoryEntry.name) distinct

theorem subdirectories_eq_of_perm {entries others : List DirectoryEntry}
    (perm : entries.Perm others) : subdirectories entries = subdirectories others :=
  sortNames_eq_of_perm ((perm.filter _).map DirectoryEntry.name)

section
variable {builtin : List PackEntry} {owners : List (JsString × JsString)}
  {load : JsString → Except JsString (List PackVersion)}

theorem apart_loadedOf (distinct : (builtin.map PackEntry.name).Nodup) {names : List JsString}
    (namesDistinct : names.Nodup) : Apart builtin (loadedOf builtin load names) :=
  ⟨distinct, nodup_loadedOf namesDistinct, fun _ isIn => (mem_loadedOf.mp isIn).2.1⟩

/-- What is left out before the requirements are read: what has no pack here, and what has a
component of another. -/
theorem leftOutAlone_iff (owned : Owned owners (componentsOf builtin)) {names : List JsString}
    (distinct : names.Nodup) {name : JsString} :
    (skippedAlone owners (names.foldl (readDirectory builtin load) ⟨[], []⟩)).has name = true ↔
      (name ∈ names ∧ extraPackOf builtin load name = none) ∨
      ∃ entry ∈ loadedOf builtin load names, entry.name = name ∧
        ¬Alone builtin (loadedOf builtin load names) entry := by
  have readOf := @readOf_directories builtin load names
  generalize names.foldl (readDirectory builtin load) ⟨[], []⟩ = read at readOf
  have readDistinct : (read.loaded.map PackEntry.name).Nodup :=
    readOf.loaded ▸ nodup_loadedOf distinct
  rw [skippedAlone_has owned readDistinct, readOf.skipped, readOf.loaded]

/-- No extra pack that belongs requires a pack of the platform whose name a directory has. -/
def NoneShadowed (builtin loaded : List PackEntry) (names : List JsString) : Prop :=
  ∀ entry, Belongs builtin loaded entry → ∀ required ∈ entry.requirements,
    required.name ∈ names → get builtin required.name = none

/-- Under that condition a round leaves out no pack that belongs. -/
theorem keeps_belongs {loaded : List PackEntry} {names : List JsString}
    (apart : Apart builtin loaded) (noneShadowed : NoneShadowed builtin loaded names)
    {skipped : Skipped} (among : ∀ name, skipped.has name = true → name ∈ names)
    {entry : PackEntry} (belongs : Belongs builtin loaded entry)
    (others : ∀ other, Belongs builtin loaded other → ¬skipped.has other.name = true) :
    ¬Broken builtin loaded skipped entry.name := by
  obtain ⟨target, found, _, met, acyclic⟩ := belongs.chain entry.name .refl
  rw [packOf_loaded (apart.free entry belongs.loads), get_of_mem apart.extraNames belongs.loads,
    Option.some.injEq] at found
  rintro (⟨held, isKept, named, required, isRequired, notMet⟩ | back)
  · rw [List.inj_on_of_nodup_map apart.extraNames (mem_keptOf.mp isKept).1 belongs.loads named]
      at isRequired
    obtain ⟨pack, here, enough⟩ := met required (found ▸ isRequired)
    by_cases left : skipped.has required.name = true
    · have free := noneShadowed entry belongs required isRequired (among _ left)
      rw [packOf_loaded free] at here
      obtain ⟨isLoaded, called⟩ := get_some here
      have step : Requires (builtin ++ loaded) entry.name pack.name :=
        ⟨entry, List.mem_append_right _ belongs.loads, rfl, required, isRequired, called.symm⟩
      have stays := belongs.chain pack.name (.single step)
      obtain ⟨same, isSame, alone, _⟩ := stays
      rw [packOf_loaded (apart.free pack isLoaded), get_of_mem apart.extraNames isLoaded,
        Option.some.injEq] at isSame
      have packAlone : Alone builtin loaded pack := by
        rw [isSame]
        refine alone.resolve_left (fun isBuiltin => ?_)
        have shipped := get_isSome_iff.mpr ⟨same, isBuiltin, rfl⟩
        rw [← isSame, apart.free pack isLoaded] at shipped
        cases shipped
      apply others pack ⟨isLoaded, packAlone, fun name walk => belongs.chain name (.head step walk)⟩
      rw [called]
      exact left
    · exact notMet ⟨pack, findKept_some.mpr ⟨here, left⟩, enough⟩
  · apply acyclic
    have among : keptOf loaded skipped ⊆ builtin ++ loaded :=
      fun _ isKept => List.mem_append_right _ (mem_keptOf.mp isKept).1
    exact TransGen.mono (Requires.mono among) _ _ back

/-- The reader comes to an end: what is left out then, and what of it belongs. -/
theorem readExtraPacks_settles (distinct : (builtin.map PackEntry.name).Nodup)
    (owned : Owned owners (componentsOf builtin)) {entries : List DirectoryEntry}
    (entriesDistinct : (entries.map DirectoryEntry.name).Nodup) :
    let names := subdirectories entries
    let loaded := loadedOf builtin load names
    ∃ final, readExtraPacks builtin owners load (.entries entries) =
        some ⟨keptOf loaded final, final.insertionSort SkipBefore, none⟩ ∧
      Settled builtin loaded final ∧
      (∀ name ∈ names, extraPackOf builtin load name = none → final.has name = true) ∧
      (∀ entry ∈ loaded, ¬Alone builtin loaded entry → final.has entry.name = true) ∧
      (NoneShadowed builtin loaded names →
        ∀ entry, Belongs builtin loaded entry → ¬final.has entry.name = true) := by
  intro names loaded
  have namesDistinct : names.Nodup := nodup_subdirectories entriesDistinct
  have apart : Apart builtin loaded := apart_loadedOf distinct namesDistinct
  have before (name : JsString) := @leftOutAlone_iff _ _ load owned _ namesDistinct name
  have isLoaded := (@readOf_directories builtin load names).loaded
  generalize isRead : names.foldl (readDirectory builtin load) ⟨[], []⟩ = read at before isLoaded
  have enough : (keptOf loaded (skippedAlone owners read)).length < loaded.length + 1 :=
    Nat.lt_succ_of_le (List.length_filter_le _ _)
  obtain ⟨final, out⟩ := leaveOut_returns apart.extraNames enough
  let Holds (skipped : Skipped) : Prop :=
    (∀ name, (skippedAlone owners read).has name = true → skipped.has name = true) ∧
    (∀ name, skipped.has name = true → name ∈ names) ∧
    (NoneShadowed builtin loaded names →
      ∀ entry, Belongs builtin loaded entry → ¬skipped.has entry.name = true)
  have start : Holds (skippedAlone owners read) := by
    refine ⟨fun _ => id, ?_, ?_⟩
    · intro name left
      rcases (before name).mp left with here | ⟨entry, isIn, named, _⟩
      · exact here.1
      · exact named ▸ (mem_loadedOf.mp isIn).1
    · intro _ entry belongs left
      rcases (before entry.name).mp left with ⟨_, missing⟩ | ⟨other, isIn, named, shared⟩
      · obtain ⟨_, free, loads⟩ := mem_loadedOf.mp belongs.loads
        rw [extraPackOf_some.mpr ⟨rfl, free, loads⟩] at missing
        cases missing
      · rw [List.inj_on_of_nodup_map apart.extraNames isIn belongs.loads named] at shared
        exact shared belongs.alone
  have round (skipped : Skipped) (newly : List (JsString × SkipReason))
      (broken : ∀ unmet ∈ newly, Broken builtin loaded skipped unmet.1) (holds : Holds skipped) :
      Holds (leaveAll skipped newly) := by
    obtain ⟨grows, among, keeps⟩ := holds
    refine ⟨fun name left => leaveAll_has.mpr (.inl (grows name left)), ?_, ?_⟩
    · intro name left
      rcases leaveAll_has.mp left with already | ⟨unmet, isNew, named⟩
      · exact among name already
      · obtain ⟨entry, isKept, called⟩ := (broken unmet isNew).kept
        rw [← named, ← called]
        exact (mem_loadedOf.mp (mem_keptOf.mp isKept).1).1
    · intro noneShadowed entry belongs left
      rcases leaveAll_has.mp left with already | ⟨unmet, isNew, named⟩
      · exact keeps noneShadowed entry belongs already
      · exact keeps_belongs apart noneShadowed among belongs (keeps noneShadowed)
          (named ▸ broken unmet isNew)
  obtain ⟨⟨grows, _, keeps⟩, settled⟩ := leaveOut_keeps apart.extraNames Holds round start out
  refine ⟨final, ?_, settled, ?_, ?_, keeps⟩
  · change (leaveOut builtin (names.foldl (readDirectory builtin load) ⟨[], []⟩).loaded
      ((names.foldl (readDirectory builtin load) ⟨[], []⟩).loaded.length + 1)
        (skippedAlone owners (names.foldl (readDirectory builtin load) ⟨[], []⟩))).map _ = _
    rw [isRead, isLoaded, out]
    rfl
  · intro name isIn missing
    exact grows name ((before name).mpr (.inl ⟨isIn, missing⟩))
  · intro entry isIn shared
    exact grows entry.name ((before entry.name).mpr (.inr ⟨entry, isIn, rfl, shared⟩))

end

/-! ### Only the broken ones -/

/-- The extra packs of the directory are read, whatever the order of its entries; those that
belong and no others come into a registry that keeps the rules, and every other is reported. -/
def OnlyBrokenLeftOut (builtin : List PackEntry) (owners : List (JsString × JsString))
    (load : JsString → Except JsString (List PackVersion)) (entries : List DirectoryEntry) : Prop :=
  ∃ extra, (∀ others, entries.Perm others →
      readExtraPacks builtin owners load (.entries others) = some extra) ∧
    (∀ entry, entry ∈ extra.admitted ↔
      Belongs builtin (loadedOf builtin load (subdirectories entries)) entry) ∧
    (∀ name ∈ subdirectories entries, (∀ entry ∈ extra.admitted, entry.name ≠ name) →
      ∃ reason, (name, reason) ∈ extra.skipped) ∧
    ∃ registry, readPackRegistry builtin load (some (.entries entries)) =
        .ok (some ⟨registry, extra.skipped, extra.unreadable⟩) ∧
      (∀ entry, entry ∈ registry ↔ entry ∈ builtin ∨ entry ∈ extra.admitted) ∧
      KeepsRules registry

/-- Only the broken extra packs are left out exactly when none that belongs requires a pack
of the platform whose name a directory has too. -/
theorem onlyBrokenLeftOut_iff {builtin : List PackEntry}
    (distinct : (builtin.map PackEntry.name).Nodup) {owners : List (JsString × JsString)}
    (read : readBuiltin builtin = .ok owners)
    (load : JsString → Except JsString (List PackVersion)) {entries : List DirectoryEntry}
    (entriesDistinct : (entries.map DirectoryEntry.name).Nodup) :
    OnlyBrokenLeftOut builtin owners load entries ↔
      NoneShadowed builtin (loadedOf builtin load (subdirectories entries))
        (subdirectories entries) := by
  obtain ⟨rules, owned⟩ := readBuiltin_ok distinct read
  obtain ⟨final, isResult, settled, missing, shared, keeps⟩ :=
    @readExtraPacks_settles _ _ load distinct owned _ entriesDistinct
  have apart := @apart_loadedOf _ load distinct _ (nodup_subdirectories entriesDistinct)
  have alone (entry : PackEntry)
      (isKept : entry ∈ keptOf (loadedOf builtin load (subdirectories entries)) final) :
      Alone builtin (loadedOf builtin load (subdirectories entries)) entry := by
    obtain ⟨isLoaded, kept⟩ := mem_keptOf.mp isKept
    exact not_not.mp (mt (shared entry isLoaded) kept)
  constructor
  · intro onlyBroken entry belongs required isRequired listed
    obtain ⟨extra, same, admits, _⟩ := onlyBroken
    have isExtra := same entries (.refl _)
    rw [isResult, Option.some.injEq] at isExtra
    have isKept := (admits entry).mpr belongs
    rw [← isExtra] at isKept
    obtain ⟨_, found, _⟩ := settled.met entry isKept required isRequired
    cases shipped : get builtin required.name with
    | none => rfl
    | some held =>
        refine absurd (missing required.name listed ?_) (findKept_some.mp found).2
        rw [extraPackOf, shipped]
        rfl
  · intro noneShadowed
    have same (others : List DirectoryEntry) (perm : entries.Perm others) :
        readExtraPacks builtin owners load (.entries others) =
          some ⟨keptOf (loadedOf builtin load (subdirectories entries)) final,
            final.insertionSort SkipBefore, none⟩ := by
      rw [← isResult, readExtraPacks, readExtraPacks, subdirectories_eq_of_perm perm]
    refine ⟨_, same, ?_, ?_, _, ?_, ?_, settled.keepsRules apart rules alone⟩
    · intro entry
      constructor
      · exact settled.belongs apart rules alone
      · intro belongs
        exact mem_keptOf.mpr ⟨belongs.loads, keeps noneShadowed entry belongs⟩
    · intro name listed notAdmitted
      have left : final.has name = true := by
        cases here : extraPackOf builtin load name with
        | none => exact missing name listed here
        | some entry =>
            obtain ⟨named, free, loads⟩ := extraPackOf_some.mp here
            by_contra kept
            have isLoaded := mem_loadedOf.mpr
              ⟨named.symm ▸ listed, named.symm ▸ free, named.symm ▸ loads⟩
            exact notAdmitted entry (mem_keptOf.mpr ⟨isLoaded, named ▸ kept⟩) named
      obtain ⟨reason, found⟩ := Option.isSome_iff_exists.mp left
      exact ⟨reason, (List.mem_insertionSort _).mpr (JsValue.mem_of_lookup found)⟩
    · change (readBuiltin builtin).bind _ = _
      rw [read]
      change Except.ok ((readExtraPacks builtin owners load (.entries entries)).map _) = _
      rw [isResult, Option.map_some, foldl_setEntry (settled.keepsRules apart rules alone).names]
    · exact fun _ => List.mem_append

/-! ### A shadowed pack -/

def basePack : PackEntry := ⟨js "base", [⟨1, [js "skill:base"], []⟩]⟩

/-- What loads of every directory here: a pack of its own component that requires the base. -/
def loadOnBase (name : JsString) : Except JsString (List PackVersion) :=
  .ok [⟨1, [js "skill:" ++ name], [⟨js "base", 1⟩]⟩]

def baseOwners : List (JsString × JsString) := [(js "skill:base", js "base")]

theorem onlyBrokenLeftOut_iff_org :
    OnlyBrokenLeftOut [basePack] baseOwners loadOnBase [⟨js "org", true⟩] := by
  have distinct : ([basePack].map PackEntry.name).Nodup := List.nodup_singleton _
  have entriesDistinct : ([⟨js "org", true⟩].map DirectoryEntry.name).Nodup :=
    List.nodup_singleton _
  apply (onlyBrokenLeftOut_iff distinct rfl loadOnBase entriesDistinct).mpr
  have names : subdirectories [⟨js "org", true⟩] = [js "org"] := by decide
  have isLoaded : loadedOf [basePack] loadOnBase [js "org"] =
      [⟨js "org", [⟨1, [js "skill:org"], [⟨js "base", 1⟩]⟩]⟩] := rfl
  rw [names, isLoaded]
  intro entry belongs required isRequired listed
  rw [List.mem_singleton.mp belongs.loads] at isRequired
  rw [List.mem_singleton.mp isRequired] at listed
  exact absurd listed (by decide)

/-- The pack `org` builds on the platform's `base`, and is left out beside a directory
`base`. -/
theorem not_onlyBrokenLeftOut_base :
    readBuiltin [basePack] = .ok baseOwners ∧
      ¬OnlyBrokenLeftOut [basePack] baseOwners loadOnBase
        [⟨js "org", true⟩, ⟨js "base", true⟩] := by
  refine ⟨rfl, ?_⟩
  intro onlyBroken
  obtain ⟨extra, same, admits, _⟩ := onlyBroken
  have names : subdirectories [⟨js "org", true⟩, ⟨js "base", true⟩] = [js "base", js "org"] := by
    decide
  have none : (readExtraPacks [basePack] baseOwners loadOnBase
      (.entries [⟨js "org", true⟩, ⟨js "base", true⟩])).map
        (fun extra => extra.admitted.map PackEntry.name) = some [] := by
    decide +kernel
  rw [same _ (.refl _), Option.map_some, Option.some.injEq, List.map_eq_nil_iff] at none
  let org : PackEntry := ⟨js "org", [⟨1, [js "skill:org"], [⟨js "base", 1⟩]⟩]⟩
  have isLoaded : loadedOf [basePack] loadOnBase [js "base", js "org"] = [org] := rfl
  rw [names, isLoaded] at admits
  have requires (name next : JsString) (edge : Requires ([basePack] ++ [org]) name next) :
      name = js "org" ∧ next = js "base" := by
    obtain ⟨entry, isIn, named, required, isRequired, called⟩ := edge
    rcases List.mem_cons.mp isIn with isBase | isOrg
    · rw [isBase] at isRequired
      cases isRequired
    · rw [List.mem_singleton.mp isOrg] at isRequired named
      rw [List.mem_singleton.mp isRequired] at called
      exact ⟨named.symm, called.symm⟩
  have acyclic (name : JsString) : ¬TransGen (Requires ([basePack] ++ [org])) name name := by
    intro back
    obtain ⟨_, first, _⟩ := TransGen.head'_iff.mp back
    obtain ⟨_, _, last⟩ := TransGen.tail'_iff.mp back
    exact absurd ((requires _ _ first).1.symm.trans (requires _ _ last).2) (by decide)
  have alone : Alone [basePack] [org] org := by
    intro key isKey
    have isOrgs : key = js "skill:org" := List.mem_singleton.mp isKey
    constructor
    · intro other isOther held
      rw [List.mem_singleton.mp isOther] at held
      have isBases : key = js "skill:base" := List.mem_singleton.mp held
      exact absurd (isOrgs.symm.trans isBases) (by decide)
    · intro other isOther _
      rw [List.mem_singleton.mp isOther]
  have stands (name : JsString) (either : name = js "org" ∨ name = js "base") :
      Stands [basePack] [org] name := by
    rcases either with isOrg | isBase
    · refine ⟨org, ?_, .inr alone, ?_, acyclic name⟩
      · rw [isOrg]
        rfl
      · intro required isRequired
        rw [List.mem_singleton.mp isRequired]
        exact ⟨basePack, rfl, le_refl 1⟩
    · refine ⟨basePack, ?_, .inl (List.mem_singleton.mpr rfl), ?_, acyclic name⟩
      · rw [isBase]
        rfl
      · exact fun _ isRequired => nomatch isRequired
  have belongs : Belongs [basePack] [org] org := by
    refine ⟨List.mem_singleton.mpr rfl, alone, ?_⟩
    intro name walk
    apply stands
    rcases ReflTransGen.cases_tail walk with same | ⟨middle, _, last⟩
    · exact .inl same
    · exact .inr (requires _ _ last).2
  have admitted := (admits org).mpr belongs
  rw [none] at admitted
  cases admitted

end NextTime.Packs
