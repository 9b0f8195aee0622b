import NextTime.Library.DepthFirst
import NextTime.Library.JsString
import NextTime.Library.OwnProperties
import Mathlib.Data.List.Sort

/-
The registry of packs: the platform's own, which keep every rule, and the extra ones of a
deployment, each left out with a reason when it breaks one. A component is its key.
-/

namespace NextTime.Packs

open OwnProperties (assign)

structure PackRequirement where
  name : JsString
  minVersion : Nat

structure PackVersion where
  version : Nat
  components : List JsString
  requiredPacks : List PackRequirement

structure PackEntry where
  name : JsString
  versions : List PackVersion

def PackEntry.requirements (entry : PackEntry) : List PackRequirement :=
  entry.versions.flatMap PackVersion.requiredPacks

def PackEntry.components (entry : PackEntry) : List JsString :=
  entry.versions.flatMap PackVersion.components

/-- `componentKeysOf`: each key once. -/
def componentKeysOf (entry : PackEntry) : List JsString := entry.components.eraseDups

/-- `registry.get(name)`. -/
def get (registry : List PackEntry) (name : JsString) : Option PackEntry :=
  registry.find? fun entry => entry.name == name

/-- `[...names].sort()`: by code units. -/
def sortNames (names : List JsString) : List JsString := names.insertionSort (· ≤ ·)

/-! ### Requirements -/

/-- Why an extra pack is left out. -/
inductive SkipReason
  | shipped
  | failed (message : JsString)
  | builtinComponent (key owner : JsString)
  | extraComponent (key : JsString) (others : List JsString)
  | missing (version : Nat) (required : PackRequirement)
  | tooOld (version : Nat) (required : PackRequirement) (upTo : Nat)
  | cycle (names : List JsString)

/-- The first requirement of the entry that is not met. -/
def unmetRequirement (entry : PackEntry) (find : JsString → Option PackEntry) :
    Option SkipReason :=
  entry.versions.findSome? fun version =>
    version.requiredPacks.findSome? fun required =>
      match find required.name with
      | none => some (.missing version.version required)
      | some target =>
          if target.versions.length < required.minVersion then
            some (.tooOld version.version required target.versions.length)
          else none

/-- The packs among the entries that a pack requires. -/
def edgesOf (entries : List PackEntry) (name : JsString) : List JsString :=
  match get entries name with
  | none => []
  | some entry =>
      ((entry.requirements.map PackRequirement.name).eraseDups).filter fun next =>
        (get entries next).isSome

/-- A cycle of requirements among the entries; none of the outer kind is out of fuel. -/
def requirementCycle (entries : List PackEntry) : Option (Option (List JsString)) :=
  DepthFirst.cycleByTrail (edgesOf entries) (entries.length + 2)
    (sortNames (entries.map PackEntry.name))

/-! ### The packs of the platform -/

inductive PackRegistryError
  | twoPacks (key owner name : JsString)
  | requirement (name : JsString) (reason : SkipReason)
  | cycle (names : List JsString)
  | spent

/-- A key of a pack is taken, or refused to a second pack. -/
def claimKey (name : JsString) (owners : List (JsString × JsString)) (key : JsString) :
    Except PackRegistryError (List (JsString × JsString)) :=
  match owners.lookup key with
  | some owner =>
      if owner ≠ name then .error (.twoPacks key owner name) else .ok (assign key name owners)
  | none => .ok (assign key name owners)

def claimComponents (owners : List (JsString × JsString)) (entry : PackEntry) :
    Except PackRegistryError (List (JsString × JsString)) :=
  entry.components.foldlM (claimKey entry.name) owners

def assertPackRequirements (registry : List PackEntry) : Except PackRegistryError Unit :=
  match registry.findSome? fun entry =>
      (unmetRequirement entry (get registry)).map fun reason => (entry.name, reason) with
  | some (name, reason) => .error (.requirement name reason)
  | none =>
      match requirementCycle registry with
      | none => .error .spent
      | some (some cycle) => .error (.cycle cycle)
      | some none => .ok ()

/-- The owners of the components of the platform's packs, once these keep every rule. -/
def readBuiltin (builtin : List PackEntry) :
    Except PackRegistryError (List (JsString × JsString)) := do
  let owners ← builtin.foldlM claimComponents []
  assertPackRequirements builtin
  return owners

/-! ### The extra packs -/

abbrev Skipped := List (JsString × SkipReason)

def Skipped.has (skipped : Skipped) (name : JsString) : Bool := (skipped.lookup name).isSome

/-- What is read of the directories: the packs that loaded and those left out already. -/
structure ExtraRead where
  loaded : List PackEntry
  skipped : Skipped

section
variable (builtin : List PackEntry) (builtinOwner : List (JsString × JsString))
  (load : JsString → Except JsString (List PackVersion))

def readDirectory (read : ExtraRead) (name : JsString) : ExtraRead :=
  if (get builtin name).isSome then { read with skipped := assign name .shipped read.skipped }
  else
    match load name with
    | .ok versions => { read with loaded := read.loaded ++ [⟨name, versions⟩] }
    | .error message => { read with skipped := assign name (.failed message) read.skipped }

abbrev ExtraOwners := List (JsString × List JsString)

/-- One component of an extra pack: it may be the platform's, and is noted as the pack's. -/
def noteComponent (state : Skipped × ExtraOwners) (claim : JsString × JsString) :
    Skipped × ExtraOwners :=
  let (name, key) := claim
  let skipped :=
    match builtinOwner.lookup key with
    | some owner =>
        if state.1.has name then state.1 else assign name (.builtinComponent key owner) state.1
    | none => state.1
  (skipped, assign key ((state.2.lookup key).getD [] ++ [name]) state.2)

def claimsOf (loaded : List PackEntry) : List (JsString × JsString) :=
  loaded.flatMap fun entry => (componentKeysOf entry).map fun key => (entry.name, key)

/-- One of the owners of a component that has two. -/
def skipOwner (key : JsString) (owners : List JsString) (skipped : Skipped) (owner : JsString) :
    Skipped :=
  if skipped.has owner then skipped
  else assign owner (.extraComponent key (owners.filter fun other => decide (other ≠ owner))) skipped

def skipShared (skipped : Skipped) (owned : JsString × List JsString) : Skipped :=
  if owned.2.length < 2 then skipped else owned.2.foldl (skipOwner owned.1 owned.2) skipped

/-- The pack of a name that is here. -/
def findKept (loaded : List PackEntry) (skipped : Skipped) (name : JsString) :
    Option PackEntry :=
  match (get builtin name).or (get loaded name) with
  | none => none
  | some target => if skipped.has name then none else some target

def keptOf (loaded : List PackEntry) (skipped : Skipped) : List PackEntry :=
  loaded.filter fun entry => !skipped.has entry.name

/-- The kept packs with a requirement that is not met. -/
def unmetOf (loaded : List PackEntry) (skipped : Skipped) : List (JsString × SkipReason) :=
  (keptOf loaded skipped).filterMap fun entry =>
    (unmetRequirement entry (findKept builtin loaded skipped)).map fun reason =>
      (entry.name, reason)

/-- `for (;;)`: until nothing more is left out. -/
def leaveOut (loaded : List PackEntry) : Nat → Skipped → Option Skipped
  | 0, _ => none
  | fuel + 1, skipped =>
      match unmetOf builtin loaded skipped with
      | first :: rest =>
          leaveOut loaded fuel
            ((first :: rest).foldl (fun skipped unmet => assign unmet.1 unmet.2 skipped) skipped)
      | [] =>
          match requirementCycle (keptOf loaded skipped) with
          | none => none
          | some none => some skipped
          | some (some cycle) =>
              leaveOut loaded fuel
                (cycle.dropLast.foldl (fun skipped name => assign name (.cycle cycle) skipped) skipped)

structure ExtraPacks where
  admitted : List PackEntry
  skipped : Skipped
  unreadable : Option JsString

structure DirectoryEntry where
  name : JsString
  isDirectory : Bool

/-- `diskPackFiles.subdirectories`: by name, sorted, hidden ones left out. -/
def subdirectories (entries : List DirectoryEntry) : List JsString :=
  sortNames ((entries.filter fun entry =>
    entry.isDirectory && !decide (entry.name.head? = some 0x2E)).map DirectoryEntry.name)

inductive ExtraPacksDir
  | missing
  | unreadable (message : JsString)
  | entries (entries : List DirectoryEntry)

def SkipBefore (first second : JsString × SkipReason) : Prop := first.1 ≤ second.1

instance : DecidableRel SkipBefore :=
  fun first second => inferInstanceAs (Decidable (first.1 ≤ second.1))

/-- What is left out before the requirements are read. -/
def skippedAlone (read : ExtraRead) : Skipped :=
  let (skipped, extraOwners) :=
    (claimsOf read.loaded).foldl (noteComponent builtinOwner) (read.skipped, [])
  extraOwners.foldl skipShared skipped

def readExtraPacks : ExtraPacksDir → Option ExtraPacks
  | .missing => some ⟨[], [], none⟩
  | .unreadable message => some ⟨[], [], some message⟩
  | .entries entries =>
      let read := (subdirectories entries).foldl (readDirectory builtin load) ⟨[], []⟩
      (leaveOut builtin read.loaded (read.loaded.length + 1) (skippedAlone builtinOwner read)).map
        fun skipped =>
          ⟨keptOf read.loaded skipped, skipped.insertionSort SkipBefore, none⟩

end

/-- `registry.set(entry.name, entry)`. -/
def setEntry (registry : List PackEntry) (entry : PackEntry) : List PackEntry :=
  if (get registry entry.name).isSome then
    registry.map fun held => if held.name = entry.name then entry else held
  else registry ++ [entry]

structure PackRegistryRead where
  registry : List PackEntry
  skipped : Skipped
  extraPacksUnreadable : Option JsString

/-- `readPackRegistry`, of the packs the platform ships and the deployment's directory. -/
def readPackRegistry (builtin : List PackEntry)
    (load : JsString → Except JsString (List PackVersion)) (extraPacksDir : Option ExtraPacksDir) :
    Except PackRegistryError (Option PackRegistryRead) := do
  let builtinOwner ← readBuiltin builtin
  match extraPacksDir with
  | none => return some ⟨builtin, [], none⟩
  | some dir =>
      return (readExtraPacks builtin builtinOwner load dir).map fun extra =>
        ⟨extra.admitted.foldl setEntry builtin, extra.skipped, extra.unreadable⟩

end NextTime.Packs
