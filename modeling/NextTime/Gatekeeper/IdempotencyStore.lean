import Mathlib.Logic.Function.Basic

/-
The idempotency store of a gate: the five entry states under a key, the checks
`reserve` and `lookup` make on the loaded map, and the translation between the
map and the file. The two layers are only described here; the order in which
they change is the business of the apply system.
-/

namespace NextTime.Gatekeeper

variable {Value : Type}

/-- The call a key was first used for. -/
structure IdempotencyDescriptor where
  operation : String
  paramsHash : String
  onBehalfOf : Option String
deriving DecidableEq, Repr

structure ApplyData (Value : Type) where
  data : Value
  observedFacts : Value
deriving DecidableEq, Repr

/-- How a reserved key's transport call ended when it did not succeed. -/
structure StoredApplyFailure where
  message : String
  outcomeUnknown : Bool
deriving DecidableEq, Repr

inductive StoreEntryState (Value : Type)
  | pending (descriptor : IdempotencyDescriptor)
  | orphaned (descriptor : IdempotencyDescriptor)
  | done (descriptor : IdempotencyDescriptor) (result : ApplyData Value)
  | failed (descriptor : IdempotencyDescriptor) (failure : StoredApplyFailure)
  | notReceived (descriptor : IdempotencyDescriptor)
deriving DecidableEq, Repr

inductive IdempotencyReserveResult (Value : Type)
  | reserved
  | replay (descriptor : IdempotencyDescriptor) (result : ApplyData Value)
  | failed (failure : StoredApplyFailure)
  | unknown
  | conflict
deriving DecidableEq, Repr

inductive IdempotencyLookupResult (Value : Type)
  | absent
  | pending
  | replay (descriptor : IdempotencyDescriptor) (result : ApplyData Value)
  | failed (failure : StoredApplyFailure)
  | unknown
  | conflict
deriving DecidableEq, Repr

abbrev StoreMap (Value : Type) := String → Option (StoreEntryState Value)

def StoreMap.set (map : StoreMap Value) (key : String) (entry : StoreEntryState Value) :
    StoreMap Value :=
  fun other => if other = key then some entry else map other

def StoreMap.delete (map : StoreMap Value) (key : String) : StoreMap Value :=
  fun other => if other = key then none else map other

def StoreEntryState.descriptor : StoreEntryState Value → IdempotencyDescriptor
  | .pending descriptor | .orphaned descriptor | .notReceived descriptor => descriptor
  | .done descriptor _ | .failed descriptor _ => descriptor

/-- The answer a `reserve` of a closed key gets. -/
def notReceivedFailure (key : String) : StoredApplyFailure :=
  { message := "apply for actionRequestId \"" ++ key ++
      "\" arrived after the kernel was told this gate never received it — it was closed then " ++
      "and is never run; request it again if it is still wanted"
    outcomeUnknown := false }

/-! ### The checks on the loaded map -/

def reserveOrConflict (map : StoreMap Value) (key : String) (descriptor : IdempotencyDescriptor) :
    StoreMap Value × IdempotencyReserveResult Value :=
  match map key with
  | none => (map.set key (.pending descriptor), .reserved)
  | some (.pending _) => (map, .conflict)
  | some existing =>
      if existing.descriptor ≠ descriptor then (map, .conflict)
      else
        match existing with
        | .pending _ => (map, .conflict)
        | .orphaned _ => (map, .unknown)
        | .notReceived _ => (map, .failed (notReceivedFailure key))
        | .failed _ failure => (map, .failed failure)
        | .done stored result => (map, .replay stored result)

/-- The third component says whether the map changed and must be written. -/
def lookupOrClose (map : StoreMap Value) (key : String) (descriptor : IdempotencyDescriptor) :
    StoreMap Value × IdempotencyLookupResult Value × Bool :=
  match map key with
  | none => (map.set key (.notReceived descriptor), .absent, true)
  | some existing =>
      if existing.descriptor ≠ descriptor then (map, .conflict, false)
      else
        match existing with
        | .pending _ => (map, .pending, false)
        | .notReceived _ => (map, .absent, false)
        | .orphaned _ => (map, .unknown, false)
        | .failed _ failure => (map, .failed failure, false)
        | .done stored result => (map, .replay stored result, false)

def reservedDescriptor (map : StoreMap Value) (key : String) : IdempotencyDescriptor :=
  match map key with
  | some reserved => reserved.descriptor
  | none => { operation := "", paramsHash := "", onBehalfOf := none }

def completeEntry (map : StoreMap Value) (key : String) (result : ApplyData Value) :
    StoreMap Value :=
  map.set key (.done (reservedDescriptor map key) result)

def failEntry (map : StoreMap Value) (key : String) (failure : StoredApplyFailure) :
    StoreMap Value :=
  map.set key (.failed (reservedDescriptor map key) failure)

/-- The second component is `true` if a pending key was actually freed. -/
def releaseEntry (map : StoreMap Value) (key : String) : StoreMap Value × Bool :=
  match map key with
  | some (.pending _) => (map.delete key, true)
  | _ => (map, false)

/-! ### The file -/

/-- One record of a parsed store file: an entry with a status the store writes,
or any other shape. -/
inductive StoredRecord (Value : Type)
  | entry (state : StoreEntryState Value)
  | otherShape
deriving DecidableEq, Repr

/-- A reservation still pending in the file belongs to a process that is gone. -/
def loadedEntry : StoredRecord Value → Option (StoreEntryState Value)
  | .entry (.done descriptor result) => some (.done descriptor result)
  | .entry (.failed descriptor failure) => some (.failed descriptor failure)
  | .entry (.notReceived descriptor) => some (.notReceived descriptor)
  | .entry (.pending descriptor) => some (.orphaned descriptor)
  | .entry (.orphaned descriptor) => some (.orphaned descriptor)
  | .otherShape => none

abbrev FileEntries (Value : Type) := String → Option (StoredRecord Value)

inductive StoreFile (Value : Type)
  | missing
  | unreadable
  | written (entries : FileEntries Value)

/-- The setter of the property named `__proto__` replaces the prototype of the
object under construction, so the snapshot has no own member of that name. -/
def ownMember (key : String) : Bool := key != "__proto__"

/-- The members `JSON.stringify` writes for the snapshot object. -/
def snapshotEntries (map : StoreMap Value) : FileEntries Value :=
  fun key => if ownMember key then (map key).map .entry else none

def loadedMap (entries : FileEntries Value) : StoreMap Value :=
  fun key => (entries key).bind loadedEntry

/-! ### Lookups in a changed map -/

def StoreMap.put (map : StoreMap Value) (key : String) (entry : Option (StoreEntryState Value)) :
    StoreMap Value :=
  fun other => if other = key then entry else map other

@[simp]
theorem StoreMap.put_same (map : StoreMap Value) (key : String)
    (entry : Option (StoreEntryState Value)) : map.put key entry key = entry :=
  if_pos rfl

theorem StoreMap.put_other (map : StoreMap Value) {key other : String}
    (entry : Option (StoreEntryState Value)) (different : other ≠ key) :
    map.put key entry other = map other :=
  if_neg different

theorem StoreMap.set_eq_put (map : StoreMap Value) (key : String) (entry : StoreEntryState Value) :
    map.set key entry = map.put key (some entry) := rfl

theorem StoreMap.delete_eq_put (map : StoreMap Value) (key : String) :
    map.delete key = map.put key none := rfl

theorem StoreMap.put_self (map : StoreMap Value) (key : String) :
    map.put key (map key) = map := by
  funext other
  by_cases same : other = key
  · subst other
    exact map.put_same key (map key)
  · exact map.put_other (map key) same

/-! ### What the checks answer -/

/-- The answer `reserve` gives to a key that already holds an entry. -/
def occupiedAnswer (key : String) (existing : StoreEntryState Value)
    (descriptor : IdempotencyDescriptor) : IdempotencyReserveResult Value :=
  match existing with
  | .pending _ => .conflict
  | .orphaned stored => if stored = descriptor then .unknown else .conflict
  | .notReceived stored =>
      if stored = descriptor then .failed (notReceivedFailure key) else .conflict
  | .failed stored failure => if stored = descriptor then .failed failure else .conflict
  | .done stored result => if stored = descriptor then .replay stored result else .conflict

theorem reserveOrConflict_free {map : StoreMap Value} {key : String}
    (descriptor : IdempotencyDescriptor) (free : map key = none) :
    reserveOrConflict map key descriptor =
      (map.put key (some (.pending descriptor)), .reserved) := by
  simp only [reserveOrConflict, free, StoreMap.set_eq_put]

theorem reserveOrConflict_occupied {map : StoreMap Value} {key : String}
    {existing : StoreEntryState Value} (descriptor : IdempotencyDescriptor)
    (occupied : map key = some existing) :
    reserveOrConflict map key descriptor =
      (map, occupiedAnswer key existing descriptor) := by
  by_cases same : existing.descriptor = descriptor
  · cases existing <;>
      simp only [StoreEntryState.descriptor] at same <;>
      simp [reserveOrConflict, occupied, occupiedAnswer, StoreEntryState.descriptor, same]
  · cases existing <;>
      simp only [StoreEntryState.descriptor] at same <;>
      simp [reserveOrConflict, occupied, occupiedAnswer, StoreEntryState.descriptor, same]

theorem occupiedAnswer_ne_reserved (key : String) (existing : StoreEntryState Value)
    (descriptor : IdempotencyDescriptor) :
    occupiedAnswer key existing descriptor ≠ .reserved := by
  cases existing <;> simp only [occupiedAnswer] <;> try split
  all_goals exact nofun

/-- The answer `lookup` gives to a key that already holds an entry. -/
def foundAnswer (existing : StoreEntryState Value) (descriptor : IdempotencyDescriptor) :
    IdempotencyLookupResult Value :=
  if existing.descriptor = descriptor then
    match existing with
    | .pending _ => .pending
    | .orphaned _ => .unknown
    | .notReceived _ => .absent
    | .failed _ failure => .failed failure
    | .done stored result => .replay stored result
  else .conflict

theorem lookupOrClose_free {map : StoreMap Value} {key : String}
    (descriptor : IdempotencyDescriptor) (free : map key = none) :
    lookupOrClose map key descriptor =
      (map.put key (some (.notReceived descriptor)), .absent, true) := by
  simp only [lookupOrClose, free, StoreMap.set_eq_put]

theorem lookupOrClose_occupied {map : StoreMap Value} {key : String}
    {existing : StoreEntryState Value} (descriptor : IdempotencyDescriptor)
    (occupied : map key = some existing) :
    lookupOrClose map key descriptor = (map, foundAnswer existing descriptor, false) := by
  by_cases same : existing.descriptor = descriptor
  · simp only [lookupOrClose, occupied, foundAnswer, same, ne_eq, not_true_eq_false, if_false,
      if_true]
    cases existing <;> rfl
  · simp only [lookupOrClose, occupied, foundAnswer, same, ne_eq, not_false_eq_true, if_true,
      if_false]

/-- Only a key closed as never received is answered absent without a new close. -/
theorem foundAnswer_absent {existing : StoreEntryState Value} {descriptor : IdempotencyDescriptor}
    (absent : foundAnswer existing descriptor = .absent) :
    existing = .notReceived descriptor := by
  simp only [foundAnswer] at absent
  split at absent
  · next same =>
      cases existing <;> simp only [StoreEntryState.descriptor] at same <;> simp_all
  · cases absent

/-! ### What survives a restart -/

theorem snapshotEntries_own {map : StoreMap Value} {key : String} (own : ownMember key = true) :
    snapshotEntries map key = (map key).map .entry := by
  simp only [snapshotEntries, own, if_true]

theorem ownMember_iff (key : String) : ownMember key = true ↔ key ≠ "__proto__" := by
  simp [ownMember]

end NextTime.Gatekeeper
