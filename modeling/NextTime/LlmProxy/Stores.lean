import NextTime.Library.Exclusive
import NextTime.Library.Program
import NextTime.LlmProxy.Catalog

/-
What a request of llm-proxy does between two of its await points: it reads the
in-memory catalog and keys, takes its turn at one of the two stores, waits for a
write to land, or sends a credential to an upstream. Every such stretch of code
is one call; anything may happen between two of them.
-/

namespace NextTime.LlmProxy

open Exclusive
open OwnProperties (assign without)

inductive StoreFile
  | providers
  | keys
deriving DecidableEq, Repr

inductive ProviderChange
  /-- A request that cleared the console key first says how many keys were set by then. -/
  | upsert (id : String) (entry : StoreProvider) (cleared : Option Nat)
  | remove (id : String)
  | recordTest (id : String) (result : StoreTestResult)
  | clearTest (id : String)
deriving DecidableEq, Repr

/-- The store's next state; none when there is nothing to write. -/
def ProviderChange.next (store : Providers) : ProviderChange → Option Providers
  | .upsert id entry _ => some (assign id entry store)
  | .remove id => if (store.lookup id).isSome then some (without id store) else none
  | .recordTest id result =>
      (store.lookup id).map fun entry => assign id { entry with lastTest := some result } store
  | .clearTest id =>
      (store.lookup id).bind fun entry =>
        if entry.lastTest.isSome then some (assign id { entry with lastTest := none } store)
        else none

/-- `upsert` refuses the names of llm-proxy's own routes. -/
def ProviderChange.reserved : ProviderChange → Bool
  | .upsert id _ _ => decide (id ∈ reservedProviderNames)
  | _ => false

inductive KeyChange
  | set (id value : String) (enteredFor : Option String)
  | remove (id : String)
deriving DecidableEq, Repr

def KeyChange.next (clock : Nat) (keys : ConsoleKeys) : KeyChange → Option ConsoleKeys
  | .set id value enteredFor => some (assign id ⟨value, enteredFor, clock⟩ keys)
  | .remove id => if (keys.lookup id).isSome then some (without id keys) else none

structure Sent where
  credential : Credential
  /-- What the requested URL begins with, its path after it. -/
  base : String
deriving DecidableEq, Repr

structure ProxyState where
  providers : Guarded Providers
  keys : Guarded ConsoleKeys
  /-- History: how many keys have been set, and what went where. -/
  clock : Nat
  sent : List Sent

/-- The awaits that touch neither store. -/
inductive Awaited
  | body
  | handle
  | budget
  | slot
deriving DecidableEq, Repr

structure UpstreamAnswer where
  status : Nat
  /-- The body has the shape the call asked for. -/
  expected : Bool
deriving DecidableEq, Repr

def UpstreamAnswer.ok (answer : UpstreamAnswer) : Bool :=
  decide (200 ≤ answer.status ∧ answer.status < 300)

inductive Call
  | awaits (what : Awaited)
  | writable (file : StoreFile)
  | inspects (id : String)
  | routes (name : String)
  /-- `keyStore.get(id)`, for a call to the upstream of the entry looked up before. -/
  | resolvesKey (id upstream : String)
  | resolvesForm (input : FormInput)
  | fetches (credential : Credential) (base : String)
  | joins (file : StoreFile) (id : String)
  | turn (file : StoreFile)
  | landsProvider (change : ProviderChange)
  | landsKey (change : KeyChange)
deriving DecidableEq, Repr

/-- What one stretch of code reads about a provider. -/
structure Inspection where
  effective : Option ResolvedProvider
  previous : Option StoreProvider
  entries : Providers
  hasKey : Bool
  /-- History: how many keys have been set. -/
  clock : Nat

@[reducible]
def Call.Answer : Call → Type
  | .awaits _ | .turn _ => Unit
  | .writable _ | .landsProvider _ => Bool
  | .inspects _ => Inspection
  | .routes _ => Option ProviderConfig
  | .resolvesKey _ _ => Option ConsoleKey
  | .resolvesForm _ => Credential
  | .fetches _ _ => UpstreamAnswer
  -- History: the upstream the provider has when the change is asked for.
  | .joins _ _ => Option String
  -- Whether a key was there, and how many had been set.
  | .landsKey _ => Bool × Nat

inductive Thrown
  | admin (error : AdminApiError)
  | proxy (status : Nat) (code : String)
  | store (file : StoreFile)
  | upstream
  | awaited (what : Awaited)
deriving DecidableEq, Repr

inductive Input
  | proceeds
  | fails
  | answers (answer : UpstreamAnswer)
deriving DecidableEq, Repr

namespace ProxyState

variable (state : ProxyState)

def inspect (site : Site) (id : String) : Inspection where
  effective := site.get state.providers.state id
  previous := state.providers.state.lookup id
  entries := state.providers.state
  hasKey := (state.keys.state.lookup id).isSome
  clock := state.clock

def upstreamOf (site : Site) (id : String) : Option String :=
  site.upstreamOf state.providers.state id

def join (file : StoreFile) (thread : Nat) : ProxyState :=
  match file with
  | .providers => { state with providers := state.providers.join thread }
  | .keys => { state with keys := state.keys.join thread }

def turn (file : StoreFile) (thread : Nat) : Option ProxyState :=
  match file with
  | .providers =>
      (state.providers.turn thread).map fun providers => { state with providers := providers }
  | .keys => (state.keys.turn thread).map fun keys => { state with keys := keys }

/-- The write of the provider store settles. -/
def settleProvider (thread : Nat) (next : Providers → Option Providers) : Option ProxyState :=
  (state.providers.settle thread next).map fun providers => { state with providers := providers }

def settleKey (thread : Nat) (next : ConsoleKeys → Option ConsoleKeys) (clock : Nat) :
    Option ProxyState :=
  (state.keys.settle thread next).map fun keys => { state with keys := keys, clock := clock }

end ProxyState

/-- How many keys have been set once the change has landed. -/
def KeyChange.clock (clock : Nat) : KeyChange → Nat
  | .set _ _ _ => clock + 1
  | .remove _ => clock

/-- A call that proceeds. -/
def Site.proceed (site : Site) (thread : Nat) (state : ProxyState) :
    (call : Call) → Option (ProxyState × Except Thrown call.Answer)
  | .awaits _ => some (state, .ok ())
  | .writable _ => some (state, .ok true)
  | .inspects id => some (state, .ok (state.inspect site id))
  | .routes name => some (state, .ok (site.getRoutable state.providers.state name))
  | .resolvesKey id _ => some (state, .ok (state.keys.state.lookup id))
  | .resolvesForm input =>
      some (state,
        (site.resolveFormCredential state.providers.state state.keys.state input).mapError .admin)
  | .fetches _ _ => none
  | .joins file id => some (state.join file thread, .ok (state.upstreamOf site id))
  | .turn file => (state.turn file thread).map fun moved => (moved, .ok ())
  | .landsProvider change =>
      if change.reserved then
        (state.settleProvider thread fun _ => none).map fun moved =>
          (moved, .error (.store .providers))
      else
        (state.settleProvider thread change.next).map fun moved =>
          (moved, .ok (change.next state.providers.state).isSome)
  | .landsKey change =>
      (state.settleKey thread (KeyChange.next state.clock · change)
        (change.clock state.clock)).map fun moved =>
          (moved, .ok ((KeyChange.next state.clock state.keys.state change).isSome, state.clock))

/-- A call that fails: a probe answers no, a write that fails leaves the store as it was. -/
def Site.fail (thread : Nat) (state : ProxyState) :
    (call : Call) → Option (ProxyState × Except Thrown call.Answer)
  | .awaits what => some (state, .error (.awaited what))
  | .writable _ => some (state, .ok false)
  | .fetches credential base =>
      some ({ state with sent := state.sent ++ [⟨credential, base⟩] }, .error .upstream)
  | .landsProvider change =>
      if (change.next state.providers.state).isSome then
        (state.settleProvider thread fun _ => none).map fun moved =>
          (moved, .error (.store .providers))
      else none
  | .landsKey change =>
      if (KeyChange.next state.clock state.keys.state change).isSome then
        (state.settleKey thread (fun _ => none) state.clock).map fun moved =>
          (moved, .error (.store .keys))
      else none
  | .inspects _ | .routes _ | .resolvesKey _ _ | .resolvesForm _ | .joins _ _ | .turn _ => none

def Site.perform (site : Site) (thread : Nat) (call : Call) (input : Input)
    (state : ProxyState) : Option (ProxyState × Except Thrown call.Answer) :=
  match input, call with
  | .proceeds, call => site.proceed thread state call
  | .fails, call => Site.fail thread state call
  | .answers answer, .fetches credential base =>
      some ({ state with sent := state.sent ++ [⟨credential, base⟩] }, .ok answer)
  | .answers _, _ => none

/-- A request that is gone leaves both queues. -/
def Site.machine (site : Site) :
    Interleaving.Machine Nat Input ProxyState Call Call.Answer Thrown where
  performs := site.perform
  abandons thread state :=
    { state with
      providers := state.providers.leave thread
      keys := state.keys.leave thread }

end NextTime.LlmProxy
