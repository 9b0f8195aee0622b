import NextTime.Library.OwnProperties
import Mathlib.Data.List.DropRight

/-
The providers of llm-proxy and their keys: the merged catalog of the operator's
yaml and the provider store, the comparison key of an upstream, the checks of
the wire schemas, and the credential rules of the admin API. Everything here
reads the two stores and changes neither.
-/

namespace NextTime.LlmProxy

open OwnProperties (assign without)

inductive ProviderApiKind
  | openaiCompletions
  | openaiResponses
  | anthropicMessages
deriving DecidableEq, Repr

structure ProviderConfig where
  api : ProviderApiKind
  upstreamBaseUrl : String
  apiKeyEnv : Option String
  models : List String
deriving DecidableEq, Repr

inductive TestOutcome
  | ok
  | error
  | skipped
deriving DecidableEq, Repr

structure StoreTestResult where
  model : String
  completion : TestOutcome
  toolCall : TestOutcome
deriving DecidableEq, Repr

structure StoreProvider extends ProviderConfig where
  enabled : Bool
  lastTest : Option StoreTestResult
deriving DecidableEq, Repr

/-- A console key. What it was entered for and when is history: no code reads either. -/
structure ConsoleKey where
  value : String
  /-- The upstream of the provider's catalog entry when the key was set. -/
  enteredFor : Option String
  /-- How many keys had been set before this one. -/
  serial : Nat
deriving DecidableEq, Repr

abbrev Providers := List (String × StoreProvider)
abbrev ConsoleKeys := List (String × ConsoleKey)

/-- What the platform's `new URL` says about a text it accepts. -/
structure ParsedUrl where
  href : String
  protocol : String
  username : String
  password : String
  search : String
  hash : String
deriving DecidableEq, Repr

/-- What one process of llm-proxy is started with, and the platform's URL parser. -/
structure Site where
  newUrl : String → Option ParsedUrl
  fileProviders : List (String × ProviderConfig)
  resolveApiKey : String → Option String

/-- `text.replace(/\/+$/, '')`. -/
def trimSlashes (text : String) : String :=
  String.ofList (text.toList.rdropWhile (· = '/'))

def Site.upstreamKey (site : Site) (url : String) : String :=
  match site.newUrl url with
  | some parsed => trimSlashes parsed.href
  | none => url

def Site.upstreamBaseUrlProblem (site : Site) (raw : String) : Option String :=
  match site.newUrl raw with
  | none => some "must be an absolute URL"
  | some url =>
      if url.protocol ≠ "http:" ∧ url.protocol ≠ "https:" then some "must use http or https"
      else if url.username ≠ "" ∨ url.password ≠ "" then
        some "must not contain a user name or password"
      else if url.search ≠ "" ∨ '?' ∈ raw.toList then
        some "must not contain a query string (?)"
      else if url.hash ≠ "" ∨ '#' ∈ raw.toList then
        some "must not contain a fragment (#)"
      else none

/-- The URL of a request is its upstream, with or without the slashes at its end, and then a
path of its own. -/
def Begins (base upstream : String) : Prop :=
  base = upstream ∨ base = trimSlashes upstream

instance (base upstream : String) : Decidable (Begins base upstream) :=
  inferInstanceAs (Decidable (_ ∨ _))

theorem trimSlashes_trimSlashes (text : String) :
    trimSlashes (trimSlashes text) = trimSlashes text := by
  rw [trimSlashes, trimSlashes, String.toList_ofList, List.rdropWhile_idempotent]

/-! ### The merged catalog -/

structure ResolvedProvider where
  id : String
  config : ProviderConfig
  enabled : Bool
  /-- A store entry shadows a yaml entry of the same name. -/
  overridesFile : Bool
deriving DecidableEq, Repr

def fromStore (id : String) (entry : StoreProvider) (overridesFile : Bool) : ResolvedProvider :=
  ⟨id, entry.toProviderConfig, entry.enabled, overridesFile⟩

def fromFile (id : String) (config : ProviderConfig) : ResolvedProvider :=
  ⟨id, config, true, false⟩

/-- Every provider of both sources: the yaml's in its order, then those only the store has. -/
def Site.resolve (site : Site) (store : Providers) : List ResolvedProvider :=
  (site.fileProviders.map fun (id, config) =>
    match store.lookup id with
    | some override => fromStore id override true
    | none => fromFile id config) ++
  (store.filter fun (id, _) => (site.fileProviders.lookup id).isNone).map fun (id, entry) =>
    fromStore id entry false

def Site.get (site : Site) (store : Providers) (id : String) : Option ResolvedProvider :=
  (site.resolve store).find? fun provider => decide (provider.id = id)

def Site.isRoutable (site : Site) (provider : ResolvedProvider) : Bool :=
  provider.enabled && (site.upstreamBaseUrlProblem provider.config.upstreamBaseUrl).isNone

def Site.getRoutable (site : Site) (store : Providers) (id : String) : Option ProviderConfig :=
  match site.get store id with
  | some provider => if site.isRoutable provider then some provider.config else none
  | none => none

/-- The upstream of the effective catalog entry. -/
def Site.upstreamOf (site : Site) (store : Providers) (id : String) : Option String :=
  (site.get store id).map (·.config.upstreamBaseUrl)

/-- Two upstreams are one: both known and of one comparison key. -/
def Site.SameUpstream (site : Site) (first second : Option String) : Prop :=
  ∃ one other, first = some one ∧ second = some other ∧
    site.upstreamKey one = site.upstreamKey other

instance (site : Site) (first second : Option String) :
    Decidable (site.SameUpstream first second) :=
  match first, second with
  | some one, some other =>
      decidable_of_iff (site.upstreamKey one = site.upstreamKey other)
        (by simp [Site.SameUpstream])
  | none, _ => isFalse (by simp [Site.SameUpstream])
  | some _, none => isFalse (by simp [Site.SameUpstream])

theorem find_named {Value : Type} {resolved : String × Value → ResolvedProvider}
    (named : ∀ property, (resolved property).id = property.1) (id : String)
    (properties : List (String × Value)) :
    ((properties.map resolved).find? fun provider => decide (provider.id = id)) =
      (properties.lookup id).map fun value => resolved (id, value) := by
  induction properties with
  | nil => rfl
  | cons property properties ih =>
      rw [List.map_cons, List.find?_cons, named, List.lookup_cons]
      by_cases same : property.1 = id
      · subst same
        simp
      · rw [decide_eq_false same, beq_false_of_ne (Ne.symm same)]
        exact ih

/-- One provider of the catalog: the store's entry, else the yaml's. -/
theorem Site.get_eq (site : Site) (store : Providers) (id : String) :
    site.get store id =
      match store.lookup id with
      | some entry => some (fromStore id entry (site.fileProviders.lookup id).isSome)
      | none => (site.fileProviders.lookup id).map (fromFile id) := by
  rw [get, resolve, List.find?_append, find_named (fun property => by dsimp only; split <;> rfl),
    find_named (fun _ => rfl), OwnProperties.lookup_filter fun key =>
      (site.fileProviders.lookup key).isNone]
  cases site.fileProviders.lookup id with
  | none => cases store.lookup id <;> rfl
  | some config => cases found : store.lookup id <;> simp [found]

namespace Site

variable (site : Site)

theorem upstreamOf_eq (store : Providers) (id : String) :
    site.upstreamOf store id =
      match store.lookup id with
      | some entry => some entry.upstreamBaseUrl
      | none => (site.fileProviders.lookup id).map (·.upstreamBaseUrl) := by
  rw [upstreamOf, get_eq]
  cases store.lookup id with
  | none => cases site.fileProviders.lookup id <;> rfl
  | some entry => rfl

@[simp]
theorem upstreamOf_assign_self (store : Providers) (id : String) (entry : StoreProvider) :
    site.upstreamOf (assign id entry store) id = some entry.upstreamBaseUrl := by
  rw [upstreamOf_eq, OwnProperties.lookup_assign_self]

theorem upstreamOf_assign_of_ne {id other : String} (different : other ≠ id) (store : Providers)
    (entry : StoreProvider) :
    site.upstreamOf (assign id entry store) other = site.upstreamOf store other := by
  rw [upstreamOf_eq, upstreamOf_eq, OwnProperties.lookup_assign_of_ne different]

/-- An entry written back with the upstream it has leaves the upstream of every provider. -/
theorem upstreamOf_assign_same {store : Providers} {id : String} {entry rewritten : StoreProvider}
    (found : store.lookup id = some entry)
    (same : rewritten.upstreamBaseUrl = entry.upstreamBaseUrl) (other : String) :
    site.upstreamOf (assign id rewritten store) other = site.upstreamOf store other := by
  by_cases here : other = id
  · subst here
    rw [upstreamOf_assign_self, upstreamOf_eq, found, same]
  · exact site.upstreamOf_assign_of_ne here store rewritten

@[simp]
theorem upstreamOf_without_self (store : Providers) (id : String) :
    site.upstreamOf (without id store) id =
      (site.fileProviders.lookup id).map (·.upstreamBaseUrl) := by
  rw [upstreamOf_eq, OwnProperties.lookup_without_self]

theorem upstreamOf_without_of_ne {id other : String} (different : other ≠ id)
    (store : Providers) :
    site.upstreamOf (without id store) other = site.upstreamOf store other := by
  rw [upstreamOf_eq, upstreamOf_eq, OwnProperties.lookup_without_of_ne different]

theorem SameUpstream.trans {site : Site} {first second third : Option String}
    (left : site.SameUpstream first second) (right : site.SameUpstream second third) :
    site.SameUpstream first third := by
  obtain ⟨one, middle, atFirst, atSecond, equal⟩ := left
  obtain ⟨again, other, atSecond', atThird, equal'⟩ := right
  have : middle = again := Option.some.inj (atSecond.symm.trans atSecond')
  subst this
  exact ⟨one, other, atFirst, atThird, equal.trans equal'⟩

end Site

/-! ### What the wire schemas accept -/

/-- `^[a-z0-9][a-z0-9-]{0,62}$`. -/
def acceptsProviderId (id : String) : Bool :=
  let slug (letter : Char) := ('a' ≤ letter ∧ letter ≤ 'z') ∨ ('0' ≤ letter ∧ letter ≤ '9')
  match id.toList with
  | [] => false
  | first :: rest =>
      decide (slug first) && decide (rest.length ≤ 62) &&
        rest.all fun letter => decide (slug letter ∨ letter = '-')

structure LlmProviderInput where
  id : String
  api : ProviderApiKind
  upstreamBaseUrl : String
  apiKeyEnv : Option String
  models : List String
  enabled : Option Bool
deriving DecidableEq, Repr

/-- What white space is to `String.prototype.trim`. -/
def isWhiteSpace (letter : Char) : Bool :=
  decide ((0x09 ≤ letter.toNat ∧ letter.toNat ≤ 0x0d) ∨
    letter.toNat ∈ [0x20, 0xa0, 0x1680, 0x2028, 0x2029, 0x202f, 0x205f, 0x3000, 0xfeff] ∨
    (0x2000 ≤ letter.toNat ∧ letter.toNat ≤ 0x200a))

def trim (text : String) : String :=
  String.ofList ((text.toList.dropWhile isWhiteSpace).rdropWhile isWhiteSpace)

def isHeaderSafeProviderKey (value : String) : Bool :=
  value.toList.all fun letter => decide (0x21 ≤ letter.toNat ∧ letter.toNat ≤ 0x7e)

def secretMaxLength : Nat := 4096

/-- The key a `/secret` body or a form carries, as it is stored or sent. -/
def acceptKey (raw : String) : Option String :=
  let key := trim raw
  if key ≠ "" ∧ key.length ≤ secretMaxLength ∧ isHeaderSafeProviderKey key = true then some key
  else none

def Site.acceptsInput (site : Site) (input : LlmProviderInput) : Bool :=
  acceptsProviderId input.id && (site.upstreamBaseUrlProblem input.upstreamBaseUrl).isNone &&
    decide (input.models ≠ []) && decide (input.models.length ≤ 200)

/-- A form of `/model-discovery` or `/model-probe`. -/
structure FormInput where
  id : String
  api : ProviderApiKind
  upstreamBaseUrl : String
  key : Option String
  apiKeyEnv : Option String
deriving DecidableEq, Repr

/-- The form as its schema reads it: the key trimmed, the base a bare base. -/
def Site.acceptForm (site : Site) (input : FormInput) : Option FormInput :=
  if acceptsProviderId input.id && (site.upstreamBaseUrlProblem input.upstreamBaseUrl).isNone then
    match input.key with
    | none => some input
    | some raw => (acceptKey raw).map fun key => { input with key := some key }
  else none

/-! ### Credentials -/

inductive ProviderKeyCheck
  | ok (key : String)
  | missing
  | invalid
deriving DecidableEq, Repr

def checkProviderKey (raw : Option String) : ProviderKeyCheck :=
  let key := trim (raw.getD "")
  if key = "" then .missing
  else if isHeaderSafeProviderKey key then .ok key
  else .invalid

/-- A key and where it came from. -/
inductive Credential
  | inline (value : String)
  | console (key : ConsoleKey)
  | env (value : String)
deriving DecidableEq, Repr

def Credential.value : Credential → String
  | .inline value | .env value => value
  | .console key => key.value

structure AdminApiError where
  status : Nat
  code : String
deriving DecidableEq, Repr

def reservedProviderNames : List String := ["admin", "healthz", "internal"]

def inputToStoreEntry (input : LlmProviderInput) (previous : Option StoreProvider) :
    StoreProvider where
  api := input.api
  upstreamBaseUrl := input.upstreamBaseUrl
  apiKeyEnv := input.apiKeyEnv
  models := input.models
  enabled := input.enabled.getD true
  lastTest := previous.bind (·.lastTest)

/-- The environment key of a name, when it holds one. -/
def Site.envKey (site : Site) (name : String) : Option String :=
  (site.resolveApiKey name).filter (· ≠ "")

/-- An environment key goes only to an upstream the configured set already pairs it with. -/
def Site.assertEnvKeyPairing (site : Site) (store : Providers) (id : String)
    (apiKeyEnv : Option String) (upstreamBaseUrl : String) (previous : Option ProviderConfig) :
    Except AdminApiError Unit :=
  match apiKeyEnv with
  | none => .ok ()
  | some name =>
      let target := site.upstreamKey upstreamBaseUrl
      let pairs (config : ProviderConfig) : Bool :=
        decide (config.apiKeyEnv = some name) &&
          decide (site.upstreamKey config.upstreamBaseUrl = target)
      if previous.any pairs then .ok ()
      else if (site.envKey name).isNone then .ok ()
      else if site.fileProviders.any fun (_, config) => pairs config then .ok ()
      else if store.any fun (storeId, entry) => storeId ≠ id && pairs entry.toProviderConfig then
        .ok ()
      else .error ⟨409, "api_key_env_not_allowed"⟩

/-- The typed key, else the stored key of the same upstream, else an environment key. -/
def Site.resolveFormCredential (site : Site) (store : Providers) (keys : ConsoleKeys)
    (input : FormInput) : Except AdminApiError Credential :=
  let existing := site.get store input.id
  let sameUpstream := existing.any fun provider =>
    site.upstreamKey provider.config.upstreamBaseUrl = site.upstreamKey input.upstreamBaseUrl
  match input.key with
  | some key => .ok (.inline key)
  | none =>
      match if sameUpstream then keys.lookup input.id else none with
      | some key => .ok (.console key)
      | none =>
          let envName :=
            input.apiKeyEnv <|>
              if sameUpstream then existing.bind (·.config.apiKeyEnv) else none
          match envName.bind site.envKey with
          | none => .error ⟨409, "credential_missing"⟩
          | some value => do
              site.assertEnvKeyPairing store input.id envName input.upstreamBaseUrl
                (existing.map (·.config))
              .ok (.env value)

/-- A form gets a stored key only for the upstream the provider has. -/
theorem Site.resolveFormCredential_console {site : Site} {store : Providers} {keys : ConsoleKeys}
    {input : FormInput} {key : ConsoleKey}
    (resolved : site.resolveFormCredential store keys input = .ok (.console key)) :
    keys.lookup input.id = some key ∧
      site.SameUpstream (site.upstreamOf store input.id) (some input.upstreamBaseUrl) := by
  simp only [resolveFormCredential] at resolved
  split at resolved
  next => cases resolved
  next =>
    split at resolved
    next stored held =>
      cases resolved
      split at held
      next same =>
        obtain ⟨provider, found, equal⟩ := (Option.any_eq_true ..).mp same
        refine ⟨held, provider.config.upstreamBaseUrl, input.upstreamBaseUrl, ?_, rfl,
          of_decide_eq_true equal⟩
        rw [upstreamOf, found, Option.map_some]
      next => cases held
    next =>
      split at resolved
      next => cases resolved
      next value _ =>
        cases paired : site.assertEnvKeyPairing store input.id _ input.upstreamBaseUrl _ with
        | error refused => rw [paired] at resolved; cases resolved
        | ok => rw [paired] at resolved; cases resolved

end NextTime.LlmProxy
