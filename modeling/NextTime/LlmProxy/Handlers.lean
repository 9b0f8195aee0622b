import NextTime.LlmProxy.Stores

/-
The requests of llm-proxy, from the first read of a provider to the last call:
the admin API's routes and a proxied model request. The rewrites of models.json
and of the health file, the audit rows and the answers' bodies are left out:
none of them touches a store or sends a key.
-/

namespace NextTime.LlmProxy

open Interleaving
open Interleaving.Program (call each)

abbrev Script := Program Call Call.Answer Thrown

/-- One call of this program. -/
abbrev query (op : Call) : Script op.Answer :=
  call op

def refuse {Result : Type} (status : Nat) (code : String) : Script Result :=
  throw (.admin ⟨status, code⟩)

/-- `.catch(...)` around a best-effort write. -/
def bestEffort (body : Script Unit) : Script Unit :=
  tryCatch body fun _ => pure ()

def requireWritable (file : StoreFile) : Script Unit := do
  if ← query (.writable file) then
    return
  else
    refuse 503 "store_unwritable"

def parseId (id : String) : Script Unit :=
  if acceptsProviderId id then return
  else refuse 400 "invalid_id"

def requireProvider (id : String) : Script ResolvedProvider := do
  let seen ← query (.inspects id)
  match seen.effective with
  | some provider => return provider
  | none => refuse 404 "not_found"

/-- `ProviderStore.upsert`, `.remove`, `.recordTest` and `.clearTest`. -/
def changeProvider (id : String) (change : ProviderChange) : Script Bool := do
  let _ ← query (.joins .providers id)
  query (.turn .providers)
  query (.landsProvider change)

/-- `KeyStore.remove`; also answers how many keys had been set by then. -/
def removeKey (id : String) : Script (Bool × Nat) := do
  let _ ← query (.joins .keys id)
  query (.turn .keys)
  query (.landsKey (.remove id))

/-- `KeyStore.set`. -/
def setKey (id value : String) : Script Unit := do
  let upstream ← query (.joins .keys id)
  query (.turn .keys)
  let _ ← query (.landsKey (.set id value upstream))

/-- Runs before the provider write; answers how many keys had been set by then. -/
def clearConsoleKeyForNewUpstream (id : String) (seen : Inspection) : Script Nat := do
  if seen.hasKey then
    requireWritable .keys
    let removed ← removeKey id
    return removed.2
  else
    return seen.clock

def forgetTest (id : String) : Script Unit :=
  bestEffort do
    let _ ← changeProvider id (.clearTest id)

def liftExcept {Result : Type} (checked : Except AdminApiError Result) : Script Result :=
  match checked with
  | .ok result => return result
  | .error error => throw (.admin error)

/-! ### Calls to an upstream -/

/-- `runProviderTest`: a completion, a forced tool call, and its one retry. -/
def runProviderTest (provider : ProviderConfig) (model : String) (credential : Credential) :
    Script StoreTestResult :=
  match checkProviderKey (some credential.value) with
  | .missing | .invalid => return ⟨model, .error, .skipped⟩
  | .ok _ => do
      let completed ← tryCatch
        (do
          let first ← query (.fetches credential provider.upstreamBaseUrl)
          return first.ok && first.expected)
        fun _ => return false
      if completed then
        let called ← tryCatch
          (do
            let forcible := decide (provider.api ≠ .anthropicMessages)
            let second ← query (.fetches credential provider.upstreamBaseUrl)
            if forcible && !second.ok && (second.status = 400 || second.status = 422) then
              let third ← query (.fetches credential provider.upstreamBaseUrl)
              return third.ok && third.expected
            else
              return second.ok && second.expected)
          fun _ => return false
        return ⟨model, .ok, if called then .ok else .error⟩
      else
        return ⟨model, .error, .skipped⟩

def listUpstreamModels (upstreamBaseUrl : String) (credential : Credential) : Script Unit :=
  match checkProviderKey (some credential.value) with
  | .missing | .invalid => return
  | .ok _ => do
      let _ ← query (.fetches credential (trimSlashes upstreamBaseUrl))

variable (site : Site)

def discoverModels (input : FormInput) : Script Unit := do
  query (.awaits .body)
  match site.acceptForm input with
  | none => refuse 400 "invalid_body"
  | some form =>
      let credential ← query (.resolvesForm form)
      query (.awaits .slot)
      listUpstreamModels (trimSlashes form.upstreamBaseUrl) credential

def probeMaxModels : Nat := 6

def probeModels (input : FormInput) (models : List String) : Script Unit := do
  query (.awaits .body)
  match (site.acceptForm input).filter fun _ =>
      models ≠ [] && decide (models.length ≤ probeMaxModels) with
  | none => refuse 400 "invalid_body"
  | some form =>
      let credential ← query (.resolvesForm form)
      let config : ProviderConfig :=
        { api := form.api, upstreamBaseUrl := trimSlashes form.upstreamBaseUrl
          apiKeyEnv := none, models := models.eraseDups }
      query (.awaits .slot)
      each (fun model => do let _ ← runProviderTest config model credential) config.models

def testProvider (id : String) (picked : Option String) : Script Unit := do
  let provider ← requireProvider id
  query (.awaits .body)
  match picked <|> provider.config.models.head? with
  | none => refuse 400 "model_not_allowed"
  | some model =>
      if model ∉ provider.config.models then
        refuse 400 "model_not_allowed"
      else if (site.upstreamBaseUrlProblem provider.config.upstreamBaseUrl).isSome then
        refuse 409 "upstream_base_url_invalid"
      else
        let stored ← query (.resolvesKey id provider.config.upstreamBaseUrl)
        match stored.map .console <|>
            (provider.config.apiKeyEnv.bind site.envKey).map .env with
        | none => refuse 409 "credential_missing"
        | some credential =>
            query (.awaits .slot)
            let result ← runProviderTest provider.config model credential
            bestEffort do
              let _ ← changeProvider id (.recordTest id result)

inductive HttpMethod
  | get
  | post
  | other
deriving DecidableEq, Repr

structure ModelRequest where
  provider : String
  method : HttpMethod
  remainderPath : String
  model : String
deriving DecidableEq, Repr

def ProviderApiKind.actionPath : ProviderApiKind → String
  | .openaiCompletions => "/v1/chat/completions"
  | .openaiResponses => "/v1/responses"
  | .anthropicMessages => "/v1/messages"

/-- `handleRequest`, on the model routes. -/
def handleRequest (request : ModelRequest) : Script Unit := do
  match ← query (.routes request.provider) with
  | none => throw (.proxy 404 "unknown_provider")
  | some provider =>
      query (.awaits .handle)
      if request.method = .get ∧ request.remainderPath = "/v1/models" then
        return
      else if request.remainderPath ≠ provider.api.actionPath then
        throw (.proxy 404 "not_found")
      else if request.method ≠ .post then
        throw (.proxy 405 "method_not_allowed")
      else
        query (.awaits .body)
        if request.model ∉ provider.models then
          throw (.proxy 403 "model_not_allowed")
        else
          query (.awaits .budget)
          let stored ← query (.resolvesKey request.provider provider.upstreamBaseUrl)
          match stored.map .console <|> (provider.apiKeyEnv.bind site.resolveApiKey).map .env with
          | none => throw (.proxy 502 "upstream_not_configured")
          | some credential =>
              match checkProviderKey (some (Credential.value credential)) with
              | .invalid => throw (.proxy 502 "upstream_key_invalid")
              | .missing => throw (.proxy 502 "upstream_not_configured")
              | .ok _ =>
                  let _ ← query (.fetches credential provider.upstreamBaseUrl)

/-! ### The provider routes -/

def createProvider (input : LlmProviderInput) : Script Unit := do
  requireWritable .providers
  query (.awaits .body)
  if !site.acceptsInput input then
    refuse 400 "invalid_body"
  else if input.id ∈ reservedProviderNames then
    refuse 409 "reserved_id"
  else
    let seen ← query (.inspects input.id)
    if seen.effective.isSome then
      refuse 409 "provider_exists"
    else
      let entry := inputToStoreEntry input none
      liftExcept (site.assertEnvKeyPairing seen.entries input.id entry.apiKeyEnv
        entry.upstreamBaseUrl none)
      let cleared ← clearConsoleKeyForNewUpstream input.id seen
      let _ ← changeProvider input.id (.upsert input.id entry (some cleared))
      let _ ← requireProvider input.id

def replaceProvider (id : String) (input : LlmProviderInput) : Script Unit := do
  requireWritable .providers
  let existing ← requireProvider id
  query (.awaits .body)
  if !site.acceptsInput input then
    refuse 400 "invalid_body"
  else if input.id ≠ id then
    refuse 400 "id_mismatch"
  else
    let seen ← query (.inspects id)
    let entry := inputToStoreEntry input seen.previous
    liftExcept (site.assertEnvKeyPairing seen.entries id entry.apiKeyEnv entry.upstreamBaseUrl
      (some existing.config))
    if site.upstreamKey existing.config.upstreamBaseUrl ≠
        site.upstreamKey entry.upstreamBaseUrl then
      let cleared ← clearConsoleKeyForNewUpstream id seen
      let _ ← changeProvider id (.upsert id entry (some cleared))
    else
      let _ ← changeProvider id (.upsert id entry none)
    let _ ← requireProvider id

/-- The override goes first; its key is removed afterwards, best effort. -/
def deleteProvider (id : String) : Script Unit := do
  requireWritable .providers
  let seen ← query (.inspects id)
  if seen.effective.isNone then
    refuse 404 "not_found"
  else if seen.previous.isNone then
    refuse 409 "provider_from_file"
  else
    let _ ← changeProvider id (.remove id)
    bestEffort do
      let _ ← removeKey id
    forgetTest id

def putSecret (id raw : String) : Script Unit := do
  requireWritable .keys
  let _ ← requireProvider id
  query (.awaits .body)
  match acceptKey raw with
  | none => refuse 400 "invalid_body"
  | some key =>
      setKey id key
      forgetTest id
      let _ ← requireProvider id

def deleteSecret (id : String) : Script Unit := do
  requireWritable .keys
  let _ ← requireProvider id
  let _ ← removeKey id
  forgetTest id
  let _ ← requireProvider id

inductive Entry
  | createProvider (input : LlmProviderInput)
  | replaceProvider (id : String) (input : LlmProviderInput)
  | deleteProvider (id : String)
  | putSecret (id raw : String)
  | deleteSecret (id : String)
  | testProvider (id : String) (model : Option String)
  | discoverModels (input : FormInput)
  | probeModels (input : FormInput) (models : List String)
  | modelRequest (request : ModelRequest)
deriving DecidableEq, Repr

def Site.script (site : Site) : Entry → Script Unit
  | .createProvider input => createProvider site input
  | .replaceProvider id input => do parseId id; replaceProvider site id input
  | .deleteProvider id => do parseId id; deleteProvider id
  | .putSecret id raw => do parseId id; putSecret id raw
  | .deleteSecret id => do parseId id; deleteSecret id
  | .testProvider id model => do parseId id; testProvider site id model
  | .discoverModels input => discoverModels site input
  | .probeModels input models => probeModels site input models
  | .modelRequest request => handleRequest site request

abbrev ProxyPool := Pool Nat ProxyState Call Call.Answer Thrown
abbrev ProxyLabel := PoolLabel Nat Entry Input

/-- llm-proxy as it listens: whatever the two stores hold, nothing sent yet. -/
def listening (providers : Providers) (keys : ConsoleKeys) (clock : Nat) : ProxyPool where
  shared :=
    { providers := .settled providers, keys := .settled keys, clock := clock, sent := [] }
  rest := fun _ => .ends (.ok ())

end NextTime.LlmProxy
