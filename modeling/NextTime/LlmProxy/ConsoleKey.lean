import NextTime.LlmProxy.Handlers

/-
A console key goes only to the upstream it was entered for. Each request knows
two things: how many keys had been set when it cleared a provider's key, and
which key it has resolved for which upstream. Together with one fact about the
two stores, that a stored key fits the upstream its provider has, this decides
every call to an upstream.
-/

namespace NextTime.LlmProxy

open Exclusive
open Interleaving
open Interleaving.Program (call each)
open OwnProperties (assign without)

/-- What a request knows. -/
structure Mark where
  /-- It has cleared this provider's key; how many keys had been set by then. -/
  cleared : Option (String × Nat)
  /-- It has resolved this key for calls to this upstream. -/
  paired : Option (ConsoleKey × String)
deriving DecidableEq, Repr

namespace Mark

def idle : Mark := ⟨none, none⟩

variable (mark : Mark)

def permits : Call → Prop
  | .fetches (.console key) base =>
      ∃ upstream, mark.paired = some (key, upstream) ∧ Begins base upstream
  | .landsProvider (.upsert id _ (some clock)) => mark.cleared = some (id, clock)
  | _ => True

def answered : (op : Call) → op.Answer → Mark
  | .inspects id, seen =>
      if seen.hasKey then mark else { mark with cleared := some (id, seen.clock) }
  | .landsKey (.remove id), removed => { mark with cleared := some (id, removed.2) }
  | .resolvesKey _ upstream, found =>
      match found with
      | some key => { mark with paired := some (key, upstream) }
      | none => mark
  | .resolvesForm input, credential =>
      match credential with
      | .console key => { mark with paired := some (key, input.upstreamBaseUrl) }
      | .inline _ | .env _ => mark
  | _, _ => mark

def after (op : Call) : Except Thrown op.Answer → Mark
  | .ok answer => mark.answered op answer
  | .error _ => mark

end Mark

def keyDiscipline : Discipline Mark Call Call.Answer Thrown where
  permits := Mark.permits
  after := Mark.after

/-- A stored key was entered for the upstream its provider has, if it has one. -/
def ProxyState.KeysFit (site : Site) (state : ProxyState) : Prop :=
  ∀ id key upstream, state.keys.state.lookup id = some key →
    state.upstreamOf site id = some upstream →
      site.SameUpstream key.enteredFor (some upstream)

/-- What a mark says holds of the stores. -/
structure Mark.Fits (site : Site) (state : ProxyState) (mark : Mark) : Prop where
  cleared : ∀ id clock, mark.cleared = some (id, clock) → clock ≤ state.clock ∧
    ∀ key, state.keys.state.lookup id = some key → clock ≤ key.serial
  paired : ∀ key upstream, mark.paired = some (key, upstream) →
    site.SameUpstream key.enteredFor (some upstream)

theorem Mark.fits_idle (site : Site) (state : ProxyState) : Mark.idle.Fits site state where
  cleared id clock impossible := by cases impossible
  paired key upstream impossible := by cases impossible

/-- The URLs that begin with this base are of an upstream the key was entered for. -/
def Site.Home (site : Site) (key : ConsoleKey) (base : String) : Prop :=
  ∃ upstream, Begins base upstream ∧ site.SameUpstream key.enteredFor (some upstream)

/-- Every console key that was sent went to the upstream it was entered for. -/
def ProxyState.SentHome (site : Site) (state : ProxyState) : Prop :=
  ∀ key base, ⟨.console key, base⟩ ∈ state.sent → site.Home key base

structure ProxyState.Consistent (site : Site) (state : ProxyState) (marks : Nat → Mark) :
    Prop where
  keysFit : state.KeysFit site
  fits : ∀ thread, (marks thread).Fits site state
  sentHome : state.SentHome site
  freshProviders : state.providers.Fresh
  freshKeys : state.keys.Fresh

/-- Nothing overtakes: no write gives a provider another upstream under a key it has not
cleared, no key lands after its provider has moved, and no call takes the key of a
provider that has moved since it was looked up. -/
def Site.Unovertaken (site : Site) (_ : Nat) (op : Call) (input : Input) (state : ProxyState) :
    Prop :=
  input = .proceeds →
    match op with
    | .landsProvider (.upsert id entry cleared) =>
        site.SameUpstream (state.upstreamOf site id) (some entry.upstreamBaseUrl) ∨
          ((state.keys.state.lookup id).all fun key =>
            cleared.any fun clock => decide (key.serial < clock)) = true
    | .landsProvider (.remove id) =>
        state.keys.state.lookup id = none ∨ site.fileProviders.lookup id = none ∨
          site.SameUpstream (state.upstreamOf site id)
            ((site.fileProviders.lookup id).map (·.upstreamBaseUrl))
    | .landsKey (.set id _ enteredFor) =>
        state.upstreamOf site id = none ∨
          site.SameUpstream enteredFor (state.upstreamOf site id)
    | .resolvesKey id upstream =>
        state.keys.state.lookup id = none ∨
          site.SameUpstream (state.upstreamOf site id) (some upstream)
    | _ => True

instance (site : Site) (thread : Nat) (op : Call) (input : Input) (state : ProxyState) :
    Decidable (site.Unovertaken thread op input state) :=
  match op with
  | .landsProvider (.upsert _ _ _) => inferInstanceAs (Decidable (_ = _ → _ ∨ _))
  | .landsProvider (.remove _) => inferInstanceAs (Decidable (_ = _ → _ ∨ _ ∨ _))
  | .landsKey (.set _ _ _) => inferInstanceAs (Decidable (_ = _ → _ ∨ _))
  | .resolvesKey _ _ => inferInstanceAs (Decidable (_ = _ → _ ∨ _))
  | .landsProvider (.recordTest _ _) | .landsProvider (.clearTest _) | .landsKey (.remove _)
  | .awaits _ | .writable _ | .inspects _ | .routes _ | .resolvesForm _ | .fetches _ _
  | .joins _ _ | .turn _ => isTrue fun _ => trivial

namespace ProxyState

variable {site : Site} {state : ProxyState} {marks : Nat → Mark}

theorem Consistent.mark (consistent : state.Consistent site marks) {thread : Nat} {mark : Mark}
    (fits : mark.Fits site state) : state.Consistent site (Function.update marks thread mark) where
  keysFit := consistent.keysFit
  fits other := by
    by_cases here : other = thread
    · rw [here, Function.update_self]
      exact fits
    · rw [Function.update_of_ne here]
      exact consistent.fits other
  sentHome := consistent.sentHome
  freshProviders := consistent.freshProviders
  freshKeys := consistent.freshKeys

/-- A step that keeps the keys and what every provider's upstream is. -/
theorem Consistent.sameKeys (consistent : state.Consistent site marks) {moved : ProxyState}
    (keys : moved.keys.state = state.keys.state) (clock : moved.clock = state.clock)
    (sent : moved.sent = state.sent)
    (keysFit : moved.KeysFit site)
    (freshProviders : moved.providers.Fresh) (freshKeys : moved.keys.Fresh) :
    moved.Consistent site marks where
  keysFit := keysFit
  fits thread :=
    { cleared := by
        rw [keys, clock]
        exact (consistent.fits thread).cleared
      paired := (consistent.fits thread).paired }
  sentHome := by
    rw [SentHome, sent]
    exact consistent.sentHome
  freshProviders := freshProviders
  freshKeys := freshKeys

theorem KeysFit.congr (fit : state.KeysFit site) {moved : ProxyState}
    (keys : moved.keys.state = state.keys.state)
    (upstreams : ∀ id, moved.upstreamOf site id = state.upstreamOf site id) :
    moved.KeysFit site := by
  intro id key upstream found effective
  rw [keys] at found
  rw [upstreams] at effective
  exact fit id key upstream found effective

theorem KeysFit.same (fit : state.KeysFit site) {id : String} {key : ConsoleKey}
    (found : state.keys.state.lookup id = some key) {other : Option String}
    (same : site.SameUpstream (state.upstreamOf site id) other) :
    site.SameUpstream key.enteredFor other := by
  have paired := same
  obtain ⟨upstream, _, effective, _, _⟩ := paired
  rw [effective] at same
  exact (fit id key upstream found effective).trans same

/-- A provider write that lands. -/
theorem KeysFit.landsProvider (fit : state.KeysFit site) {marks : Nat → Mark} {thread : Nat}
    (fits : (marks thread).Fits site state) {change : ProviderChange} {moved : ProxyState}
    (permitted : (marks thread).permits (.landsProvider change))
    (unovertaken : site.Unovertaken thread (.landsProvider change) .proceeds state)
    (keys : moved.keys.state = state.keys.state)
    (providers : moved.providers.state =
      (change.next state.providers.state).getD state.providers.state) :
    moved.KeysFit site := by
  have still := unovertaken rfl
  cases change with
  | upsert id entry cleared =>
      intro other key upstream found effective
      rw [keys] at found
      rw [upstreamOf, providers, ProviderChange.next, Option.getD_some] at effective
      by_cases here : other = id
      · subst here
        rw [Site.upstreamOf_assign_self, Option.some.injEq] at effective
        subst effective
        cases still with
        | inl same => exact fit.same found same
        | inr before =>
            -- A key set before the clearing is not there any more.
            rw [found, Option.all_some, Option.any_eq_true] at before
            obtain ⟨clock, atClock, earlier⟩ := before
            rw [atClock] at permitted
            have later := (fits.cleared other clock permitted).2 key found
            have earlier := of_decide_eq_true earlier
            omega
      · rw [Site.upstreamOf_assign_of_ne _ here] at effective
        exact fit other key upstream found effective
  | remove id =>
      intro other key upstream found effective
      rw [keys] at found
      rw [upstreamOf, providers, ProviderChange.next] at effective
      split at effective
      next =>
        rw [Option.getD_some] at effective
        by_cases here : other = id
        · subst here
          rw [Site.upstreamOf_without_self] at effective
          rcases still with impossible | absent | same
          · rw [found] at impossible
            cases impossible
          · rw [absent] at effective
            cases effective
          · rw [effective] at same
            exact fit.same found same
        · rw [Site.upstreamOf_without_of_ne _ here] at effective
          exact fit other key upstream found effective
      next => exact fit other key upstream found effective
  | recordTest id result =>
      refine fit.congr keys fun other => ?_
      rw [upstreamOf, providers, ProviderChange.next]
      cases found : state.providers.state.lookup id with
      | none => rfl
      | some entry =>
          rw [Option.map_some, Option.getD_some]
          apply site.upstreamOf_assign_same found
          rfl
  | clearTest id =>
      refine fit.congr keys fun other => ?_
      rw [upstreamOf, providers, ProviderChange.next]
      cases found : state.providers.state.lookup id with
      | none => rfl
      | some entry =>
          by_cases tested : entry.lastTest.isSome = true
          · rw [Option.bind_some, if_pos tested, Option.getD_some]
            apply site.upstreamOf_assign_same found
            rfl
          · rw [Option.bind_some, if_neg tested]
            rfl

/-- A key change that lands. -/
theorem KeysFit.landsKey (fit : state.KeysFit site) {thread : Nat} {change : KeyChange}
    {moved : ProxyState}
    (unovertaken : site.Unovertaken thread (.landsKey change) .proceeds state)
    (providers : moved.providers.state = state.providers.state)
    (keys : moved.keys.state =
      (KeyChange.next state.clock state.keys.state change).getD state.keys.state) :
    moved.KeysFit site := by
  intro other key upstream found effective
  rw [upstreamOf, providers] at effective
  rw [keys] at found
  cases change with
  | set id value enteredFor =>
      rw [KeyChange.next, Option.getD_some] at found
      by_cases here : other = id
      · subst here
        rw [OwnProperties.lookup_assign_self, Option.some.injEq] at found
        subst found
        cases unovertaken rfl with
        | inl absent => cases absent.symm.trans effective
        | inr same => exact (show state.upstreamOf site other = some upstream from effective) ▸ same
      · rw [OwnProperties.lookup_assign_of_ne here] at found
        exact fit other key upstream found effective
  | remove id =>
      rw [KeyChange.next] at found
      split at found
      next =>
        rw [Option.getD_some] at found
        by_cases here : other = id
        · subst here
          rw [OwnProperties.lookup_without_self] at found
          cases found
        · rw [OwnProperties.lookup_without_of_ne here] at found
          exact fit other key upstream found effective
      next => exact fit other key upstream found effective

/-- A key there after a change was there before it, or is the newest. -/
theorem lookup_landsKey {clock : Nat} {keys : ConsoleKeys} {change : KeyChange} {id : String}
    {key : ConsoleKey}
    (found : ((KeyChange.next clock keys change).getD keys).lookup id = some key) :
    keys.lookup id = some key ∨ key.serial = clock := by
  cases change with
  | set other value enteredFor =>
      rw [KeyChange.next, Option.getD_some] at found
      by_cases here : id = other
      · subst here
        rw [OwnProperties.lookup_assign_self, Option.some.injEq] at found
        exact Or.inr (congrArg ConsoleKey.serial found.symm)
      · rw [OwnProperties.lookup_assign_of_ne here] at found
        exact Or.inl found
  | remove other =>
      rw [KeyChange.next] at found
      split at found
      next =>
        rw [Option.getD_some] at found
        by_cases here : id = other
        · subst here
          rw [OwnProperties.lookup_without_self] at found
          cases found
        · rw [OwnProperties.lookup_without_of_ne here] at found
          exact Or.inl found
      next => exact Or.inl found

/-- What a request knows of the keys outlives a key change. -/
theorem fits_landsKey {mark : Mark} (fits : mark.Fits site state) {change : KeyChange}
    {moved : ProxyState} (clock : moved.clock = change.clock state.clock)
    (keys : moved.keys.state =
      (KeyChange.next state.clock state.keys.state change).getD state.keys.state) :
    mark.Fits site moved where
  cleared id since atClear := by
    have known := fits.cleared id since atClear
    constructor
    · rw [clock]
      cases change with
      | set other value enteredFor => exact Nat.le_succ_of_le known.1
      | remove other => exact known.1
    · intro key found
      rw [keys] at found
      cases lookup_landsKey found with
      | inl before => exact known.2 key before
      | inr newest => exact newest ▸ known.1
  paired := fits.paired

/-! ### One call -/

theorem Consistent.join (consistent : state.Consistent site marks) (file : StoreFile)
    (thread : Nat) : (state.join file thread).Consistent site marks := by
  cases file with
  | providers =>
      exact consistent.sameKeys rfl rfl rfl consistent.keysFit
        (consistent.freshProviders.join thread) consistent.freshKeys
  | keys =>
      exact consistent.sameKeys rfl rfl rfl consistent.keysFit consistent.freshProviders
        (consistent.freshKeys.join thread)

theorem Consistent.turn (consistent : state.Consistent site marks) {file : StoreFile}
    {thread : Nat} {moved : ProxyState} (taken : state.turn file thread = some moved) :
    moved.Consistent site marks := by
  cases file with
  | providers =>
      obtain ⟨providers, turned, rfl⟩ := Option.map_eq_some_iff.mp taken
      obtain ⟨same, fresh⟩ := Guarded.turn_some turned
      refine consistent.sameKeys rfl rfl rfl ?_ fresh consistent.freshKeys
      exact consistent.keysFit.congr rfl fun id => by rw [upstreamOf, same, upstreamOf]
  | keys =>
      obtain ⟨keys, turned, rfl⟩ := Option.map_eq_some_iff.mp taken
      obtain ⟨same, fresh⟩ := Guarded.turn_some turned
      refine consistent.sameKeys same rfl rfl ?_ consistent.freshProviders fresh
      exact consistent.keysFit.congr same fun id => rfl

/-- The provider store settles with a state whose upstreams the keys fit. -/
theorem Consistent.settleProvider (consistent : state.Consistent site marks) {thread : Nat}
    {next : Providers → Option Providers} {moved : ProxyState}
    (settled : state.settleProvider thread next = some moved)
    (keysFit : moved.keys.state = state.keys.state →
      moved.providers.state = (next state.providers.state).getD state.providers.state →
        moved.KeysFit site) :
    moved.Consistent site marks := by
  obtain ⟨providers, settles, rfl⟩ := Option.map_eq_some_iff.mp settled
  obtain ⟨same, fresh⟩ := Guarded.settle_some consistent.freshProviders settles
  exact consistent.sameKeys rfl rfl rfl (keysFit rfl same) fresh consistent.freshKeys

/-- The provider store settles as it was. -/
theorem Consistent.providerKept (consistent : state.Consistent site marks) {thread : Nat}
    {moved : ProxyState} (settled : (state.settleProvider thread fun _ => none) = some moved) :
    moved.Consistent site marks := by
  refine consistent.settleProvider settled fun keys providers => ?_
  exact consistent.keysFit.congr keys fun id => by
    rw [upstreamOf, providers, Option.getD_none, upstreamOf]

theorem Consistent.keyKept (consistent : state.Consistent site marks) {thread : Nat}
    {moved : ProxyState}
    (settled : (state.settleKey thread (fun _ => none) state.clock) = some moved) :
    moved.Consistent site marks := by
  obtain ⟨keys, settles, rfl⟩ := Option.map_eq_some_iff.mp settled
  obtain ⟨same, fresh⟩ := Guarded.settle_some consistent.freshKeys settles
  refine consistent.sameKeys same rfl rfl ?_ consistent.freshProviders fresh
  exact consistent.keysFit.congr same fun id => rfl

theorem Consistent.landsKey (consistent : state.Consistent site marks) {thread : Nat}
    {change : KeyChange} {moved : ProxyState}
    (unovertaken : site.Unovertaken thread (.landsKey change) .proceeds state)
    (settled : state.settleKey thread (KeyChange.next state.clock · change)
      (change.clock state.clock) = some moved) :
    moved.Consistent site marks := by
  obtain ⟨keys, settles, rfl⟩ := Option.map_eq_some_iff.mp settled
  obtain ⟨same, fresh⟩ := Guarded.settle_some consistent.freshKeys settles
  exact
    { keysFit := consistent.keysFit.landsKey unovertaken rfl same
      fits := fun thread => fits_landsKey (consistent.fits thread) rfl same
      sentHome := consistent.sentHome
      freshProviders := consistent.freshProviders
      freshKeys := fresh }

/-- A key is sent for the upstream it was resolved for. -/
theorem Consistent.fetches (consistent : state.Consistent site marks) {thread : Nat}
    {credential : Credential} {base : String}
    (permitted : (marks thread).permits (.fetches credential base)) :
    Consistent site { state with sent := state.sent ++ [⟨credential, base⟩] } marks where
  keysFit := consistent.keysFit
  fits other := ⟨(consistent.fits other).cleared, (consistent.fits other).paired⟩
  sentHome key target sent := by
    cases List.mem_append.mp sent with
    | inl before => exact consistent.sentHome key target before
    | inr now =>
        cases List.mem_singleton.mp now
        obtain ⟨upstream, paired, begins⟩ := permitted
        exact ⟨upstream, begins, (consistent.fits thread).paired key upstream paired⟩
  freshProviders := consistent.freshProviders
  freshKeys := consistent.freshKeys

/-- What a request learns from one look at a provider. -/
theorem fits_inspects {mark : Mark} (fits : mark.Fits site state) (id : String) :
    (mark.answered (.inspects id) (state.inspect site id)).Fits site state := by
  by_cases present : (state.keys.state.lookup id).isSome = true
  · rw [Mark.answered, inspect, if_pos present]
    exact fits
  · rw [Mark.answered, inspect, if_neg present]
    refine ⟨fun other clock atClear => ?_, fits.paired⟩
    cases atClear
    refine ⟨Nat.le_refl _, fun key found => ?_⟩
    rw [found] at present
    exact absurd rfl present

theorem fits_resolvesKey {mark : Mark} (fits : mark.Fits site state)
    (keysFit : state.KeysFit site) {id upstream : String} {thread : Nat}
    (unovertaken : site.Unovertaken thread (.resolvesKey id upstream) .proceeds state) :
    (mark.answered (.resolvesKey id upstream) (state.keys.state.lookup id)).Fits site state := by
  simp only [Mark.answered]
  split
  next key found =>
    refine ⟨fits.cleared, fun other target paired => ?_⟩
    cases paired
    cases unovertaken rfl with
    | inl absent => cases found.symm.trans absent
    | inr same => exact keysFit.same found same
  next => exact fits

theorem fits_resolvesForm {mark : Mark} (fits : mark.Fits site state)
    (keysFit : state.KeysFit site) {input : FormInput} {credential : Credential}
    (resolved : site.resolveFormCredential state.providers.state state.keys.state input =
      .ok credential) :
    (mark.answered (.resolvesForm input) credential).Fits site state := by
  cases credential with
  | inline value => exact fits
  | env value => exact fits
  | console key =>
      refine ⟨fits.cleared, fun other target paired => ?_⟩
      cases paired
      obtain ⟨found, same⟩ := Site.resolveFormCredential_console resolved
      exact keysFit.same found same

theorem fits_removed {mark : Mark} {moved : ProxyState} (fits : mark.Fits site moved)
    {id : String} (gone : moved.keys.state.lookup id = none) (clock : moved.clock = state.clock)
    (found : Bool) :
    (mark.answered (.landsKey (.remove id)) (found, state.clock)).Fits site moved := by
  refine ⟨fun other since atClear => ?_, fits.paired⟩
  cases atClear
  refine ⟨Nat.le_of_eq clock.symm, fun key there => ?_⟩
  rw [gone] at there
  cases there

theorem removed_lookup (clock : Nat) (keys : ConsoleKeys) (id : String) :
    ((KeyChange.next clock keys (.remove id)).getD keys).lookup id = none := by
  rw [KeyChange.next]
  split
  next => exact OwnProperties.lookup_without_self id keys
  next absent =>
    rw [Option.getD_none]
    exact Option.not_isSome_iff_eq_none.mp absent

/-- A call that proceeds keeps the stores, the calls and what every request knows in line. -/
theorem Consistent.proceeds (consistent : state.Consistent site marks) {thread : Nat}
    {op : Call} {moved : ProxyState × Except Thrown op.Answer}
    (permitted : (marks thread).permits op)
    (unovertaken : site.Unovertaken thread op .proceeds state)
    (performed : site.proceed thread state op = some moved) :
    moved.1.Consistent site
      (Function.update marks thread ((marks thread).after op moved.2)) := by
  have known := consistent.fits thread
  cases op with
  | awaits what =>
      cases performed
      exact consistent.mark known
  | writable file =>
      cases performed
      exact consistent.mark known
  | routes name =>
      cases performed
      exact consistent.mark known
  | inspects id =>
      cases performed
      exact consistent.mark (fits_inspects known id)
  | resolvesKey id upstream =>
      cases performed
      exact consistent.mark (fits_resolvesKey known consistent.keysFit unovertaken)
  | resolvesForm input =>
      cases performed
      cases resolved : site.resolveFormCredential state.providers.state state.keys.state input with
      | error refused => exact consistent.mark known
      | ok credential =>
          exact consistent.mark (fits_resolvesForm known consistent.keysFit resolved)
  | fetches credential base => cases performed
  | joins file id =>
      cases performed
      have joined := consistent.join file thread
      exact joined.mark (joined.fits thread)
  | turn file =>
      obtain ⟨next, taken, rfl⟩ := Option.map_eq_some_iff.mp performed
      have turned := consistent.turn taken
      exact turned.mark (turned.fits thread)
  | landsProvider change =>
      rw [Site.proceed] at performed
      split at performed
      next =>
        obtain ⟨next, settled, rfl⟩ := Option.map_eq_some_iff.mp performed
        have kept := consistent.providerKept settled
        exact kept.mark (kept.fits thread)
      next =>
        obtain ⟨next, settled, rfl⟩ := Option.map_eq_some_iff.mp performed
        have landed := consistent.settleProvider settled
          (consistent.keysFit.landsProvider known permitted unovertaken)
        exact landed.mark (landed.fits thread)
  | landsKey change =>
      obtain ⟨next, settled, rfl⟩ := Option.map_eq_some_iff.mp performed
      have landed := consistent.landsKey unovertaken settled
      cases change with
      | set id value enteredFor => exact landed.mark (landed.fits thread)
      | remove id =>
          obtain ⟨keys, settles, rfl⟩ := Option.map_eq_some_iff.mp settled
          have same := (Guarded.settle_some consistent.freshKeys settles).1
          refine landed.mark (fits_removed (landed.fits thread) ?_ rfl _)
          exact (congrArg (List.lookup id) same).trans (removed_lookup _ _ id)

theorem Consistent.fails (consistent : state.Consistent site marks) {thread : Nat} {op : Call}
    {moved : ProxyState × Except Thrown op.Answer}
    (permitted : (marks thread).permits op)
    (performed : Site.fail thread state op = some moved) :
    moved.1.Consistent site
      (Function.update marks thread ((marks thread).after op moved.2)) := by
  cases op with
  | awaits what =>
      cases performed
      exact consistent.mark (consistent.fits thread)
  | writable file =>
      cases performed
      exact consistent.mark (consistent.fits thread)
  | fetches credential base =>
      cases performed
      have sent := consistent.fetches permitted
      exact sent.mark (sent.fits thread)
  | landsProvider change =>
      rw [Site.fail] at performed
      split at performed
      next =>
        obtain ⟨next, settled, rfl⟩ := Option.map_eq_some_iff.mp performed
        have kept := consistent.providerKept settled
        exact kept.mark (kept.fits thread)
      next => cases performed
  | landsKey change =>
      rw [Site.fail] at performed
      split at performed
      next =>
        obtain ⟨next, settled, rfl⟩ := Option.map_eq_some_iff.mp performed
        have kept := consistent.keyKept settled
        exact kept.mark (kept.fits thread)
      next => cases performed
  | inspects id => cases performed
  | routes name => cases performed
  | resolvesKey id upstream => cases performed
  | resolvesForm input => cases performed
  | joins file id => cases performed
  | turn file => cases performed

end ProxyState

/-! ### What each request does -/

section Scripts

attribute [local irreducible] Keeps

variable {site : Site}

/-- A script whose calls no mark forbids. -/
def Free {Result : Type} (script : Script Result) : Prop :=
  ∀ mark, Keeps keyDiscipline mark script fun _ _ => True

theorem free_query {op : Call} (permitted : ∀ mark, Mark.permits mark op) :
    Free (query op) :=
  fun mark => keeps_call (permitted mark) fun _ => trivial

theorem free_pure {Result : Type} (result : Result) : Free (pure result) :=
  fun _ => keeps_pure trivial

theorem free_refuse {Result : Type} (status : Nat) (code : String) :
    Free (refuse status code : Script Result) :=
  fun _ => keeps_throw trivial

theorem free_bind {Result Next : Type} {script : Script Result} {next : Result → Script Next}
    (first : Free script) (later : ∀ result, Free (next result)) :
    Free (script >>= next) :=
  fun mark => keeps_bind (first mark) (fun reached result _ => later result reached)
    (fun _ _ _ => trivial)

theorem free_bestEffort {body : Script Unit} (free : Free body) :
    Free (bestEffort body) :=
  fun mark => keeps_catch (free mark) (fun _ _ _ => trivial) (fun _ _ _ => keeps_pure trivial)

theorem free_ite {Result : Type} {condition : Prop} [Decidable condition]
    {first second : Script Result} (yes : Free first) (no : Free second) :
    Free (if condition then first else second) := by
  split
  · exact yes
  · exact no

theorem parseId_free (id : String) : Free (parseId id) :=
  free_ite (free_pure ()) (free_refuse 400 "invalid_id")

theorem requireWritable_free (file : StoreFile) : Free (requireWritable file) :=
  free_bind (free_query fun _ => trivial) fun _ =>
    free_ite (free_pure ()) (free_refuse 503 "store_unwritable")

theorem requireProvider_free (id : String) : Free (requireProvider id) := by
  refine free_bind (free_query fun _ => trivial) fun seen => ?_
  cases seen.effective with
  | none => exact free_refuse 404 "not_found"
  | some provider => exact free_pure provider

theorem changeProvider_free (id : String) (change : ProviderChange)
    (permitted : ∀ mark, Mark.permits mark (.landsProvider change)) :
    Free (changeProvider id change) :=
  free_bind (free_query fun _ => trivial) fun _ =>
    free_bind (free_query fun _ => trivial) fun _ => free_query permitted

theorem removeKey_free (id : String) : Free (removeKey id) :=
  free_bind (free_query fun _ => trivial) fun _ =>
    free_bind (free_query fun _ => trivial) fun _ => free_query fun _ => trivial

theorem setKey_free (id value : String) : Free (setKey id value) :=
  free_bind (free_query fun _ => trivial) fun _ =>
    free_bind (free_query fun _ => trivial) fun _ =>
      free_bind (free_query fun _ => trivial) fun _ => free_pure ()

theorem forgetTest_free (id : String) : Free (forgetTest id) :=
  free_bestEffort
    (free_bind (changeProvider_free id (.clearTest id) fun _ => trivial) fun _ => free_pure ())

/-- A mark under which the credential may go to the URLs that begin so. -/
def Mark.MayFetch (mark : Mark) (credential : Credential) (base : String) : Prop :=
  ∀ key, credential = .console key →
    ∃ upstream, mark.paired = some (key, upstream) ∧ Begins base upstream

theorem fetches_permitted {mark : Mark} {credential : Credential} {base : String}
    (may : mark.MayFetch credential base) :
    mark.permits (.fetches credential base) := by
  cases credential with
  | inline value => trivial
  | env value => trivial
  | console key => exact may key rfl

/-- A test leaves its mark and sends nothing its mark does not allow. -/
theorem runProviderTest_keeps {mark : Mark} {provider : ProviderConfig} {model : String}
    {credential : Credential} (may : mark.MayFetch credential provider.upstreamBaseUrl) :
    Keeps keyDiscipline mark (runProviderTest provider model credential)
      fun last _ => last = mark := by
  have fetched : mark.permits (.fetches credential provider.upstreamBaseUrl) :=
    fetches_permitted may
  have once : ∀ {Result : Type} (next : UpstreamAnswer → Script Result),
      (∀ answer, Keeps keyDiscipline mark (next answer) fun last _ => last = mark) →
        Keeps keyDiscipline mark
          (query (.fetches credential provider.upstreamBaseUrl) >>= next)
          fun last _ => last = mark :=
    fun next later => keeps_call_bind fetched later fun _ => rfl
  have caught : ∀ {body : Script Bool},
      (Keeps keyDiscipline mark body fun last _ => last = mark) →
        Keeps keyDiscipline mark (tryCatch body fun _ => return false)
          fun last _ => last = mark :=
    fun kept => keeps_catch kept (fun _ _ same => same) fun _ _ same => keeps_pure same
  rw [runProviderTest]
  cases checkProviderKey (some credential.value) with
  | missing => exact keeps_pure rfl
  | invalid => exact keeps_pure rfl
  | ok key =>
      refine keeps_bind (caught (once _ fun _ => keeps_pure rfl)) ?_ fun _ _ same => same
      intro reached completed same
      subst same
      split
      · refine keeps_bind (caught (once _ fun second => ?_)) ?_ fun _ _ same => same
        · split
          · exact once _ fun third => keeps_pure rfl
          · exact keeps_pure rfl
        · intro last called same
          exact keeps_pure same
      · exact keeps_pure rfl

theorem listUpstreamModels_keeps {mark : Mark} {upstream : String} {credential : Credential}
    (may : mark.MayFetch credential (trimSlashes upstream)) :
    Keeps keyDiscipline mark (listUpstreamModels upstream credential)
      fun _ _ => True := by
  rw [listUpstreamModels]
  cases checkProviderKey (some credential.value) with
  | missing => exact keeps_pure trivial
  | invalid => exact keeps_pure trivial
  | ok key =>
      exact keeps_call_bind (fetches_permitted may) (fun _ => keeps_pure trivial)
        fun _ => trivial

/-- A call whose outcome, if it throws, does not matter. -/
theorem keeps_query {Result : Type} {mark : Mark} {op : Call} {next : op.Answer → Script Result}
    (permitted : mark.permits op)
    (later : ∀ answer, Keeps keyDiscipline (mark.answered op answer) (next answer)
      fun _ _ => True) :
    Keeps keyDiscipline mark (query op >>= next) fun _ _ => True :=
  keeps_call_bind permitted later fun _ => trivial

/-- An await of something else leaves the mark. -/
theorem keeps_await {Result : Type} {mark : Mark} {what : Awaited} {next : Unit → Script Result}
    (later : Keeps keyDiscipline mark (next ()) fun _ _ => True) :
    Keeps keyDiscipline mark (query (.awaits what) >>= next) fun _ _ => True :=
  keeps_query trivial fun _ => later

/-- The form's credential may go to the form's upstream. -/
theorem resolvesForm_may (mark : Mark) (form : FormInput) (credential : Credential) :
    (mark.answered (.resolvesForm form) credential).MayFetch credential
      (trimSlashes form.upstreamBaseUrl) := by
  intro key same
  subst same
  exact ⟨form.upstreamBaseUrl, rfl, Or.inr rfl⟩

theorem discoverModels_free (input : FormInput) : Free (discoverModels site input) := by
  intro mark
  refine keeps_await ?_
  cases accepted : site.acceptForm input with
  | none => exact free_refuse 400 "invalid_body" mark
  | some form =>
      refine keeps_query trivial fun credential => ?_
      refine keeps_await (listUpstreamModels_keeps ?_)
      rw [trimSlashes_trimSlashes]
      exact resolvesForm_may mark form credential

/-- Three workers or one: every probe of a form uses its one credential. -/
theorem probes_keep {mark : Mark} {config : ProviderConfig} {credential : Credential}
    (may : mark.MayFetch credential config.upstreamBaseUrl) (models : List String) :
    Keeps keyDiscipline mark
      (each (fun model => do let _ ← runProviderTest config model credential) models)
      fun _ _ => True := by
  have kept : Keeps keyDiscipline mark
      (each (fun model => do let _ ← runProviderTest config model credential) models)
      fun last _ => last = mark := by
    refine keeps_each (fun model _ before same => ?_) rfl
    subst same
    exact keeps_bind (runProviderTest_keeps may) (fun _ _ same => keeps_pure same)
      fun _ _ same => same
  exact keeps_mono kept fun _ _ _ => trivial

theorem probeModels_free (input : FormInput) (models : List String) :
    Free (probeModels site input models) := by
  intro mark
  refine keeps_await ?_
  split
  next => exact free_refuse 400 "invalid_body" mark
  next form _ =>
    refine keeps_query trivial fun credential => ?_
    refine keeps_await (probes_keep ?_ _)
    exact resolvesForm_may mark form credential

/-- The resolved key goes to the upstream it was resolved for. -/
theorem resolvesKey_may (mark : Mark) (id upstream : String) {stored : Option ConsoleKey}
    {environment : Option String} {credential : Credential}
    (chosen : (stored.map .console <|> environment.map .env) = some credential) :
    (mark.answered (.resolvesKey id upstream) stored).MayFetch credential upstream := by
  intro key same
  subst same
  cases stored with
  | none =>
      cases environment with
      | none => cases chosen
      | some value => cases chosen
  | some found =>
      cases chosen
      exact ⟨upstream, rfl, Or.inl rfl⟩

theorem testProvider_free (id : String) (picked : Option String) :
    Free (testProvider site id picked) := by
  refine free_bind (requireProvider_free id) fun provider mark => ?_
  refine keeps_await ?_
  cases chosen : picked <|> provider.config.models.head? with
  | none => exact free_refuse 400 "model_not_allowed" mark
  | some model =>
      dsimp only
      split
      · exact free_refuse 400 "model_not_allowed" mark
      · split
        · exact free_refuse 409 "upstream_base_url_invalid" mark
        · refine keeps_query trivial fun stored => ?_
          split
          next => exact free_refuse 409 "credential_missing" _
          next credential resolved =>
            have may := resolvesKey_may mark id provider.config.upstreamBaseUrl resolved
            refine keeps_await (keeps_bind (runProviderTest_keeps may) ?_ fun _ _ _ => trivial)
            intro reached result _
            refine free_bestEffort (free_bind ?_ fun _ => free_pure ()) reached
            exact changeProvider_free id (.recordTest id result) fun _ => trivial

theorem handleRequest_free (request : ModelRequest) :
    Free (handleRequest site request) := by
  refine free_bind (free_query fun _ => trivial) fun routed mark => ?_
  cases routed with
  | none => exact keeps_throw trivial
  | some provider =>
      refine keeps_await ?_
      split
      · exact keeps_pure trivial
      · split
        · exact keeps_throw trivial
        · split
          · exact keeps_throw trivial
          · refine keeps_await ?_
            split
            · exact keeps_throw trivial
            · refine keeps_await (keeps_query trivial fun stored => ?_)
              split
              next => exact keeps_throw trivial
              next credential resolved =>
                have may := resolvesKey_may mark request.provider provider.upstreamBaseUrl resolved
                cases checkProviderKey (some credential.value) with
                | missing => exact keeps_throw trivial
                | invalid => exact keeps_throw trivial
                | ok key =>
                    exact keeps_query (fetches_permitted may) fun _ => keeps_pure trivial

/-! ### Clearing before writing -/

theorem liftExcept_keeps {Result : Type} {mark : Mark} (checked : Except AdminApiError Result) :
    Keeps keyDiscipline mark (liftExcept checked) fun last _ => last = mark := by
  cases checked with
  | error refused => exact keeps_throw rfl
  | ok result => exact keeps_pure rfl

theorem removeKey_keeps {mark : Mark} (id : String) :
    Keeps keyDiscipline mark (removeKey id)
      fun last outcome => ∀ removed, outcome = .ok removed →
        last.cleared = some (id, removed.2) := by
  refine keeps_call_bind trivial (fun _ => ?_) ?_
  · refine keeps_call_bind trivial (fun _ => keeps_call trivial fun outcome removed same => ?_) ?_
    · rw [same]
      rfl
    · intro thrown removed impossible
      cases impossible
  · intro thrown removed impossible
    cases impossible

theorem clearConsoleKeyForNewUpstream_keeps {mark : Mark} {id : String} {seen : Inspection}
    (looked : seen.hasKey = false → mark.cleared = some (id, seen.clock)) :
    Keeps keyDiscipline mark (clearConsoleKeyForNewUpstream id seen)
      fun last outcome => ∀ clock, outcome = .ok clock → last.cleared = some (id, clock) := by
  rw [clearConsoleKeyForNewUpstream]
  split
  next =>
    refine keeps_bind (requireWritable_free .keys mark) (fun reached _ _ => ?_) ?_
    · refine keeps_bind (removeKey_keeps id) (fun last removed cleared => ?_) ?_
      · refine keeps_pure fun clock same => ?_
        cases same
        exact cleared removed rfl
      · intro last thrown _ clock impossible
        cases impossible
    · intro last thrown _ clock impossible
      cases impossible
  next absent =>
    refine keeps_pure fun clock same => ?_
    cases same
    exact looked (Bool.eq_false_iff.mpr absent)

theorem inspects_cleared (mark : Mark) {id : String} {seen : Inspection}
    (absent : seen.hasKey = false) :
    (mark.answered (.inspects id) seen).cleared = some (id, seen.clock) := by
  rw [Mark.answered, if_neg (Bool.eq_false_iff.mp absent)]

theorem upsert_keeps {mark : Mark} {id : String} {entry : StoreProvider} {clock : Nat}
    (cleared : mark.cleared = some (id, clock)) :
    Keeps keyDiscipline mark (changeProvider id (.upsert id entry (some clock)))
      fun _ _ => True := by
  refine keeps_query trivial fun _ => keeps_query trivial fun _ => ?_
  exact keeps_call cleared fun _ => trivial

/-- Clearing, and then the provider write. -/
theorem clearThenUpsert_keeps {Result : Type} {mark : Mark} {id : String} {seen : Inspection}
    {entry : StoreProvider} {rest : Script Result}
    (looked : seen.hasKey = false → mark.cleared = some (id, seen.clock))
    (later : Free rest) :
    Keeps keyDiscipline mark
      (do
        let cleared ← clearConsoleKeyForNewUpstream id seen
        let _ ← changeProvider id (.upsert id entry (some cleared))
        rest)
      fun _ _ => True := by
  refine keeps_bind (clearConsoleKeyForNewUpstream_keeps looked) ?_ fun _ _ _ => trivial
  intro reached clock cleared
  refine keeps_bind (upsert_keeps (cleared clock rfl)) ?_ fun _ _ _ => trivial
  intro last _ _
  exact later last

theorem createProvider_free (input : LlmProviderInput) :
    Free (createProvider site input) := by
  refine free_bind (requireWritable_free .providers) fun _ mark => keeps_await ?_
  split
  · exact free_refuse 400 "invalid_body" mark
  · split
    · exact free_refuse 409 "reserved_id" mark
    · refine keeps_query trivial fun seen => ?_
      split
      · exact free_refuse 409 "provider_exists" _
      · refine keeps_bind (liftExcept_keeps _) ?_ fun _ _ _ => trivial
        intro reached _ same
        subst same
        exact clearThenUpsert_keeps (inspects_cleared mark)
          (free_bind (requireProvider_free input.id) fun _ => free_pure ())

theorem replaceProvider_free (id : String) (input : LlmProviderInput) :
    Free (replaceProvider site id input) := by
  refine free_bind (requireWritable_free .providers) fun _ => ?_
  refine free_bind (requireProvider_free id) fun existing mark => keeps_await ?_
  have answered : Free (do let _ ← requireProvider id) :=
    free_bind (requireProvider_free id) fun _ => free_pure ()
  split
  · exact free_refuse 400 "invalid_body" mark
  · split
    · exact free_refuse 400 "id_mismatch" mark
    · refine keeps_query trivial fun seen => ?_
      refine keeps_bind (liftExcept_keeps _) ?_ fun _ _ _ => trivial
      intro reached _ same
      subst same
      dsimp only
      split
      · exact clearThenUpsert_keeps (inspects_cleared mark) answered
      · have written : Free
            (changeProvider id (.upsert id (inputToStoreEntry input seen.previous) none)) :=
          changeProvider_free id _ fun _ => trivial
        exact free_bind written (fun _ => answered) _

theorem deleteProvider_free (id : String) : Free (deleteProvider id) := by
  refine free_bind (requireWritable_free .providers) fun _ => ?_
  refine free_bind (free_query fun _ => trivial) fun seen => ?_
  refine free_ite (free_refuse 404 "not_found") (free_ite (free_refuse 409 "provider_from_file") ?_)
  refine free_bind (changeProvider_free id (.remove id) fun _ => trivial) fun _ => ?_
  refine free_bind (free_bestEffort ?_) fun _ => forgetTest_free id
  exact free_bind (removeKey_free id) fun _ => free_pure ()

theorem putSecret_free (id raw : String) : Free (putSecret id raw) := by
  refine free_bind (requireWritable_free .keys) fun _ => ?_
  refine free_bind (requireProvider_free id) fun _ => ?_
  refine free_bind (free_query fun _ => trivial) fun _ => ?_
  cases acceptKey raw with
  | none => exact free_refuse 400 "invalid_body"
  | some key =>
      refine free_bind (setKey_free id key) fun _ => ?_
      refine free_bind (forgetTest_free id) fun _ => ?_
      exact free_bind (requireProvider_free id) fun _ => free_pure ()

theorem deleteSecret_free (id : String) : Free (deleteSecret id) := by
  refine free_bind (requireWritable_free .keys) fun _ => ?_
  refine free_bind (requireProvider_free id) fun _ => ?_
  refine free_bind (removeKey_free id) fun _ => ?_
  refine free_bind (forgetTest_free id) fun _ => ?_
  exact free_bind (requireProvider_free id) fun _ => free_pure ()

/-- Every request keeps to the discipline, whatever it knows when it comes in. -/
theorem script_free (entry : Entry) : Free (site.script entry) := by
  cases entry with
  | createProvider input => exact createProvider_free input
  | replaceProvider id input =>
      exact free_bind (parseId_free id) fun _ => replaceProvider_free id input
  | deleteProvider id => exact free_bind (parseId_free id) fun _ => deleteProvider_free id
  | putSecret id raw => exact free_bind (parseId_free id) fun _ => putSecret_free id raw
  | deleteSecret id => exact free_bind (parseId_free id) fun _ => deleteSecret_free id
  | testProvider id model => exact free_bind (parseId_free id) fun _ => testProvider_free id model
  | discoverModels input => exact discoverModels_free input
  | probeModels input models => exact probeModels_free input models
  | modelRequest request => exact handleRequest_free request

end Scripts

/-! ### Every run -/

def Site.system (site : Site) : LabelledRun.System ProxyPool ProxyLabel :=
  site.machine.system site.script fun pool =>
    ∃ providers keys clock, pool = listening providers keys clock ∧ pool.shared.KeysFit site

theorem sound (site : Site) :
    site.machine.Sound site.script keyDiscipline Mark.idle (fun _ => True)
      (ProxyState.Consistent site) (fun _ => True) site.Unovertaken where
  entry entry := script_free entry Mark.idle
  forgets _ _ _ consistent _ := consistent.mark (Mark.fits_idle site _)
  idleRests := trivial
  performs shared marks thread op input moved consistent _ permitted unovertaken performed := by
    cases input with
    | proceeds => exact consistent.proceeds permitted unovertaken performed
    | fails => exact consistent.fails permitted performed
    | answers answer =>
        cases op with
        | fetches credential base =>
            cases performed
            have sent := consistent.fetches permitted
            exact sent.mark (sent.fits thread)
        | _ => cases performed
  dies shared marks thread consistent _ := by
    have left : ProxyState.Consistent site (site.machine.abandons thread shared) marks :=
      consistent.sameKeys rfl rfl rfl consistent.keysFit
        (consistent.freshProviders.leave thread) (consistent.freshKeys.leave thread)
    exact left.mark (Mark.fits_idle site _)

/-- While nothing overtakes, a console key goes only to the upstream it was entered for. -/
theorem console_key_goes_home {site : Site} {start final : ProxyPool}
    {labels : List ProxyLabel} (started : site.system.initial start)
    (unovertaken : site.system.Allowed (Machine.allowedLabel site.Unovertaken) start labels)
    (ran : site.system.run start labels = some final) : final.shared.SentHome site := by
  obtain ⟨providers, keys, clock, atStart, keysFit⟩ := id started
  have consistent : start.shared.Consistent site fun _ => Mark.idle := by
    subst atStart
    exact
      { keysFit := keysFit
        fits := fun _ => Mark.fits_idle site _
        sentHome := fun _ _ sent => by cases sent
        freshProviders := Guarded.fresh_settled providers
        freshKeys := Guarded.fresh_settled keys }
  have disciplined : Machine.Disciplined keyDiscipline (fun _ => True)
      (ProxyState.Consistent site) start := by
    refine ⟨fun _ => Mark.idle, consistent, fun thread => ?_⟩
    rw [atStart]
    exact trivial
  obtain ⟨marks, fits, _⟩ := (sound site).run (fun _ _ => trivial) started disciplined
    unovertaken ran
  exact fits.sentHome

/-! ### Keys that stray -/

/-- A provider `p` whose yaml entry and whose override name two upstreams. -/
def twoUpstreams : Site where
  newUrl raw :=
    if raw = "https://yaml.example" ∨ raw = "https://store.example" then
      some { href := raw ++ "/", protocol := "https:", username := "", password := "",
             search := "", hash := "" }
    else none
  fileProviders := [("p", ⟨.anthropicMessages, "https://yaml.example", none, ["m"]⟩)]
  resolveApiKey _ := none

def overridden : ProxyPool :=
  listening [("p", ⟨⟨.anthropicMessages, "https://store.example", none, ["m"]⟩, true, none⟩)] [] 0

theorem overridden_initial : twoUpstreams.system.initial overridden := by
  refine ⟨_, _, _, rfl, fun id key upstream impossible => ?_⟩
  cases impossible

/-- A thread makes its next calls and nothing fails. -/
def goes (thread count : Nat) : List ProxyLabel :=
  List.replicate count (.steps thread .proceeds)

def sends (thread : Nat) : List ProxyLabel :=
  [.steps thread (.answers ⟨200, true⟩)]

def asks : Entry :=
  .modelRequest ⟨"p", .post, "/v1/messages", "m"⟩

/-- An update that moves `p` to the upstream of its yaml entry. -/
def moves : Entry :=
  .replaceProvider "p" ⟨"p", .anthropicMessages, "https://yaml.example", none, ["m"], none⟩

/-- The override is deleted while its key is stored, and a request comes in before the key goes. -/
def restoredEntry : List ProxyLabel :=
  [.starts 0 (.putSecret "p" "k")] ++ goes 0 6 ++
    [.starts 1 (.deleteProvider "p")] ++ goes 1 5 ++
    [.starts 2 asks] ++ goes 2 5 ++ sends 2

/-- A request looks up its provider, which then gets another upstream and another key. -/
def slowRequest : List ProxyLabel :=
  [.starts 2 asks] ++ goes 2 1 ++ [.starts 1 moves] ++ goes 1 7 ++
    [.starts 0 (.putSecret "p" "k")] ++ goes 0 6 ++ goes 2 4 ++ sends 2

/-- An update finds no key to clear; one is set before its write lands. -/
def setBeforeWrite : List ProxyLabel :=
  [.starts 1 moves] ++ goes 1 4 ++ [.starts 0 (.putSecret "p" "k")] ++ goes 0 6 ++ goes 1 3 ++
    [.starts 2 asks] ++ goes 2 5 ++ sends 2

/-- A key is on its way to the file when its provider gets another upstream. -/
def lateKey : List ProxyLabel :=
  [.starts 0 (.putSecret "p" "k")] ++ goes 0 5 ++ [.starts 1 moves] ++ goes 1 7 ++ goes 0 1 ++
    [.starts 2 asks] ++ goes 2 5 ++ sends 2

/-- Some key went elsewhere by the end of the run. -/
def Strays (site : Site) (start : ProxyPool) (labels : List ProxyLabel) : Prop :=
  ∃ final, site.system.run start labels = some final ∧ ¬ final.shared.SentHome site

theorem strays_of_run {site : Site} {start : ProxyPool} {labels : List ProxyLabel}
    {key : ConsoleKey} {base : String} (away : ¬ site.Home key base)
    (checked : (site.system.run start labels).any (fun pool =>
      decide (⟨.console key, base⟩ ∈ pool.shared.sent)) = true) : Strays site start labels := by
  obtain ⟨final, ran, sent⟩ := (Option.any_eq_true ..).mp checked
  exact ⟨final, ran, fun home => away (home key base (of_decide_eq_true sent))⟩

/-- A request to one of the two upstreams is none to the other. -/
theorem twoUpstreams_apart {key : ConsoleKey} {base : String}
    (apart : (key.enteredFor, base) ∈
      [(some "https://store.example", "https://yaml.example"),
        (some "https://yaml.example", "https://store.example")]) :
    ¬ twoUpstreams.Home key base := by
  intro ⟨upstream, begins, entered, other, atEntered, atOther, same⟩
  cases atOther
  have known : upstream = "https://yaml.example" ∨ upstream = "https://store.example" := by
    by_contra unknown
    have itself : twoUpstreams.upstreamKey upstream = upstream := by
      rw [Site.upstreamKey, show twoUpstreams.newUrl upstream = none from if_neg unknown]
    rw [itself] at same
    apply unknown
    rw [← same]
    rw [atEntered] at apart
    rcases List.mem_pair.mp apart with both | both
    · cases both
      exact Or.inr (by decide +kernel)
    · cases both
      exact Or.inl (by decide +kernel)
  rw [atEntered] at apart
  rcases List.mem_pair.mp apart with both | both
  · cases both
    rcases known with rfl | rfl
    · exact absurd same (by decide +kernel)
    · exact absurd begins (by decide +kernel)
  · cases both
    rcases known with rfl | rfl
    · exact absurd begins (by decide +kernel)
    · exact absurd same (by decide +kernel)

theorem console_key_strays :
    Strays twoUpstreams overridden restoredEntry ∧ Strays twoUpstreams overridden slowRequest ∧
      Strays twoUpstreams overridden setBeforeWrite ∧
      Strays twoUpstreams overridden lateKey := by
  have away : ¬ twoUpstreams.Home ⟨"k", some "https://store.example", 0⟩ "https://yaml.example" :=
    twoUpstreams_apart (by decide)
  have back : ¬ twoUpstreams.Home ⟨"k", some "https://yaml.example", 0⟩ "https://store.example" :=
    twoUpstreams_apart (by decide)
  refine ⟨strays_of_run away ?_, strays_of_run back ?_, strays_of_run away ?_,
    strays_of_run away ?_⟩
  all_goals decide +kernel

/-- A key is set and a request takes it. -/
def keyInPlace : List ProxyLabel :=
  [.starts 0 (.putSecret "p" "k")] ++ goes 0 6 ++ [.starts 2 asks] ++ goes 2 5 ++ sends 2

theorem console_key_goes_home_inPlace :
    ∃ final, twoUpstreams.system.run overridden keyInPlace = some final ∧
      final.shared.sent =
        [⟨.console ⟨"k", some "https://store.example", 0⟩, "https://store.example"⟩] ∧
      final.shared.SentHome twoUpstreams := by
  have checked : (twoUpstreams.system.run overridden keyInPlace).any (fun pool =>
      decide (pool.shared.sent =
        [⟨.console ⟨"k", some "https://store.example", 0⟩, "https://store.example"⟩])) = true := by
    decide +kernel
  have unovertaken : twoUpstreams.system.Allowed
      (Machine.allowedLabel twoUpstreams.Unovertaken) overridden keyInPlace := by
    decide +kernel
  obtain ⟨final, ran, sent⟩ := (Option.any_eq_true ..).mp checked
  exact ⟨final, ran, of_decide_eq_true sent,
    console_key_goes_home overridden_initial unovertaken ran⟩

end NextTime.LlmProxy
