import NextTime.Ontology.Heads

/-
Specifications of what a transaction does: what it knows where it returns. Where
it throws there is nothing to know, its writes are rolled back.
-/

namespace NextTime.Ontology

open Interleaving Interleaving.Conduct

variable {digest : OntologyDefinition → String} {Result Next : Type}

/-- Other transactions keep the assertion. -/
def Steady (assertion : OntologyTables → Prop) : Prop :=
  ∀ before here, assertion before → Meanwhile before here → assertion here

/-- Facts about the rows that new drafts do not change. -/
def Kept (fact : OntologyRows → Prop) : Prop :=
  ∀ rows after, GainsDrafts rows after → fact rows → fact after

def Ensures (digest : OntologyDefinition → String) (before : OntologyTables → Prop)
    (program : OntologyProgram Result) (after : Result → OntologyTables → Prop) : Prop :=
  (ontologyConduct digest).Meets before program (endsWith after fun _ => OntologyTables.WellFormed)

/-! ### Rules -/

theorem Steady.stable (digest : OntologyDefinition → String) {assertion : OntologyTables → Prop}
    (steady : Steady assertion) : (ontologyConduct digest).Stable assertion :=
  steady

theorem steady_wellFormed : Steady OntologyTables.WellFormed :=
  fun _ _ wellFormed meanwhile => meanwhile.wellFormed wellFormed

theorem Ensures.weaken {stronger weaker : OntologyTables → Prop} {program : OntologyProgram Result}
    {after : Result → OntologyTables → Prop} (ensures : Ensures digest weaker program after)
    (weakens : ∀ here, stronger here → weaker here) : Ensures digest stronger program after :=
  Meets.weaken ensures weakens

theorem Ensures.mono {before : OntologyTables → Prop} {program : OntologyProgram Result}
    {stronger weaker : Result → OntologyTables → Prop}
    (ensures : Ensures digest before program stronger)
    (weakens : ∀ result here, stronger result here → weaker result here) :
    Ensures digest before program weaker := by
  apply Meets.mono ensures
  intro outcome here holds
  cases outcome with
  | ok result => exact weakens result here holds
  | error thrown => exact holds

theorem Ensures.seq {before : OntologyTables → Prop} {program : OntologyProgram Result}
    {next : Result → OntologyProgram Next} {middle : Result → OntologyTables → Prop}
    {after : Next → OntologyTables → Prop} (first : Ensures digest before program middle)
    (rest : ∀ result, Ensures digest (middle result) (next result) after) :
    Ensures digest before (program >>= next) after :=
  Meets.seq first rest

theorem ensures_pure {before : OntologyTables → Prop} {result : Result}
    {after : Result → OntologyTables → Prop} (holds : ∀ here, before here → after result here) :
    Ensures digest before (pure result) after :=
  meets_pure holds

theorem ensures_throw {before : OntologyTables → Prop} {thrown : OntologyError}
    {after : Result → OntologyTables → Prop}
    (wellFormed : ∀ here, before here → here.WellFormed) :
    Ensures digest before (throw thrown) after :=
  meets_throw wellFormed

/-- COMMIT and ROLLBACK. -/
def OntologyStatement.ends : OntologyStatement → Bool
  | .commits | .rollsBack => true
  | _ => false

theorem statementDoes_error {statement : OntologyStatement} (ordinary : statement.ends = false)
    {here next : OntologyTables} {thrown : OntologyError}
    (does : statementDoes statement here (.error thrown) next) : next = here := by
  cases statement with
  | commits => cases ordinary
  | rollsBack => cases ordinary
  | _ => exact does

theorem ensures_send {before : OntologyTables → Prop} {statement : OntologyStatement}
    {after : statement.Answer → OntologyTables → Prop} (ordinary : statement.ends = false)
    (steady : Steady before) (wellFormed : ∀ here, before here → here.WellFormed)
    (holds : ∀ here answer next, before here → statementDoes statement here (.ok answer) next →
      after answer next) : Ensures digest before (send statement) after := by
  apply meets_call (steady.stable digest)
  · intro here _
    cases statement with
    | commits => cases ordinary
    | _ => trivial
  · intro here outcome next earlier does
    cases outcome with
    | ok answer => exact holds here answer next earlier does
    | error thrown =>
        change next.WellFormed
        rw [statementDoes_error ordinary does]
        exact wellFormed here earlier

theorem ensures_ask {before : OntologyTables → Prop} {asked : OntologyQuery}
    {after : asked.Answer → OntologyTables → Prop} (steady : Steady before)
    (wellFormed : ∀ here, before here → here.WellFormed)
    (holds : ∀ here, before here →
      after (asked.answer here.view (versionsOf here.known here.view)) here) :
    Ensures digest before (ask asked) after := by
  apply ensures_send rfl steady wellFormed
  intro here answer next earlier does
  rw [does.1, does.2]
  exact holds here earlier

theorem lockOntologyNamespace_ensures {before after : OntologyTables → Prop}
    (steady : Steady before) (wellFormed : ∀ here, before here → here.WellFormed)
    (locks : ∀ here, before here → after { here with locked := true }) :
    Ensures digest before lockOntologyNamespace fun _ => after := by
  apply ensures_send rfl steady wellFormed
  intro here _ next earlier does
  rw [does]
  exact locks here earlier

theorem lockOntologyFamily_ensures (id : Nat) {before after : OntologyTables → Prop}
    (steady : Steady before) (wellFormed : ∀ here, before here → here.WellFormed)
    (steadyAfter : Steady after) (wellFormedAfter : ∀ here, after here → here.WellFormed)
    (locks : ∀ here, before here → after { here with locked := true }) :
    Ensures digest before (lockOntologyFamily id) fun _ => after := by
  apply (lockOntologyNamespace_ensures steady wellFormed locks).seq
  intro _
  apply ensures_send rfl steadyAfter wellFormedAfter
  intro here _ next earlier does
  rw [does]
  exact earlier

/-! ### Transactions -/

open OntologyStore in
theorem steady_idle : Steady Idle := by
  intro before here idle meanwhile
  constructor
  · exact meanwhile.wellFormed idle.wellFormed
  · exact meanwhile.locked.trans idle.unlocked
  · intro key
    rw [meanwhile.own]
    exact idle.clean key

open OntologyStore in
theorem idle_ended {here : OntologyTables} {committed : OntologyRows} (good : Good committed)
    (places : Places here.known committed) : Idle (here.ended committed) :=
  ⟨⟨good, places, places_none here.known⟩, rfl, fun _ => rfl⟩

open OntologyStore in
/-- A transaction that has reached what a commit asks for may commit, and leaves nothing. -/
theorem inTransaction_meets {body : OntologyProgram Unit} {after : OntologyTables → Prop}
    (steady : Steady after) (wellFormed : ∀ here, after here → here.WellFormed)
    (commits : ∀ here, after here → Commits digest here)
    (ensures : Ensures digest Idle body fun _ => after) :
    (ontologyConduct digest).Meets Idle (inTransaction body) fun _ => Idle := by
  have committing : (ontologyConduct digest).Meets Idle
      (do
        body
        send .commits)
      (endsWith (fun _ => Idle) fun _ => OntologyTables.WellFormed) := by
    apply Meets.seq ensures
    intro _
    have allowed : ∀ here, after here → (ontologyConduct digest).allowed .commits here := commits
    apply meets_call (steady.stable digest) allowed
    intro here outcome next reached does
    cases outcome with
    | ok _ =>
        change Idle next
        rw [show next = here.ended here.view from does]
        exact idle_ended (commits here reached).good (wellFormed here reached).view
    | error thrown =>
        change next.WellFormed
        rw [show next = here.ended here.committed from does]
        exact (idle_ended (wellFormed here reached).good
          (wellFormed here reached).committed).wellFormed
  apply Meets.catch committing
  · exact fun _ _ holds => holds
  · intro thrown
    have rollingBack : (ontologyConduct digest).Meets OntologyTables.WellFormed
        (send .rollsBack) fun _ => Idle := by
      have allowed : ∀ here : OntologyTables, here.WellFormed →
          (ontologyConduct digest).allowed .rollsBack here := fun _ _ => trivial
      apply meets_call (steady_wellFormed.stable digest) allowed
      intro here outcome next reached does
      have ended : next = here.ended here.committed := by
        cases outcome with
        | ok _ => exact does
        | error _ => exact does
      rw [ended]
      exact idle_ended reached.good reached.committed
    apply Meets.bind rollingBack
    · intro _
      exact meets_throw fun _ holds => holds
    · exact fun _ _ holds => holds

/-! ### What a transaction holds -/

/-- It holds the workspace's ontology namespace. -/
structure Holding (here : OntologyTables) : Prop where
  wellFormed : here.WellFormed
  locked : here.locked = true

theorem Holding.meanwhile {here next : OntologyTables} (holding : Holding here)
    (meanwhile : Meanwhile here next) : Holding next :=
  ⟨meanwhile.wellFormed holding.wellFormed, meanwhile.locked.trans holding.locked⟩

/-- It holds the namespace and has written nothing. -/
structure Clean (here : OntologyTables) : Prop extends Holding here where
  unwritten : ∀ key, here.own key = none

theorem Clean.view {here : OntologyTables} (clean : Clean here) : here.view = here.committed := by
  funext key
  rw [OntologyTables.view, clean.unwritten key, Option.none_or]

theorem steady_clean {fact : OntologyRows → Prop} (kept : Kept fact) :
    Steady fun here => Clean here ∧ fact here.view := by
  intro before here holds meanwhile
  obtain ⟨clean, known⟩ := holds
  refine ⟨⟨clean.toHolding.meanwhile meanwhile, ?_⟩, ?_⟩
  · intro key
    rw [meanwhile.own]
    exact clean.unwritten key
  · exact kept _ _ (meanwhile.gains clean.locked) known

theorem OntologyStore.Idle.locks {here : OntologyTables} (idle : OntologyStore.Idle here) :
    Clean { here with locked := true } :=
  ⟨⟨⟨idle.wellFormed.good, idle.wellFormed.committed, idle.wellFormed.own⟩, rfl⟩, idle.clean⟩

/-- It holds the namespace and may commit. -/
structure Ready (digest : OntologyDefinition → String) (here : OntologyTables) : Prop
    extends Holding here where
  good : Good here.view
  follows : Follows digest here.committed here.view

theorem Ready.commits {here : OntologyTables} (ready : Ready digest here) :
    Commits digest here where
  good := ready.good
  follows := ready.follows
  drafts unlocked := by
    rw [ready.locked] at unlocked
    cases unlocked

theorem Meanwhile.good {here next : OntologyTables} (meanwhile : Meanwhile here next)
    (holding : Holding here) (versions : GoodVersions here.view) : GoodVersions next.view where
  bases := meanwhile.bases holding.wellFormed versions.bases
  owners := (meanwhile.gains holding.locked).owners versions.owners

/-- A row is as committed, or it is the transaction's own and stays as it is. -/
theorem Meanwhile.row {here next : OntologyTables} (meanwhile : Meanwhile here next)
    (key : OntologyKey) :
    next.view key = next.committed key ∨
      (next.committed key = here.committed key ∧ next.view key = here.view key) := by
  cases written : here.own key with
  | none =>
      apply Or.inl
      rw [OntologyTables.view, meanwhile.own, written, Option.none_or]
  | some row =>
      have own : here.own key ≠ none := by
        rw [written]
        exact Option.some_ne_none row
      have same := meanwhile.kept key own
      refine Or.inr ⟨same, ?_⟩
      rw [OntologyTables.view, OntologyTables.view, meanwhile.own, same]

theorem Meanwhile.follows {here next : OntologyTables} (meanwhile : Meanwhile here next)
    (locked : here.locked = true) (follows : Follows digest here.committed here.view) :
    Follows digest next.committed next.view := by
  have views := meanwhile.gains locked
  have commits := meanwhile.drafts locked
  constructor
  · intro id version row found
    cases meanwhile.row (.version id version) with
    | inl same => exact ⟨row, same.trans found, .same⟩
    | inr kept =>
        rw [kept.1] at found
        rw [kept.2]
        exact follows.versions id version row found
  · intro id segment found
    rw [commits.segment] at found
    rw [views.segment]
    exact follows.segments id segment found
  · intro id version row after found again draft published
    cases meanwhile.row (.version id version) with
    | inl same =>
        rw [same, found] at again
        rw [← Option.some.inj again, draft] at published
        cases published
    | inr kept =>
        rw [kept.1] at found
        rw [kept.2] at again
        obtain ⟨base, head⟩ := follows.drafts id version row after found again draft published
        exact ⟨commits.headNumber base, views.headNumber head⟩
  · intro id segment after found again applied rolledBack
    rw [commits.segment] at found
    rw [views.segment] at again
    obtain ⟨items, others⟩ := follows.rollbacks id segment after found again applied rolledBack
    constructor
    · intro item member
      obtain ⟨was, is⟩ := items item member
      exact ⟨commits.headIs was, views.headIs is⟩
    · intro family version apart
      cases meanwhile.row (.version family version) with
      | inl same => exact same
      | inr kept =>
          rw [kept.1, kept.2]
          exact others family version apart
  · intro family version row after found again retired was
    cases meanwhile.row (.version family version) with
    | inl same =>
        rw [same, found] at again
        exact absurd (Option.some.inj again ▸ retired) was
    | inr kept =>
        rw [kept.1] at found
        rw [kept.2] at again
        obtain ⟨id, segment, rolledBack, item, before, isNow, rest⟩ :=
          follows.retired family version row after found again retired was
        exact ⟨id, segment, rolledBack, item, (commits.segment id).trans before,
          (views.segment id).trans isNow, rest⟩

theorem steady_ready : Steady (Ready digest) := by
  intro before here ready meanwhile
  have good : Good here.view :=
    ⟨meanwhile.good ready.toHolding ready.good.versions,
      (meanwhile.gains ready.locked).segments ready.good.segments⟩
  exact ⟨ready.toHolding.meanwhile meanwhile, good, meanwhile.follows ready.locked ready.follows⟩

end NextTime.Ontology
