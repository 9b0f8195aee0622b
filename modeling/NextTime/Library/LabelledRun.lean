/-
Runs of a deterministic labelled system. Every choice of an environment, a
scheduler or a failing device is part of the label, so a run is the list of its
labels. Nothing here names a particular program.
-/

namespace LabelledRun

universe u v

/-- A label either moves the state or is not enabled in it. -/
structure System (State : Type u) (Label : Type v) where
  initial : State → Prop
  step : State → Label → Option State

variable {State : Type u} {Label : Type v}

namespace System

variable (system : System State Label)

/-- Execute the labels in order; a label that is not enabled ends the attempt. -/
def run (system : System State Label) (state : State) : List Label → Option State
  | [] => some state
  | label :: labels =>
      match system.step state label with
      | none => none
      | some next => system.run next labels

/-- Some run from an initial state ends in the state. -/
def Reachable (state : State) : Prop :=
  ∃ start labels, system.initial start ∧ system.run start labels = some state

/-- Every label of the run is executed in a state where it is allowed. -/
def Allowed (system : System State Label) (allowed : State → Label → Prop) (state : State) :
    List Label → Prop
  | [] => True
  | label :: labels =>
      allowed state label ∧
        match system.step state label with
        | none => True
        | some next => system.Allowed allowed next labels

instance decidableAllowed (allowed : State → Label → Prop)
    [∀ state label, Decidable (allowed state label)] :
    ∀ (labels : List Label) (state : State), Decidable (system.Allowed allowed state labels)
  | [], _ => isTrue trivial
  | label :: labels, state =>
      match moved : system.step state label with
      | none => decidable_of_iff (allowed state label) (by simp [Allowed, moved])
      | some next =>
          have := decidableAllowed allowed labels next
          decidable_of_iff (allowed state label ∧ system.Allowed allowed next labels)
            (by simp [Allowed, moved])

theorem Allowed.both {first second : State → Label → Prop} {state : State}
    {labels : List Label} (left : system.Allowed first state labels)
    (right : system.Allowed second state labels) :
    system.Allowed (fun state label => first state label ∧ second state label) state labels := by
  induction labels generalizing state with
  | nil => trivial
  | cons label labels ih =>
      obtain ⟨leftHere, leftLater⟩ := left
      obtain ⟨rightHere, rightLater⟩ := right
      refine ⟨⟨leftHere, rightHere⟩, ?_⟩
      cases moved : system.step state label with
      | none => trivial
      | some next =>
          rw [moved] at leftLater rightLater
          exact ih leftLater rightLater

/-! ### Composition of runs -/

@[simp]
theorem run_nil (state : State) : system.run state [] = some state := rfl

theorem run_cons {state next : State} {label : Label} (labels : List Label)
    (moved : system.step state label = some next) :
    system.run state (label :: labels) = system.run next labels := by
  rw [run, moved]

theorem run_cons_some {state final : State} {label : Label} {labels : List Label}
    (ran : system.run state (label :: labels) = some final) :
    ∃ next, system.step state label = some next ∧ system.run next labels = some final := by
  rw [run] at ran
  cases moved : system.step state label with
  | none => rw [moved] at ran; cases ran
  | some next => rw [moved] at ran; exact ⟨next, rfl, ran⟩

theorem run_append {start middle : State} (first second : List Label)
    (ran : system.run start first = some middle) :
    system.run start (first ++ second) = system.run middle second := by
  induction first generalizing start with
  | nil =>
      rw [run_nil, Option.some.injEq] at ran
      rw [ran, List.nil_append]
  | cons label labels ih =>
      obtain ⟨next, moved, rest⟩ := system.run_cons_some ran
      rw [List.cons_append, system.run_cons _ moved]
      exact ih rest

theorem Reachable.initial {start : State} (started : system.initial start) :
    system.Reachable start :=
  ⟨start, [], started, rfl⟩

theorem Reachable.run {state final : State} {labels : List Label}
    (reached : system.Reachable state) (ran : system.run state labels = some final) :
    system.Reachable final := by
  obtain ⟨start, before, started, first⟩ := reached
  exact ⟨start, before ++ labels, started, (system.run_append before labels first).trans ran⟩

/-! ### Invariant rules -/

/-- A property every enabled step preserves. -/
def Preserved (property : State → Prop) : Prop :=
  ∀ state label next, property state → system.step state label = some next → property next

/-- A property every allowed enabled step preserves. -/
def PreservedWhen (allowed : State → Label → Prop) (property : State → Prop) : Prop :=
  ∀ state label next, property state → allowed state label →
    system.step state label = some next → property next

theorem run_preserves {property : State → Prop} (preserved : system.Preserved property)
    {state final : State} {labels : List Label}
    (holds : property state) (ran : system.run state labels = some final) :
    property final := by
  induction labels generalizing state with
  | nil =>
      rw [run_nil, Option.some.injEq] at ran
      exact ran ▸ holds
  | cons label labels ih =>
      obtain ⟨next, moved, rest⟩ := system.run_cons_some ran
      exact ih (preserved state label next holds moved) rest

theorem run_preserves_when {allowed : State → Label → Prop} {property : State → Prop}
    (preserved : system.PreservedWhen allowed property)
    {state final : State} {labels : List Label}
    (holds : property state) (permitted : system.Allowed allowed state labels)
    (ran : system.run state labels = some final) :
    property final := by
  induction labels generalizing state with
  | nil =>
      rw [run_nil, Option.some.injEq] at ran
      exact ran ▸ holds
  | cons label labels ih =>
      obtain ⟨next, moved, rest⟩ := system.run_cons_some ran
      obtain ⟨first, later⟩ := permitted
      rw [moved] at later
      exact ih (preserved state label next holds first moved) later rest

/-- What an invariant makes of every allowed label holds along the run. -/
theorem Allowed.implies {allowed more : State → Label → Prop} {property : State → Prop}
    (preserved : system.Preserved property)
    (implies : ∀ state label, property state → allowed state label → more state label)
    {state : State} {labels : List Label} (holds : property state)
    (permitted : system.Allowed allowed state labels) : system.Allowed more state labels := by
  induction labels generalizing state with
  | nil => trivial
  | cons label labels ih =>
      obtain ⟨here, later⟩ := permitted
      constructor
      · exact implies state label holds here
      · cases moved : system.step state label with
        | none => trivial
        | some next =>
            rw [moved] at later
            exact ih (preserved state label next holds moved) later

/-- Established initially and preserved by every step: true of every reachable state. -/
theorem invariant {property : State → Prop}
    (established : ∀ start, system.initial start → property start)
    (preserved : system.Preserved property)
    {state : State} (reached : system.Reachable state) : property state := by
  obtain ⟨start, labels, started, ran⟩ := reached
  exact system.run_preserves preserved (established start started) ran

end System
end LabelledRun
