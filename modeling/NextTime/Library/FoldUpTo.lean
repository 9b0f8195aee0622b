import Mathlib.Data.List.Perm.Basic

/-
Folding steps that commute up to a relation on the states they lead to, where the steps
of a list go together. Nothing here names a particular program.
-/

namespace FoldUpTo

variable {State Step : Type*} {act : State → Step → State} {Good : State → Prop}
  {Same : State → State → Prop} {Takes : Step → Prop} {Together : Step → Step → Prop}

/-- The same steps lead from the same state to the same. -/
theorem same_foldl (keeps : ∀ {state step}, Good state → Takes step → Good (act state step))
    (congr : ∀ {first second step}, Good first → Good second → Takes step → Same first second →
      Same (act first step) (act second step))
    {steps : List Step} (takes : ∀ step ∈ steps, Takes step) {first second : State}
    (goodFirst : Good first) (goodSecond : Good second) (same : Same first second) :
    Same (steps.foldl act first) (steps.foldl act second) := by
  induction steps generalizing first second with
  | nil => exact same
  | cons step rest ih =>
      have taken := takes step List.mem_cons_self
      apply ih
      · exact fun other member => takes other (List.mem_cons_of_mem _ member)
      · exact keeps goodFirst taken
      · exact keeps goodSecond taken
      · exact congr goodFirst goodSecond taken same

/-- Steps that go together lead to the same in any order. -/
theorem foldl_perm (keeps : ∀ {state step}, Good state → Takes step → Good (act state step))
    (refl : ∀ {state}, Good state → Same state state)
    (trans : ∀ {first second third}, Same first second → Same second third → Same first third)
    (congr : ∀ {first second step}, Good first → Good second → Takes step → Same first second →
      Same (act first step) (act second step))
    (commute : ∀ {state first second}, Good state → Takes first → Takes second →
      Together first second → Same (act (act state first) second) (act (act state second) first))
    (symm : ∀ {first second}, Together first second → Together second first)
    {steps others : List Step} (perm : steps.Perm others) (takes : ∀ step ∈ steps, Takes step)
    (together : steps.Pairwise Together) {state : State} (good : Good state) :
    Same (steps.foldl act state) (others.foldl act state) := by
  induction perm generalizing state with
  | nil => exact refl good
  | cons step _ ih =>
      apply ih
      · exact fun other member => takes other (List.mem_cons_of_mem _ member)
      · exact together.of_cons
      · exact keeps good (takes step List.mem_cons_self)
  | swap first second rest =>
      have takesSecond := takes second List.mem_cons_self
      have takesFirst := takes first (List.mem_cons_of_mem _ List.mem_cons_self)
      have apart := (List.pairwise_cons.mp together).1 first List.mem_cons_self
      rw [List.foldl_cons, List.foldl_cons, List.foldl_cons, List.foldl_cons]
      apply same_foldl keeps congr
      · intro step member
        exact takes step (List.mem_cons_of_mem _ (List.mem_cons_of_mem _ member))
      · exact keeps (keeps good takesSecond) takesFirst
      · exact keeps (keeps good takesFirst) takesSecond
      · exact commute good takesSecond takesFirst apart
  | trans one _ ihFirst ihSecond =>
      have first := ihFirst takes together good
      have second := ihSecond (fun step member => takes step (one.mem_iff.mpr member))
        ((one.pairwise_iff symm).mp together) good
      exact trans first second

end FoldUpTo
