import NextTime.Eval.Verdict
import Mathlib.Data.List.Forall2
import Mathlib.Algebra.Order.Field.Rat
import Mathlib.Tactic.Linarith

/-
What a stage of a draft's evaluation decides is what holds whichever way its trials without an
outcome would have gone.
-/

namespace NextTime.Eval

/-! ### Completions -/

/-- The trial as it would have been with an outcome. -/
structure Completes (trial completed : VerdictTrial) : Prop where
  arm : completed.arm = trial.arm
  caseId : completed.caseId = trial.caseId
  split : completed.split = trial.split
  ended : trialHasOutcome completed = true
  same : trialHasOutcome trial = true → readingOf completed = readingOf trial

def Completion (trials completed : List VerdictTrial) : Prop :=
  List.Forall₂ Completes trials completed

theorem readingOf_eq_none_iff {trial : VerdictTrial} :
    readingOf trial = .none ↔ trialHasOutcome trial = false := by
  rw [readingOf]
  cases trialHasOutcome trial with
  | true =>
      simp only [Bool.not_true, Bool.false_eq_true, if_false]
      split
      next => exact iff_of_false (fun same => nomatch same) (fun same => nomatch same)
      next => exact iff_of_false (fun same => nomatch same) (fun same => nomatch same)
  | false => exact iff_of_true rfl rfl

/-- The trials that are kept are completed by those that are kept. -/
theorem Completion.filter {trials completed : List VerdictTrial}
    (completion : Completion trials completed) {keeps : VerdictTrial → Bool}
    (alike : ∀ trial other, Completes trial other → keeps other = keeps trial) :
    Completion (trials.filter keeps) (completed.filter keeps) := by
  induction completion with
  | nil => exact .nil
  | @cons trial other trials completed completes _ ih =>
      rw [List.filter_cons, List.filter_cons, alike trial other completes]
      cases keeps trial with
      | true => exact .cons completes ih
      | false => exact ih

theorem Completion.ofArm {trials completed : List VerdictTrial}
    (completion : Completion trials completed) (arm : EvalArm) :
    Completion (ofArm arm trials) (ofArm arm completed) :=
  completion.filter fun _ _ completes => by rw [completes.arm]

theorem Completion.ofCase {trials completed : List VerdictTrial}
    (completion : Completion trials completed) (caseId : String) :
    Completion (ofCase caseId trials) (ofCase caseId completed) :=
  completion.filter fun _ _ completes => by rw [completes.caseId]

theorem countOf_cons (reading : TrialReading) (trial : VerdictTrial) (trials : List VerdictTrial) :
    countOf reading (trial :: trials) =
      countOf reading trials + if readingOf trial = reading then 1 else 0 := by
  rw [countOf, List.countP_cons]
  simp only [decide_eq_true_eq]
  rfl

theorem length_eq_counts (trials : List VerdictTrial) :
    trials.length = countOf .passed trials + countOf .failed trials + countOf .none trials := by
  induction trials with
  | nil => rfl
  | cons trial trials ih =>
      rw [List.length_cons, ih, countOf_cons, countOf_cons, countOf_cons]
      cases readingOf trial with
      | passed => simp; omega
      | failed => simp; omega
      | none => simp; omega

/-- A completion passes at least what passed, and at most what had no outcome besides. -/
theorem Completion.passed_bounds {trials completed : List VerdictTrial}
    (completion : Completion trials completed) :
    countOf .passed trials ≤ countOf .passed completed ∧
      countOf .passed completed ≤ countOf .passed trials + countOf .none trials := by
  induction completion with
  | nil => exact ⟨Nat.le_refl 0, Nat.le_refl 0⟩
  | @cons trial other trials completed completes _ ih =>
      rw [countOf_cons, countOf_cons, countOf_cons]
      cases read : trialHasOutcome trial with
      | true =>
          have different : readingOf trial ≠ .none := by
            intro without
            rw [readingOf_eq_none_iff.mp without] at read
            cases read
          rw [completes.same read, if_neg different]
          omega
      | false =>
          rw [readingOf_eq_none_iff.mpr read]
          simp only [reduceCtorEq, if_false, if_true]
          split
          next => omega
          next => omega

/-! ### The completions at the two ends -/

/-- The trial with the outcome that is chosen for it, where it has none. -/
def settle (choose : VerdictTrial → Bool) (trial : VerdictTrial) : VerdictTrial :=
  if trialHasOutcome trial then trial
  else { trial with status := .scored, passed := choose trial }

theorem completes_settle (choose : VerdictTrial → Bool) (trial : VerdictTrial) :
    Completes trial (settle choose trial) := by
  rw [settle]
  split
  next ended => exact ⟨rfl, rfl, rfl, ended, fun _ => rfl⟩
  next without => exact ⟨rfl, rfl, rfl, rfl, fun ended => absurd ended without⟩

theorem completion_settle (choose : VerdictTrial → Bool) (trials : List VerdictTrial) :
    Completion trials (trials.map (settle choose)) := by
  induction trials with
  | nil => exact .nil
  | cons trial trials ih => exact .cons (completes_settle choose trial) ih

theorem ofArm_settle (choose : VerdictTrial → Bool) (arm : EvalArm) (trials : List VerdictTrial) :
    ofArm arm (trials.map (settle choose)) = (ofArm arm trials).map (settle choose) := by
  rw [ofArm, ofArm, List.filter_map]
  congr 2
  funext trial
  rw [Function.comp_apply, (completes_settle choose trial).arm]

theorem ofCase_settle (choose : VerdictTrial → Bool) (caseId : String)
    (trials : List VerdictTrial) :
    ofCase caseId (trials.map (settle choose)) = (ofCase caseId trials).map (settle choose) := by
  rw [ofCase, ofCase, List.filter_map]
  congr 2
  funext trial
  rw [Function.comp_apply, (completes_settle choose trial).caseId]

/-- All that have no outcome pass, or none of them does. -/
theorem passed_settle {choose : VerdictTrial → Bool} {trials : List VerdictTrial} {pass : Bool}
    (all : ∀ trial ∈ trials, choose trial = pass) :
    countOf .passed (trials.map (settle choose)) =
      countOf .passed trials + if pass then countOf .none trials else 0 := by
  induction trials with
  | nil => cases pass <;> rfl
  | cons trial trials ih =>
      have rest := ih fun other isIn => all other (List.mem_cons_of_mem _ isIn)
      have here := all trial List.mem_cons_self
      rw [List.map_cons, countOf_cons, countOf_cons, countOf_cons, rest]
      cases read : trialHasOutcome trial with
      | true =>
          have different : readingOf trial ≠ .none := by
            intro without
            rw [readingOf_eq_none_iff.mp without] at read
            cases read
          rw [(completes_settle choose trial).same read, if_neg different, Nat.add_zero]
          omega
      | false =>
          have settled : readingOf (settle choose trial) = if pass then .passed else .failed := by
            rw [settle, read, here, readingOf]
            cases pass <;> rfl
          rw [settled, readingOf_eq_none_iff.mpr read]
          cases pass with
          | true => simp; omega
          | false => simp

/-! ### Regression -/

/-- How many tries of a case an arm passes. -/
def passes (arm : EvalArm) (caseId : String) (trials : List VerdictTrial) : Nat :=
  countOf .passed (ofArm arm (ofCase caseId trials))

def without (arm : EvalArm) (caseId : String) (trials : List VerdictTrial) : Nat :=
  countOf .none (ofArm arm (ofCase caseId trials))

/-- The candidate passes fewer tries of the case than the baseline. -/
def Fewer (trials : List VerdictTrial) (caseId : String) : Prop :=
  passes .candidate caseId trials < passes .baseline caseId trials

theorem isLost_iff {trials : List VerdictTrial} {caseId : String} :
    isLost trials caseId = true ↔
      passes .candidate caseId trials + without .candidate caseId trials <
        passes .baseline caseId trials :=
  decide_eq_true_iff

theorem held_iff {trials : List VerdictTrial} {caseId : String} :
    isLost trials caseId = false ∧ isUnsettled trials caseId = false ↔
      passes .baseline caseId trials + without .baseline caseId trials ≤
        passes .candidate caseId trials := by
  have settled : isUnsettled trials caseId =
      (!isLost trials caseId && decide (passes .candidate caseId trials <
        passes .baseline caseId trials + without .baseline caseId trials)) := rfl
  rw [settled]
  constructor
  · intro held
    rw [held.1, Bool.not_false, Bool.true_and, decide_eq_false_iff_not] at held
    omega
  · intro held
    have kept : isLost trials caseId = false := by
      rw [Bool.eq_false_iff, Ne, isLost_iff]
      omega
    refine ⟨kept, ?_⟩
    rw [decide_eq_false (by omega), Bool.and_false]

theorem mem_caseIdsOf {trials : List VerdictTrial} {caseId : String} :
    caseId ∈ caseIdsOf trials ↔ ∃ trial ∈ trials, trial.caseId = caseId := by
  rw [caseIdsOf, List.mem_eraseDups, List.mem_map]

/-- Something of a case that passes or could pass is a trial of the case. -/
theorem mem_caseIdsOf_of_passes {trials : List VerdictTrial} {caseId : String} {arm : EvalArm}
    (some : 0 < passes arm caseId trials + without arm caseId trials) :
    caseId ∈ caseIdsOf trials := by
  rw [mem_caseIdsOf]
  have length := length_eq_counts (ofArm arm (ofCase caseId trials))
  have filled : 0 < (ofArm arm (ofCase caseId trials)).length := by
    change 0 < countOf .passed _ + countOf .none _ at some
    omega
  obtain ⟨trial, isIn⟩ := List.exists_mem_of_length_pos filled
  have isCase := List.mem_filter.mp (List.mem_filter.mp isIn).1
  exact ⟨trial, isCase.1, of_decide_eq_true isCase.2⟩

theorem Completion.passes_bounds {trials completed : List VerdictTrial}
    (completion : Completion trials completed) (arm : EvalArm) (caseId : String) :
    passes arm caseId trials ≤ passes arm caseId completed ∧
      passes arm caseId completed ≤ passes arm caseId trials + without arm caseId trials :=
  ((completion.ofCase caseId).ofArm arm).passed_bounds

/-- The completion in which the trials of one arm pass, and those of the other do not. -/
def favour (arm : EvalArm) (trials : List VerdictTrial) : List VerdictTrial :=
  trials.map (settle fun trial => trial.arm = arm)

theorem passed_favour (arm other : EvalArm) (trials : List VerdictTrial) :
    countOf .passed (ofArm other (favour arm trials)) =
      countOf .passed (ofArm other trials) +
        if decide (other = arm) then countOf .none (ofArm other trials) else 0 := by
  rw [favour, ofArm_settle]
  apply passed_settle
  intro trial isIn
  rw [of_decide_eq_true (List.mem_filter.mp isIn).2]

theorem passes_favour (arm other : EvalArm) (caseId : String) (trials : List VerdictTrial) :
    passes other caseId (favour arm trials) =
      passes other caseId trials +
        if decide (other = arm) then without other caseId trials else 0 := by
  rw [passes, favour, ofCase_settle]
  exact passed_favour arm other (ofCase caseId trials)

theorem lost_iff_completions (trials : List VerdictTrial) :
    (∃ caseId ∈ caseIdsOf trials, isLost trials caseId = true) ↔
      ∀ completed, Completion trials completed → ∃ caseId, Fewer completed caseId := by
  constructor
  · rintro ⟨caseId, _, lost⟩ completed completion
    have fewer := isLost_iff.mp lost
    have candidate := completion.passes_bounds .candidate caseId
    have baseline := completion.passes_bounds .baseline caseId
    refine ⟨caseId, ?_⟩
    unfold Fewer
    omega
  · intro every
    obtain ⟨caseId, fewer⟩ := every _ (completion_settle _ trials)
    change passes _ _ (favour .candidate trials) < passes _ _ (favour .candidate trials) at fewer
    rw [passes_favour, passes_favour] at fewer
    simp only [decide_true, if_true, reduceCtorEq, decide_false, Bool.false_eq_true, if_false,
      Nat.add_zero] at fewer
    refine ⟨caseId, ?_, isLost_iff.mpr fewer⟩
    apply @mem_caseIdsOf_of_passes _ _ .baseline
    omega

theorem held_iff_completions (trials : List VerdictTrial) :
    (∀ caseId ∈ caseIdsOf trials,
        isLost trials caseId = false ∧ isUnsettled trials caseId = false) ↔
      ∀ completed, Completion trials completed → ¬∃ caseId, Fewer completed caseId := by
  constructor
  · rintro every completed completion ⟨caseId, fewer⟩
    have candidate := completion.passes_bounds .candidate caseId
    have baseline := completion.passes_bounds .baseline caseId
    unfold Fewer at fewer
    have isIn : caseId ∈ caseIdsOf trials := by
      apply @mem_caseIdsOf_of_passes _ _ .baseline
      omega
    have held := held_iff.mp (every caseId isIn)
    omega
  · intro never caseId _
    rw [held_iff]
    apply Nat.le_of_not_lt
    intro fewer
    apply never _ (completion_settle _ trials)
    refine ⟨caseId, ?_⟩
    change passes _ _ (favour .baseline trials) < passes _ _ (favour .baseline trials)
    rw [passes_favour, passes_favour]
    simp only [decide_true, if_true, reduceCtorEq, decide_false, Bool.false_eq_true, if_false,
      Nat.add_zero]
    exact fewer

end NextTime.Eval
