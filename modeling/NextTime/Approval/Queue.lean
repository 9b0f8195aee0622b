import NextTime.Approval.ActionRequest
import NextTime.Approval.ActionTarget

/-
What may run next on one Gatekeeper, and what holds back each request that may
not: the planner reads one snapshot of the queue, in the order the database
lists it. A uuid is the number its bytes spell, which is how the database orders it.
-/

namespace NextTime.Approval

structure QueueEntry where
  id : Nat
  status : ActionRequestStatus
  target : Option ActionTarget
deriving DecidableEq, Repr

inductive HoldScope
  | target
  | gate
deriving DecidableEq, Repr

/-- What an approved row waits for, when a row that is not approved holds it back. -/
structure QueueHold where
  rootId : Nat
  rootStatus : ActionRequestStatus
  scope : HoldScope
deriving DecidableEq, Repr

structure QueuePlan where
  next : Option QueueEntry
  holds : List (Nat × QueueHold)
deriving DecidableEq, Repr

def queuedStatus : ActionRequestStatus → Bool
  | .autoApproved | .approved | .pendingApproval | .executing => true
  | _ => false

/-- A queued row that no transition has taken: it holds back what conflicts with it. -/
def holdsBack (row : QueueEntry) : Bool :=
  row.status == .pendingApproval || row.status == .executing

def ownScope (target : Option ActionTarget) : HoldScope :=
  if target.isNone then .gate else .target

def widerScope (target : Option ActionTarget) (held : HoldScope) : HoldScope :=
  if target.isNone || held == .gate then .gate else .target

/-- The loop over the earlier rows: whether one conflicts, and the hold the
first conflicting row with a hold passes on, where the loop stops. -/
def scanEarlier (holds : List (Nat × QueueHold)) (row : QueueEntry) :
    List QueueEntry → Bool → Bool × Option QueueHold
  | [], conflicts => (conflicts, none)
  | earlier :: rest, conflicts =>
      if actionTargetsConflict earlier.target row.target then
        match holds.lookup earlier.id with
        | none => scanEarlier holds row rest true
        | some held =>
            (true, some { held with scope := widerScope row.target held.scope })
      else scanEarlier holds row rest conflicts

/-- The first executing row after this one that conflicts with it. -/
def startedBehind (row : QueueEntry) (later : List QueueEntry) : Option QueueEntry :=
  later.find? fun other =>
    other.status == .executing && actionTargetsConflict other.target row.target

def planRow (plan : QueuePlan) (earlier : List QueueEntry) (row : QueueEntry)
    (later : List QueueEntry) : QueuePlan :=
  if holdsBack row then
    { plan with
      holds := plan.holds ++
        [(row.id, { rootId := row.id, rootStatus := row.status, scope := ownScope row.target })] }
  else
    match scanEarlier plan.holds row earlier false with
    | (_, some hold) => { plan with holds := plan.holds ++ [(row.id, hold)] }
    | (conflicts, none) =>
        match startedBehind row later with
        | some started =>
            { plan with
              holds := plan.holds ++
                [(row.id,
                  { rootId := started.id
                    rootStatus := .executing
                    scope := if row.target.isNone || started.target.isNone then .gate else .target })] }
        | none =>
            if !conflicts && plan.next.isNone then { plan with next := some row } else plan

def planRows (plan : QueuePlan) (earlier : List QueueEntry) : List QueueEntry → QueuePlan
  | [] => plan
  | row :: later => planRows (planRow plan earlier row later) (earlier ++ [row]) later

/-- The rows awaiting approval or executing only passed their hold on. -/
def planGatekeeperQueue (rows : List QueueEntry) : QueuePlan :=
  let queued := rows.filter fun row => queuedStatus row.status
  let plan := planRows { next := none, holds := [] } [] queued
  let holding := (queued.filter holdsBack).map (·.id)
  { plan with holds := plan.holds.filter fun entry => !holding.contains entry.1 }

/-! ### What the planned row waited for -/

/-- The row may start: it is approved, nothing before it conflicts with it, and
nothing that conflicts with it has started behind it. -/
structure MayStart (earlier : List QueueEntry) (row : QueueEntry) (later : List QueueEntry) :
    Prop where
  approved : row.status = .autoApproved ∨ row.status = .approved
  clear : ∀ other ∈ earlier, actionTargetsConflict other.target row.target = false
  notStarted : ∀ other ∈ later, other.status = .executing →
    actionTargetsConflict other.target row.target = false

theorem scanEarlier_clear {holds : List (Nat × QueueHold)} {row : QueueEntry}
    {earlier : List QueueEntry} {conflicts : Bool}
    (scanned : scanEarlier holds row earlier conflicts = (false, none)) :
    conflicts = false ∧ ∀ other ∈ earlier, actionTargetsConflict other.target row.target = false := by
  induction earlier generalizing conflicts with
  | nil =>
      simp only [scanEarlier, Prod.mk.injEq, and_true] at scanned
      exact ⟨scanned, fun _ member => nomatch member⟩
  | cons head rest ih =>
      rw [scanEarlier] at scanned
      cases conflicting : actionTargetsConflict head.target row.target with
      | true =>
          rw [conflicting, if_pos rfl] at scanned
          cases found : holds.lookup head.id with
          | none =>
              rw [found] at scanned
              have impossible := (ih scanned).1
              cases impossible
          | some held =>
              rw [found] at scanned
              cases scanned
      | false =>
          rw [conflicting, if_neg Bool.false_ne_true] at scanned
          obtain ⟨same, rest⟩ := ih scanned
          refine ⟨same, ?_⟩
          intro other member
          rcases List.mem_cons.mp member with rfl | later
          · exact conflicting
          · exact rest other later

/-- A row the planner takes up as next is one that may start where it stands. -/
theorem planRow_next {plan : QueuePlan} {earlier later : List QueueEntry} {row next : QueueEntry}
    (queued : queuedStatus row.status = true)
    (planned : (planRow plan earlier row later).next = some next) :
    plan.next = some next ∨ (next = row ∧ MayStart earlier row later) := by
  unfold planRow at planned
  split at planned
  · exact .inl planned
  · next free =>
      split at planned
      · exact .inl planned
      · next conflicts scanned =>
          split at planned
          · exact .inl planned
          · next unstarted =>
              split at planned
              · next taken =>
                  simp only [Bool.and_eq_true, Bool.not_eq_true'] at taken
                  rw [taken.1] at scanned
                  refine .inr ⟨(Option.some.inj planned).symm, ?_⟩
                  refine
                    { approved := ?_, clear := (scanEarlier_clear scanned).2, notStarted := ?_ }
                  · cases status : row.status <;>
                      simp_all [queuedStatus, holdsBack]
                  · intro other member executing
                    have skipped := List.find?_eq_none.mp unstarted other member
                    simpa [executing] using skipped
              · exact .inl planned

theorem planRows_next {plan : QueuePlan} {earlier rows : List QueueEntry} {next : QueueEntry}
    (queued : ∀ row ∈ rows, queuedStatus row.status = true)
    (planned : (planRows plan earlier rows).next = some next) :
    plan.next = some next ∨
      ∃ front back, rows = front ++ next :: back ∧ MayStart (earlier ++ front) next back := by
  induction rows generalizing plan earlier with
  | nil => exact .inl planned
  | cons row later ih =>
      rw [planRows] at planned
      rcases ih (fun other member => queued other (List.mem_cons_of_mem _ member)) planned with
        already | ⟨front, back, split, mayStart⟩
      · rcases planRow_next (queued row List.mem_cons_self) already with before | ⟨rfl, mayStart⟩
        · exact .inl before
        · exact .inr ⟨[], later, rfl, by rwa [List.append_nil]⟩
      · refine .inr ⟨row :: front, back, by rw [split]; rfl, ?_⟩
        rwa [List.append_assoc] at mayStart

/-- The planner's choice, in the snapshot it was made from. -/
theorem planGatekeeperQueue_next {rows : List QueueEntry} {next : QueueEntry}
    (planned : (planGatekeeperQueue rows).next = some next) :
    ∃ front back, rows.filter (fun row => queuedStatus row.status) = front ++ next :: back ∧
      MayStart front next back := by
  have queued : ∀ row ∈ rows.filter (fun row => queuedStatus row.status),
      queuedStatus row.status = true :=
    fun row member => (List.mem_filter.mp member).2
  rcases planRows_next queued planned with nothing | found
  · cases nothing
  · simpa using found

/-! ### A queue of approved rows always goes on -/

theorem planRow_keeps_next {plan : QueuePlan} {next : QueueEntry} (chosen : plan.next = some next)
    (earlier : List QueueEntry) (row : QueueEntry) (later : List QueueEntry) :
    (planRow plan earlier row later).next = some next := by
  unfold planRow
  repeat' split
  all_goals first | exact chosen | simp_all

theorem planRows_keeps_next {plan : QueuePlan} {next : QueueEntry} (chosen : plan.next = some next)
    (earlier rows : List QueueEntry) : (planRows plan earlier rows).next = some next := by
  induction rows generalizing plan earlier with
  | nil => exact chosen
  | cons row later ih => exact ih (planRow_keeps_next chosen earlier row later) _

/-- With an approved row queued, and none awaiting approval or executing, the
planner has a row to start: the first one. -/
theorem planGatekeeperQueue_progress {rows : List QueueEntry}
    (approved : ∃ row ∈ rows, row.status = .autoApproved ∨ row.status = .approved)
    (unblocked : ∀ row ∈ rows, row.status ≠ .pendingApproval ∧ row.status ≠ .executing) :
    (planGatekeeperQueue rows).next ≠ none := by
  obtain ⟨row, member, isApproved⟩ := approved
  have queued : row ∈ rows.filter (fun row => queuedStatus row.status) := by
    refine List.mem_filter.mpr ⟨member, ?_⟩
    rcases isApproved with status | status <;> simp [status, queuedStatus]
  cases split : rows.filter (fun row => queuedStatus row.status) with
  | nil =>
      rw [split] at queued
      cases queued
  | cons first rest =>
      have inRows : ∀ other ∈ first :: rest, other ∈ rows := by
        intro other inside
        rw [← split] at inside
        exact (List.mem_filter.mp inside).1
      have free : holdsBack first = false := by
        have blocked := unblocked first (inRows first List.mem_cons_self)
        simp [holdsBack, blocked.1, blocked.2]
      have unstarted : startedBehind first rest = none := by
        refine List.find?_eq_none.mpr ?_
        intro other inside
        have blocked := unblocked other (inRows other (List.mem_cons_of_mem _ inside))
        simp [blocked.2]
      have chosen : (planRow { next := none, holds := [] } [] first rest).next = some first := by
        simp [planRow, free, scanEarlier, unstarted]
      have kept := planRows_keeps_next chosen ([] ++ [first]) rest
      simp only [planGatekeeperQueue, split, planRows]
      rw [kept]
      exact nofun

end NextTime.Approval
