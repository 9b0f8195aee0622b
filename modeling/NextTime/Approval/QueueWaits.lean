import Mathlib.Data.List.Nodup
import NextTime.Approval.Queue
import NextTime.Library.OwnProperties

/-
What a queue plan says of every approved row: it is next, or held by a row named
through a chain of conflicts, or it waits for earlier approved rows alone.
-/

namespace NextTime.Approval

def approvedStatus (row : QueueEntry) : Prop :=
  row.status = .autoApproved ∨ row.status = .approved

theorem approved_of_queued {row : QueueEntry} (queued : queuedStatus row.status = true)
    (free : holdsBack row = false) : approvedStatus row := by
  rw [holdsBack, Bool.or_eq_false_iff, beq_eq_false_iff_ne, beq_eq_false_iff_ne] at free
  rw [approvedStatus]
  cases status : row.status with
  | autoApproved => exact Or.inl rfl
  | approved => exact Or.inr rfl
  | pendingApproval => exact absurd status free.1
  | executing => exact absurd status free.2
  | _ =>
      rw [status] at queued
      cases queued

theorem holdsBack_of_approved {row : QueueEntry} (approved : approvedStatus row) :
    holdsBack row = false := by
  cases approved with
  | inl status =>
      rw [holdsBack, status]
      rfl
  | inr status =>
      rw [holdsBack, status]
      rfl

/-- The first of the two stands before the second in the queue. -/
def StandsBefore (queued : List QueueEntry) (first second : QueueEntry) : Prop :=
  ∃ front middle back, queued = front ++ first :: (middle ++ second :: back)

theorem standsBefore_of_mem {front back : List QueueEntry} {row other : QueueEntry}
    (member : other ∈ front) : StandsBefore (front ++ row :: back) other row := by
  obtain ⟨before, after, split⟩ := List.append_of_mem member
  refine ⟨before, after, back, ?_⟩
  rw [split, List.append_assoc, List.cons_append]

theorem standsBefore_behind {front back : List QueueEntry} {row other : QueueEntry}
    (member : other ∈ back) : StandsBefore (front ++ row :: back) row other := by
  obtain ⟨before, after, split⟩ := List.append_of_mem member
  exact ⟨front, before, after, by rw [split]⟩

/-- From a held row to the row that holds it back: conflict by conflict to earlier rows, at last
one that awaits approval or executes, or one that started though it stands behind. -/
inductive HoldChain (queued : List QueueEntry) : List QueueEntry → Prop
  | held (row root : QueueEntry) (before : StandsBefore queued root row)
      (conflict : actionTargetsConflict root.target row.target = true)
      (holds : holdsBack root = true) : HoldChain queued [row, root]
  | started (row root : QueueEntry) (behind : StandsBefore queued row root)
      (conflict : actionTargetsConflict root.target row.target = true)
      (executing : root.status = .executing) : HoldChain queued [row, root]
  | through (row other : QueueEntry) (rest : List QueueEntry)
      (before : StandsBefore queued other row)
      (conflict : actionTargetsConflict other.target row.target = true)
      (approved : approvedStatus other) (chain : HoldChain queued (other :: rest)) :
      HoldChain queued (row :: other :: rest)

/-- The hold names the end of such a chain, and whether a row on it acts on the whole gate. -/
def Explained (queued : List QueueEntry) (row : QueueEntry) (hold : QueueHold) : Prop :=
  ∃ path root, HoldChain queued (row :: path) ∧ path.getLast? = some root ∧
    root.id = hold.rootId ∧ root.status = hold.rootStatus ∧ holdsBack root = true ∧
      (hold.scope = .target ↔ ∀ link ∈ row :: path, link.target ≠ none)

/-- The row may start where it stands, and no row before it may. -/
def FirstToStart (queued : List QueueEntry) (row : QueueEntry) : Prop :=
  ∃ front back, queued = front ++ row :: back ∧ MayStart front row back ∧
    ∀ before other after, front = before ++ other :: after →
      ¬ MayStart before other (after ++ row :: back)

/-! ### Scopes -/

theorem widerScope_target {target : Option ActionTarget} {held : HoldScope} :
    widerScope target held = .target ↔ target ≠ none ∧ held = .target := by
  cases target with
  | none =>
      constructor
      · intro impossible
        cases impossible
      · exact fun both => absurd rfl both.1
  | some target =>
      cases held with
      | target => exact ⟨fun _ => ⟨Option.some_ne_none target, rfl⟩, fun _ => rfl⟩
      | gate =>
          constructor
          · intro impossible
            cases impossible
          · exact fun both => nomatch both.2

theorem ownScope_target {target : Option ActionTarget} :
    ownScope target = .target ↔ target ≠ none := by
  cases target with
  | none =>
      constructor
      · intro impossible
        cases impossible
      · exact fun some => absurd rfl some
  | some target => exact ⟨fun _ => Option.some_ne_none target, fun _ => rfl⟩

/-! ### The hold a row takes over -/

/-- A row passes on its own hold, or the one it is held by. -/
def PassesOn (queued : List QueueEntry) (row : QueueEntry) (hold : QueueHold) : Prop :=
  (holdsBack row = true ∧ hold = ⟨row.id, row.status, ownScope row.target⟩) ∨
    (approvedStatus row ∧ Explained queued row hold)

theorem PassesOn.explains {queued : List QueueEntry} {other row : QueueEntry} {held : QueueHold}
    (passes : PassesOn queued other held) (before : StandsBefore queued other row)
    (conflict : actionTargetsConflict other.target row.target = true) :
    Explained queued row { held with scope := widerScope row.target held.scope } := by
  cases passes with
  | inl own =>
      obtain ⟨holds, same⟩ := own
      refine ⟨[other], other, .held row other before conflict holds, rfl, ?_, ?_, holds, ?_⟩
      · rw [same]
      · rw [same]
      · rw [same]
        change widerScope row.target (ownScope other.target) = .target ↔ _
        rw [widerScope_target, ownScope_target, List.forall_mem_cons, List.forall_mem_singleton]
  | inr inherited =>
      obtain ⟨approved, path, root, chain, ends, isRoot, isStatus, holds, scope⟩ := inherited
      refine ⟨other :: path, root, .through row other path before conflict approved chain, ?_,
        isRoot, isStatus, holds, ?_⟩
      · rw [List.getLast?_cons, ends]
        rfl
      · change widerScope row.target held.scope = .target ↔ _
        rw [widerScope_target, scope, List.forall_mem_cons, List.forall_mem_cons,
          List.forall_mem_cons]

theorem scanEarlier_some {holds : List (Nat × QueueHold)} {row : QueueEntry}
    {earlier : List QueueEntry} {conflicts found : Bool} {hold : QueueHold}
    (scanned : scanEarlier holds row earlier conflicts = (found, some hold)) :
    ∃ other ∈ earlier, actionTargetsConflict other.target row.target = true ∧
      ∃ held, holds.lookup other.id = some held ∧
        hold = { held with scope := widerScope row.target held.scope } := by
  induction earlier generalizing conflicts with
  | nil => cases scanned
  | cons head rest ih =>
      rw [scanEarlier] at scanned
      by_cases conflict : actionTargetsConflict head.target row.target = true
      · rw [if_pos conflict] at scanned
        cases looked : holds.lookup head.id with
        | none =>
            rw [looked] at scanned
            obtain ⟨other, member, rest⟩ := ih scanned
            exact ⟨other, List.mem_cons_of_mem _ member, rest⟩
        | some held =>
            rw [looked] at scanned
            cases scanned
            exact ⟨head, List.mem_cons_self, conflict, held, looked, rfl⟩
      · rw [if_neg conflict] at scanned
        obtain ⟨other, member, rest⟩ := ih scanned
        exact ⟨other, List.mem_cons_of_mem _ member, rest⟩

theorem scanEarlier_none {holds : List (Nat × QueueHold)} {row : QueueEntry}
    {earlier : List QueueEntry} {conflicts found : Bool}
    (scanned : scanEarlier holds row earlier conflicts = (found, none)) :
    (∀ other ∈ earlier, actionTargetsConflict other.target row.target = true →
      holds.lookup other.id = none) ∧
      (found = false ↔ conflicts = false ∧
        ∀ other ∈ earlier, actionTargetsConflict other.target row.target = false) := by
  induction earlier generalizing conflicts with
  | nil =>
      rw [scanEarlier] at scanned
      have same := (Prod.mk.inj scanned).1
      refine ⟨fun _ member => (by cases member), ?_⟩
      rw [same]
      exact ⟨fun clear => ⟨clear, fun _ member => (by cases member)⟩, And.left⟩
  | cons head rest ih =>
      rw [scanEarlier] at scanned
      by_cases conflict : actionTargetsConflict head.target row.target = true
      · rw [if_pos conflict] at scanned
        cases looked : holds.lookup head.id with
        | some held =>
            rw [looked] at scanned
            cases scanned
        | none =>
            rw [looked] at scanned
            obtain ⟨unheld, clear⟩ := ih scanned
            constructor
            · intro other member conflicting
              cases List.mem_cons.mp member with
              | inl same => exact same ▸ looked
              | inr later => exact unheld other later conflicting
            · constructor
              · intro free
                exact absurd (clear.mp free).1 Bool.true_eq_false.mp
              · intro free
                have apart := free.2 head List.mem_cons_self
                rw [conflict] at apart
                cases apart
      · rw [if_neg conflict] at scanned
        obtain ⟨unheld, clear⟩ := ih scanned
        constructor
        · intro other member conflicting
          cases List.mem_cons.mp member with
          | inl same => exact absurd (same ▸ conflicting) conflict
          | inr later => exact unheld other later conflicting
        · rw [clear, List.forall_mem_cons]
          have free := Bool.eq_false_iff.mpr conflict
          exact ⟨fun both => ⟨both.1, free, both.2⟩, fun all => ⟨all.1, all.2.2⟩⟩

/-! ### One row -/

/-- Why a row is put on the map. -/
inductive TakesOver (holds : List (Nat × QueueHold)) (earlier : List QueueEntry) (row : QueueEntry)
    (later : List QueueEntry) : QueueHold → Prop
  | own (holdsBack : holdsBack row = true) :
      TakesOver holds earlier row later ⟨row.id, row.status, ownScope row.target⟩
  | passed (free : holdsBack row = false) (other : QueueEntry) (held : QueueHold)
      (member : other ∈ earlier)
      (conflict : actionTargetsConflict other.target row.target = true)
      (found : holds.lookup other.id = some held) :
      TakesOver holds earlier row later
        { held with scope := widerScope row.target held.scope }
  | started (free : holdsBack row = false) (other : QueueEntry)
      (behind : startedBehind row later = some other) :
      TakesOver holds earlier row later
        ⟨other.id, .executing,
          if row.target.isNone || other.target.isNone then .gate else .target⟩

theorem planRow_cases (plan : QueuePlan) (earlier : List QueueEntry) (row : QueueEntry)
    (later : List QueueEntry) :
    (∃ hold, TakesOver plan.holds earlier row later hold ∧
      planRow plan earlier row later =
        { plan with holds := plan.holds ++ [(row.id, hold)] }) ∨
      (holdsBack row = false ∧ startedBehind row later = none ∧
        ∃ conflicts, scanEarlier plan.holds row earlier false = (conflicts, none) ∧
          planRow plan earlier row later =
            if !conflicts && plan.next.isNone then { plan with next := some row } else plan) := by
  rw [planRow]
  by_cases holding : holdsBack row = true
  · rw [if_pos holding]
    exact Or.inl ⟨_, .own holding, rfl⟩
  · rw [if_neg holding]
    have free := Bool.eq_false_iff.mpr holding
    split
    next conflicts hold scanned =>
      obtain ⟨other, member, conflict, held, found, same⟩ := scanEarlier_some scanned
      refine Or.inl ⟨hold, ?_, rfl⟩
      rw [same]
      exact .passed free other held member conflict found
    next conflicts scanned =>
      split
      next started behind => exact Or.inl ⟨_, .started free started behind, rfl⟩
      next behind => exact Or.inr ⟨free, behind, conflicts, scanned, rfl⟩

theorem startedBehind_some {row other : QueueEntry} {later : List QueueEntry}
    (behind : startedBehind row later = some other) :
    other ∈ later ∧ other.status = .executing ∧
      actionTargetsConflict other.target row.target = true := by
  have test := List.find?_some behind
  rw [Bool.and_eq_true, beq_iff_eq] at test
  exact ⟨List.mem_of_find?_eq_some behind, test⟩

theorem startedBehind_none {row : QueueEntry} {later : List QueueEntry}
    (behind : startedBehind row later = none) :
    ∀ other ∈ later, other.status = .executing →
      actionTargetsConflict other.target row.target = false := by
  intro other member executing
  have test := List.find?_eq_none.mp behind other member
  rw [executing, beq_self_eq_true, Bool.true_and] at test
  exact Bool.eq_false_iff.mpr test

/-- A row on the map does not start. -/
theorem TakesOver.waits {holds : List (Nat × QueueHold)} {earlier later : List QueueEntry}
    {row : QueueEntry} {hold : QueueHold} (takes : TakesOver holds earlier row later hold) :
    ¬ MayStart earlier row later := by
  intro mayStart
  cases takes with
  | own holding =>
      rw [holdsBack_of_approved mayStart.approved] at holding
      cases holding
  | passed _ other held member conflict _ =>
      rw [mayStart.clear other member] at conflict
      cases conflict
  | started _ other behind =>
      obtain ⟨member, executing, conflict⟩ := startedBehind_some behind
      rw [mayStart.notStarted other member executing] at conflict
      cases conflict

/-- What the map says of a row it has passed. -/
inductive Placed (queued : List QueueEntry) (holds : List (Nat × QueueHold))
    (front : List QueueEntry) (row : QueueEntry) (back : List QueueEntry) : Prop
  | held (hold : QueueHold) (found : holds.lookup row.id = some hold)
      (passes : PassesOn queued row hold)
      (waits : ¬ MayStart front row back)
  | unheld (missing : holds.lookup row.id = none) (approved : approvedStatus row)
      (before : ∀ other ∈ front, actionTargetsConflict other.target row.target = true →
        holds.lookup other.id = none)
      (started : ∀ other ∈ back, other.status = .executing →
        actionTargetsConflict other.target row.target = false)

theorem lookup_append_of_ne {holds : List (Nat × QueueHold)} {id other : Nat} {hold : QueueHold}
    (different : other ≠ id) : (holds ++ [(id, hold)]).lookup other = holds.lookup other := by
  have missing : List.lookup other [(id, hold)] = none := by
    rw [List.lookup_cons, beq_false_of_ne different]
    rfl
  rw [List.lookup_append, missing, Option.or_none]

/-- A row more on the map says nothing of the others. -/
theorem Placed.append {queued front back : List QueueEntry} {holds : List (Nat × QueueHold)}
    {row : QueueEntry} (placed : Placed queued holds front row back) {id : Nat} {hold : QueueHold}
    (here : row.id ≠ id) (earlier : ∀ other ∈ front, other.id ≠ id) :
    Placed queued (holds ++ [(id, hold)]) front row back := by
  cases placed with
  | held own found passes waits =>
      exact .held own ((lookup_append_of_ne here).trans found) passes waits
  | unheld missing approved before started =>
      refine .unheld ((lookup_append_of_ne here).trans missing) approved ?_ started
      intro other member conflict
      rw [lookup_append_of_ne (earlier other member)]
      exact before other member conflict

/-! ### All rows -/

/-- The plan after the earlier rows. -/
structure Planned (earlier later : List QueueEntry) (plan : QueuePlan) : Prop where
  keys : ∀ entry ∈ plan.holds, ∃ row ∈ earlier, row.id = entry.1
  placed : ∀ front row middle, earlier = front ++ row :: middle →
    Placed (earlier ++ later) plan.holds front row (middle ++ later)
  none : plan.next = none → ∀ front row middle, earlier = front ++ row :: middle →
    ¬ MayStart front row (middle ++ later)
  some : ∀ next, plan.next = some next → ∃ front middle, earlier = front ++ next :: middle ∧
    MayStart front next (middle ++ later) ∧
      ∀ before other after, front = before ++ other :: after →
        ¬ MayStart before other (after ++ next :: (middle ++ later))

theorem snoc_split {earlier front middle : List QueueEntry} {last row : QueueEntry}
    (split : earlier ++ [last] = front ++ row :: middle) :
    (middle = [] ∧ row = last ∧ front = earlier) ∨
      ∃ inner, middle = inner ++ [last] ∧ earlier = front ++ row :: inner := by
  cases List.eq_nil_or_concat middle with
  | inl empty =>
      rw [empty] at split
      obtain ⟨same, isLast⟩ := List.append_inj' split rfl
      exact Or.inl ⟨empty, (List.cons.inj isLast).1.symm, same.symm⟩
  | inr more =>
      obtain ⟨inner, end', isMiddle⟩ := more
      rw [isMiddle, List.concat_eq_append, ← List.cons_append, ← List.append_assoc] at split
      obtain ⟨same, isLast⟩ := List.append_inj' split rfl
      refine Or.inr ⟨inner, ?_, same⟩
      rw [isMiddle, List.concat_eq_append, (List.cons.inj isLast).1]

theorem lookup_none_of_keys {holds : List (Nat × QueueHold)} {id : Nat}
    (fresh : ∀ entry ∈ holds, entry.1 ≠ id) : holds.lookup id = none := by
  rw [List.lookup_eq_none_iff]
  intro entry member
  exact bne_iff_ne.mpr (fresh entry member).symm

theorem lookup_append_self {holds : List (Nat × QueueHold)} {id : Nat} {hold : QueueHold}
    (fresh : ∀ entry ∈ holds, entry.1 ≠ id) :
    (holds ++ [(id, hold)]).lookup id = some hold := by
  rw [List.lookup_append, lookup_none_of_keys fresh, Option.none_or, List.lookup_cons,
    beq_self_eq_true]

section
variable {earlier later : List QueueEntry} {plan : QueuePlan} {row : QueueEntry}

theorem TakesOver.passes {hold : QueueHold}
    (takes : TakesOver plan.holds earlier row later hold)
    (planned : Planned earlier (row :: later) plan) (queued : queuedStatus row.status = true) :
    PassesOn (earlier ++ row :: later) row hold := by
  cases takes with
  | own holding => exact Or.inl ⟨holding, rfl⟩
  | passed free other held member conflict found =>
      apply Or.inr
      refine ⟨approved_of_queued queued free, ?_⟩
      obtain ⟨front, middle, split⟩ := List.append_of_mem member
      cases planned.placed front other middle split with
      | held own isOwn passes _ =>
          rw [found] at isOwn
          rw [Option.some.inj isOwn]
          exact passes.explains (standsBefore_of_mem member) conflict
      | unheld missing =>
          rw [found] at missing
          cases missing
  | started free other behind =>
      apply Or.inr
      obtain ⟨member, executing, conflict⟩ := startedBehind_some behind
      have holding : holdsBack other = true := by
        rw [holdsBack, executing]
        rfl
      refine ⟨approved_of_queued queued free, [other], other,
        .started row other (standsBefore_behind member) conflict executing, rfl, rfl, executing,
        holding, ?_⟩
      rw [List.forall_mem_cons, List.forall_mem_singleton]
      change (if (row.target.isNone || other.target.isNone) = true then HoldScope.gate
        else .target) = .target ↔ _
      split
      next none =>
        constructor
        · intro impossible
          cases impossible
        · intro both
          rw [Bool.or_eq_true, Option.isNone_iff_eq_none, Option.isNone_iff_eq_none] at none
          cases none with
          | inl gate => exact absurd gate both.1
          | inr gate => exact absurd gate both.2
      next some =>
        rw [Bool.or_eq_true, not_or, Option.isNone_iff_eq_none, Option.isNone_iff_eq_none] at some
        exact ⟨fun _ => some, fun _ => rfl⟩

/-- What the planner does of one row keeps what the plan says of the others. -/
theorem Planned.step (planned : Planned earlier (row :: later) plan)
    (queued : queuedStatus row.status = true)
    (distinct : ((earlier ++ row :: later).map QueueEntry.id).Nodup) :
    Planned (earlier ++ [row]) later (planRow plan earlier row later) := by
  have apart : ∀ other ∈ earlier, other.id ≠ row.id := by
    intro other member same
    rw [List.map_append, List.map_cons] at distinct
    exact (List.nodup_append.mp distinct).2.2 other.id (List.mem_map_of_mem member) row.id
      List.mem_cons_self same
  have fresh : ∀ entry ∈ plan.holds, entry.1 ≠ row.id := by
    intro entry member same
    obtain ⟨other, isEarlier, isId⟩ := planned.keys entry member
    exact apart other isEarlier (isId.trans same)
  have whole : (earlier ++ [row]) ++ later = earlier ++ row :: later := by
    rw [List.append_assoc, List.singleton_append]
  have mine : ∀ inner : List QueueEntry, (inner ++ [row]) ++ later = inner ++ row :: later := by
    intro inner
    rw [List.append_assoc, List.singleton_append]
  cases planRow_cases plan earlier row later with
  | inl onMap =>
      obtain ⟨hold, takes, isPlan⟩ := onMap
      rw [isPlan]
      constructor
      · intro entry member
        cases List.mem_append.mp member with
        | inl before =>
            obtain ⟨other, isEarlier, same⟩ := planned.keys entry before
            exact ⟨other, List.mem_append_left _ isEarlier, same⟩
        | inr now =>
            rw [List.mem_singleton.mp now]
            exact ⟨row, List.mem_append_right _ (List.mem_singleton_self row), rfl⟩
      · intro front other middle split
        rw [whole]
        cases snoc_split split with
        | inl last =>
            obtain ⟨isMiddle, isRow, isFront⟩ := last
            rw [isMiddle, isRow, isFront]
            exact .held hold (lookup_append_self fresh) (takes.passes planned queued) takes.waits
        | inr before =>
            obtain ⟨inner, isMiddle, splits⟩ := before
            rw [isMiddle, mine]
            apply (planned.placed front other inner splits).append
            · apply apart other
              rw [splits]
              exact List.mem_append_right _ List.mem_cons_self
            · intro one member
              apply apart one
              rw [splits]
              exact List.mem_append_left _ member
      · intro unset front other middle split
        cases snoc_split split with
        | inl last =>
            obtain ⟨isMiddle, isRow, isFront⟩ := last
            rw [isMiddle, isRow, isFront]
            exact takes.waits
        | inr before =>
            obtain ⟨inner, isMiddle, splits⟩ := before
            rw [isMiddle, mine]
            exact planned.none unset front other inner splits
      · intro next set
        obtain ⟨front, middle, split, rest⟩ := planned.some next set
        refine ⟨front, middle ++ [row], ?_, ?_⟩
        · rw [split, List.append_assoc, List.cons_append]
        · rw [mine]
          exact rest
  | inr offMap =>
      obtain ⟨free, behind, conflicts, scanned, isPlan⟩ := offMap
      obtain ⟨unheld, clear⟩ := scanEarlier_none scanned
      have approved := approved_of_queued queued free
      have unstarted := startedBehind_none behind
      have starts : conflicts = false → MayStart earlier row later :=
        fun isClear => ⟨approved, (clear.mp isClear).2, unstarted⟩
      have sameHolds : (planRow plan earlier row later).holds = plan.holds := by
        rw [isPlan]
        split
        next => rfl
        next => rfl
      have before : ∀ front other middle, earlier ++ [row] = front ++ other :: middle →
          (∀ inner, earlier = front ++ other :: inner →
            ¬ MayStart front other (inner ++ row :: later)) →
          (other = row → front = earlier → ¬ MayStart earlier row later) →
            ¬ MayStart front other (middle ++ later) := by
        intro front other middle split old new
        cases snoc_split split with
        | inl last =>
            obtain ⟨isMiddle, isRow, isFront⟩ := last
            rw [isMiddle, isRow, isFront]
            exact new isRow isFront
        | inr earlierSplit =>
            obtain ⟨inner, isMiddle, splits⟩ := earlierSplit
            rw [isMiddle, mine]
            exact old inner splits
      constructor
      · rw [sameHolds]
        intro entry member
        obtain ⟨other, isEarlier, same⟩ := planned.keys entry member
        exact ⟨other, List.mem_append_left _ isEarlier, same⟩
      · rw [sameHolds]
        intro front other middle split
        rw [whole]
        cases snoc_split split with
        | inl last =>
            obtain ⟨isMiddle, isRow, isFront⟩ := last
            rw [isMiddle, isRow, isFront]
            exact .unheld (lookup_none_of_keys fresh) approved unheld unstarted
        | inr earlierSplit =>
            obtain ⟨inner, isMiddle, splits⟩ := earlierSplit
            rw [isMiddle, mine]
            exact planned.placed front other inner splits
      · rw [isPlan]
        intro unset front other middle split
        apply before front other middle split
        · intro inner splits
          apply planned.none _ front other inner splits
          split at unset
          next => cases unset
          next => exact unset
        · intro _ _ mayStart
          have isClear : conflicts = false := clear.mpr ⟨rfl, mayStart.clear⟩
          split at unset
          next => cases unset
          next taken =>
            rw [isClear, unset] at taken
            exact taken rfl
      · rw [isPlan]
        intro next set
        split at set
        next taken =>
          rw [Bool.and_eq_true, Bool.not_eq_true', Option.isNone_iff_eq_none] at taken
          rw [← Option.some.inj set]
          refine ⟨earlier, [], rfl, starts taken.1, ?_⟩
          intro first other after split
          exact planned.none taken.2 first other after split
        next =>
          obtain ⟨front, middle, split, rest⟩ := planned.some next set
          refine ⟨front, middle ++ [row], ?_, ?_⟩
          · rw [split, List.append_assoc, List.cons_append]
          · rw [mine]
            exact rest

end

theorem planned_nil (rows : List QueueEntry) : Planned [] rows { next := none, holds := [] } where
  keys _ member := (nomatch member)
  placed front _ _ split := by
    have length := congrArg List.length split
    rw [List.length_append, List.length_cons] at length
    cases length
  none _ front _ _ split := by
    have length := congrArg List.length split
    rw [List.length_append, List.length_cons] at length
    cases length
  some _ impossible := (nomatch impossible)

theorem planRows_planned {earlier rows : List QueueEntry} {plan : QueuePlan}
    (planned : Planned earlier rows plan) (queued : ∀ row ∈ rows, queuedStatus row.status = true)
    (distinct : ((earlier ++ rows).map QueueEntry.id).Nodup) :
    Planned (earlier ++ rows) [] (planRows plan earlier rows) := by
  induction rows generalizing earlier plan with
  | nil =>
      rw [List.append_nil]
      exact planned
  | cons row later ih =>
      have whole : (earlier ++ [row]) ++ later = earlier ++ row :: later := by
        rw [List.append_assoc, List.singleton_append]
      have stepped := planned.step (queued row List.mem_cons_self) distinct
      have rest := ih stepped (fun other member => queued other (List.mem_cons_of_mem _ member))
        (by rw [whole]; exact distinct)
      rw [whole] at rest
      exact rest

theorem firstToStart_unique {queued : List QueueEntry} {first second : QueueEntry}
    (left : FirstToStart queued first) (right : FirstToStart queued second) : first = second := by
  obtain ⟨front, back, split, mayStart, isFirst⟩ := left
  obtain ⟨otherFront, otherBack, otherSplit, otherMayStart, otherFirst⟩ := right
  rw [split] at otherSplit
  cases List.append_eq_append_iff.mp otherSplit with
  | inl later =>
      obtain ⟨between, isFront, same⟩ := later
      cases between with
      | nil => exact (List.cons.inj same).1
      | cons head between =>
          obtain ⟨isHead, isBack⟩ := List.cons.inj same
          rw [← isHead] at isFront
          rw [isBack] at mayStart
          exact absurd mayStart (otherFirst front first between isFront)
  | inr earlier =>
      obtain ⟨between, isFront, same⟩ := earlier
      cases between with
      | nil => exact (List.cons.inj same).1.symm
      | cons head between =>
          obtain ⟨isHead, isBack⟩ := List.cons.inj same
          rw [← isHead] at isFront
          rw [isBack] at otherMayStart
          exact absurd otherMayStart (isFirst otherFront second between isFront)

/-! ### Three classes -/

/-- It is behind approved rows alone: one conflicts with it or is next, and every earlier row it
conflicts with is approved and not held, and no executing row conflicts with it. -/
structure WaitsForApproved (queued : List QueueEntry) (plan : QueuePlan) (row : QueueEntry) :
    Prop where
  behind : ∃ other, StandsBefore queued other row ∧ approvedStatus other ∧
    (actionTargetsConflict other.target row.target = true ∨ plan.next = some other)
  earlier : ∀ other, StandsBefore queued other row →
    actionTargetsConflict other.target row.target = true →
      approvedStatus other ∧ plan.holds.lookup other.id = none
  executing : ∀ other ∈ queued, other.status = .executing →
    actionTargetsConflict other.target row.target = false

/-- Next, held, or behind approved rows alone: one of the three and not two. -/
inductive OneClass (queued : List QueueEntry) (plan : QueuePlan) (row : QueueEntry) : Prop
  | next (isNext : plan.next = some row) (unheld : plan.holds.lookup row.id = none)
      (not : ¬ WaitsForApproved queued plan row)
  | held (hold : QueueHold) (isHeld : plan.holds.lookup row.id = some hold)
      (notNext : plan.next ≠ some row) (not : ¬ WaitsForApproved queued plan row)
  | waits (waits : WaitsForApproved queued plan row) (unheld : plan.holds.lookup row.id = none)
      (notNext : plan.next ≠ some row)

section
variable {rows queued : List QueueEntry} {plan : QueuePlan}

theorem mem_of_standsBefore {first second : QueueEntry} (before : StandsBefore queued first second) :
    first ∈ queued ∧ second ∈ queued := by
  obtain ⟨front, middle, back, split⟩ := before
  rw [split]
  constructor
  · exact List.mem_append_right _ List.mem_cons_self
  · exact List.mem_append_right _ (List.mem_cons_of_mem _ (List.mem_append_right _
      List.mem_cons_self))

theorem eq_of_id (distinct : (queued.map QueueEntry.id).Nodup) {first second : QueueEntry}
    (left : first ∈ queued) (right : second ∈ queued) (same : first.id = second.id) :
    first = second :=
  List.inj_on_of_nodup_map distinct left right same

/-- Where the row stands is where it is seen from. -/
theorem front_of_standsBefore (distinct : (queued.map QueueEntry.id).Nodup)
    {front back : List QueueEntry} {row other : QueueEntry} (split : queued = front ++ row :: back)
    (before : StandsBefore queued other row) : other ∈ front := by
  obtain ⟨first, middle, last, again⟩ := before
  rw [split] at again distinct
  have nodup : (front ++ row :: back).Nodup := List.Nodup.of_map QueueEntry.id distinct
  have same : front ++ row :: back = (first ++ other :: middle) ++ row :: last := by
    rw [again, List.append_assoc, List.cons_append]
  cases List.append_eq_append_iff.mp same with
  | inl later =>
      obtain ⟨between, isFront, rest⟩ := later
      cases between with
      | nil =>
          rw [List.append_nil] at isFront
          rw [← isFront]
          exact List.mem_append_right _ List.mem_cons_self
      | cons head between =>
          -- The row would stand twice.
          obtain ⟨isHead, isBack⟩ := List.cons.inj rest
          rw [isBack] at nodup
          have once := (List.nodup_cons.mp (List.nodup_append.mp nodup).2.1).1
          exact absurd (List.mem_append_right _ List.mem_cons_self) once
  | inr earlier =>
      obtain ⟨between, isFront, _⟩ := earlier
      rw [isFront]
      exact List.mem_append_left _ (List.mem_append_right _ List.mem_cons_self)

end

/-! ### The plan -/

theorem planGatekeeperQueue_lookup (rows : List QueueEntry) (id : Nat) :
    (planGatekeeperQueue rows).holds.lookup id =
      if id ∈ ((rows.filter fun row => queuedStatus row.status).filter holdsBack).map QueueEntry.id
      then none
      else (planRows { next := none, holds := [] } []
        (rows.filter fun row => queuedStatus row.status)).holds.lookup id := by
  have filtered := OwnProperties.lookup_filter
    (fun key => !(((rows.filter fun row => queuedStatus row.status).filter holdsBack).map
      QueueEntry.id).contains key) id
    (planRows { next := none, holds := [] } []
      (rows.filter fun row => queuedStatus row.status)).holds
  refine filtered.trans ?_
  by_cases member : id ∈ ((rows.filter fun row => queuedStatus row.status).filter holdsBack).map
      QueueEntry.id
  · rw [if_pos member, if_neg]
    rw [List.contains_iff_mem.mpr member]
    exact Bool.false_ne_true
  · rw [if_neg member, if_pos]
    rw [Bool.not_eq_true', ← Bool.not_eq_true, List.contains_iff_mem]
    exact member

section
variable {rows : List QueueEntry} (distinct : (rows.map QueueEntry.id).Nodup)
include distinct

theorem queuedRows_distinct :
    ((rows.filter fun row => queuedStatus row.status).map QueueEntry.id).Nodup :=
  distinct.sublist (List.filter_sublist.map _)

theorem planGatekeeperQueue_planned :
    Planned (rows.filter fun row => queuedStatus row.status) []
      (planRows { next := none, holds := [] } []
        (rows.filter fun row => queuedStatus row.status)) :=
  planRows_planned (planned_nil _) (fun _ member => (List.mem_filter.mp member).2)
    (queuedRows_distinct distinct)

/-- The earliest row that may start, and no other, is next. -/
theorem planGatekeeperQueue_next_iff (row : QueueEntry) :
    (planGatekeeperQueue rows).next = some row ↔
      FirstToStart (rows.filter fun row => queuedStatus row.status) row := by
  have planned := planGatekeeperQueue_planned distinct
  have first : ∀ next, (planGatekeeperQueue rows).next = some next →
      FirstToStart (rows.filter fun row => queuedStatus row.status) next := by
    intro next set
    obtain ⟨front, middle, split, mayStart, isFirst⟩ := planned.some next set
    rw [List.append_nil] at mayStart isFirst
    exact ⟨front, middle, split, mayStart, isFirst⟩
  constructor
  · exact first row
  · intro isFirst
    cases set : (planGatekeeperQueue rows).next with
    | none =>
        obtain ⟨front, back, split, mayStart, _⟩ := isFirst
        have waits := planned.none set front row back split
        rw [List.append_nil] at waits
        exact absurd mayStart waits
    | some next => rw [firstToStart_unique (first next set) isFirst]

theorem lookup_of_approved {row : QueueEntry}
    (member : row ∈ rows.filter fun row => queuedStatus row.status)
    (approved : approvedStatus row) :
    (planGatekeeperQueue rows).holds.lookup row.id =
      (planRows { next := none, holds := [] } []
        (rows.filter fun row => queuedStatus row.status)).holds.lookup row.id := by
  rw [planGatekeeperQueue_lookup, if_neg]
  intro holding
  obtain ⟨other, isHolding, same⟩ := List.mem_map.mp holding
  obtain ⟨isQueued, holds⟩ := List.mem_filter.mp isHolding
  rw [eq_of_id (queuedRows_distinct distinct) isQueued member same,
    holdsBack_of_approved approved] at holds
  cases holds

/-- Every hold on the map is an approved row's, and names the end of a chain of conflicts. -/
theorem planGatekeeperQueue_hold {id : Nat} {hold : QueueHold}
    (found : (planGatekeeperQueue rows).holds.lookup id = some hold) :
    ∃ row ∈ rows.filter fun row => queuedStatus row.status, row.id = id ∧ approvedStatus row ∧
      Explained (rows.filter fun row => queuedStatus row.status) row hold := by
  have planned := planGatekeeperQueue_planned distinct
  rw [planGatekeeperQueue_lookup] at found
  split at found
  next => cases found
  next free =>
    obtain ⟨entry, member, isId⟩ : ∃ entry ∈ (planRows { next := none, holds := [] } []
        (rows.filter fun row => queuedStatus row.status)).holds, entry.1 = id := by
      by_contra missing
      rw [lookup_none_of_keys fun entry member same => missing ⟨entry, member, same⟩] at found
      cases found
    obtain ⟨row, isQueued, same⟩ := planned.keys entry member
    refine ⟨row, isQueued, same.trans isId, ?_⟩
    obtain ⟨front, back, split⟩ := List.append_of_mem isQueued
    cases planned.placed front row back split with
    | held own isOwn passes _ =>
        rw [same, isId, found] at isOwn
        rw [List.append_nil] at passes
        cases passes with
        | inl holding =>
            apply absurd _ free
            rw [← isId, ← same]
            exact List.mem_map_of_mem (List.mem_filter.mpr ⟨isQueued, holding.1⟩)
        | inr explained => exact Option.some.inj isOwn ▸ explained
    | unheld missing =>
        rw [same, isId, found] at missing
        cases missing

/-- The map's word on a queued row, wherever the queue is cut. -/
theorem queued_placed {front back : List QueueEntry} {row : QueueEntry}
    (split : (rows.filter fun row => queuedStatus row.status) = front ++ row :: back) :
    Placed (rows.filter fun row => queuedStatus row.status)
      (planRows { next := none, holds := [] } []
        (rows.filter fun row => queuedStatus row.status)).holds front row back := by
  have placed := (planGatekeeperQueue_planned distinct).placed front row back split
  rw [List.append_nil, List.append_nil] at placed
  exact placed

/-- A row that is not on the map heads no chain. -/
theorem no_chain {path : List QueueEntry}
    (chain : HoldChain (rows.filter fun row => queuedStatus row.status) path) :
    ∀ row rest, path = row :: rest →
      row ∈ (rows.filter fun row => queuedStatus row.status) →
        (planRows { next := none, holds := [] } []
          (rows.filter fun row => queuedStatus row.status)).holds.lookup row.id ≠ none := by
  have nodup := queuedRows_distinct distinct
  induction chain with
  | held row root before conflict holds =>
      intro first rest same member missing
      obtain ⟨isFirst, _⟩ := List.cons.inj same
      rw [← isFirst] at member missing
      obtain ⟨front, back, split⟩ := List.append_of_mem member
      cases queued_placed distinct split with
      | held own found => rw [found] at missing; cases missing
      | unheld _ _ unheld _ =>
          have rootMissing := unheld root (front_of_standsBefore nodup split before) conflict
          obtain ⟨rootFront, rootBack, rootSplit⟩ :=
            List.append_of_mem (mem_of_standsBefore before).1
          cases queued_placed distinct rootSplit with
          | held own found => rw [found] at rootMissing; cases rootMissing
          | unheld _ approved =>
              rw [holdsBack_of_approved approved] at holds
              cases holds
  | started row root behind conflict executing =>
      intro first rest same member missing
      obtain ⟨isFirst, _⟩ := List.cons.inj same
      rw [← isFirst] at member missing
      obtain ⟨front, middle, back, split⟩ := behind
      cases queued_placed distinct split with
      | held own found => rw [found] at missing; cases missing
      | unheld _ _ _ started =>
          rw [started root (List.mem_append_right _ List.mem_cons_self) executing] at conflict
          cases conflict
  | through row other rest before conflict approved chain ih =>
      intro first tail same member missing
      obtain ⟨isFirst, _⟩ := List.cons.inj same
      rw [← isFirst] at member missing
      obtain ⟨front, back, split⟩ := List.append_of_mem member
      cases queued_placed distinct split with
      | held own found => rw [found] at missing; cases missing
      | unheld _ _ unheld _ =>
          exact ih other rest rfl (mem_of_standsBefore before).1
            (unheld other (front_of_standsBefore nodup split before) conflict)

/-- Nothing the next row conflicts with stands before it. -/
theorem next_clear {row : QueueEntry} (isNext : (planGatekeeperQueue rows).next = some row)
    {other : QueueEntry}
    (before : StandsBefore (rows.filter fun row => queuedStatus row.status) other row) :
    actionTargetsConflict other.target row.target = false := by
  obtain ⟨front, back, split, mayStart, _⟩ :=
    (planGatekeeperQueue_next_iff distinct row).mp isNext
  exact mayStart.clear other
    (front_of_standsBefore (queuedRows_distinct distinct) split before)

/-- A row that may start and is not next stands behind the one that is. -/
theorem next_before {front back : List QueueEntry} {row : QueueEntry}
    (split : (rows.filter fun row => queuedStatus row.status) = front ++ row :: back)
    (mayStart : MayStart front row back) (notNext : (planGatekeeperQueue rows).next ≠ some row) :
    ∃ other ∈ front, approvedStatus other ∧ (planGatekeeperQueue rows).next = some other := by
  have planned := planGatekeeperQueue_planned distinct
  cases set : (planGatekeeperQueue rows).next with
  | none =>
      have waits := planned.none set front row back split
      rw [List.append_nil] at waits
      exact absurd mayStart waits
  | some next =>
      obtain ⟨otherFront, otherBack, again, starts, isFirst⟩ :=
        (planGatekeeperQueue_next_iff distinct next).mp set
      rw [split] at again
      refine ⟨next, ?_, starts.approved, rfl⟩
      cases List.append_eq_append_iff.mp again with
      | inl later =>
          obtain ⟨between, isFront, same⟩ := later
          cases between with
          | nil =>
              rw [(List.cons.inj same).1] at notNext
              exact absurd set notNext
          | cons head between =>
              obtain ⟨isHead, isBack⟩ := List.cons.inj same
              rw [← isHead] at isFront
              rw [isBack] at mayStart
              exact absurd mayStart (isFirst front row between isFront)
      | inr earlier =>
          obtain ⟨between, isFront, same⟩ := earlier
          cases between with
          | nil =>
              rw [← (List.cons.inj same).1] at notNext
              exact absurd set notNext
          | cons head between =>
              rw [isFront, (List.cons.inj same).1]
              exact List.mem_append_right _ List.mem_cons_self

theorem waits_of_unheld {row : QueueEntry}
    (member : row ∈ rows.filter fun row => queuedStatus row.status)
    (missing : (planRows { next := none, holds := [] } []
      (rows.filter fun row => queuedStatus row.status)).holds.lookup row.id = none)
    (notNext : (planGatekeeperQueue rows).next ≠ some row) :
    WaitsForApproved (rows.filter fun row => queuedStatus row.status)
      (planGatekeeperQueue rows) row := by
  have nodup := queuedRows_distinct distinct
  obtain ⟨front, back, split⟩ := List.append_of_mem member
  cases queued_placed distinct split with
  | held own found => rw [found] at missing; cases missing
  | unheld _ approved unheld started =>
      have earlier : ∀ other ∈ front, actionTargetsConflict other.target row.target = true →
          approvedStatus other ∧ (planGatekeeperQueue rows).holds.lookup other.id = none := by
        intro other inFront conflict
        have otherMissing := unheld other inFront conflict
        have isQueued : other ∈ rows.filter fun row => queuedStatus row.status := by
          rw [split]
          exact List.mem_append_left _ inFront
        obtain ⟨otherFront, otherBack, otherSplit⟩ := List.append_of_mem isQueued
        cases queued_placed distinct otherSplit with
        | held own found => rw [found] at otherMissing; cases otherMissing
        | unheld _ otherApproved =>
            exact ⟨otherApproved,
              (lookup_of_approved distinct isQueued otherApproved).trans otherMissing⟩
      constructor
      · by_cases conflicting : ∃ other ∈ front,
            actionTargetsConflict other.target row.target = true
        · obtain ⟨other, inFront, conflict⟩ := conflicting
          refine ⟨other, ?_, (earlier other inFront conflict).1, Or.inl conflict⟩
          rw [split]
          exact standsBefore_of_mem inFront
        · have mayStart : MayStart front row back := by
            refine ⟨approved, ?_, started⟩
            intro other inFront
            exact Bool.eq_false_iff.mpr fun conflict => conflicting ⟨other, inFront, conflict⟩
          obtain ⟨other, inFront, otherApproved, isNext⟩ :=
            next_before distinct split mayStart notNext
          refine ⟨other, ?_, otherApproved, Or.inr isNext⟩
          rw [split]
          exact standsBefore_of_mem inFront
      · intro other before conflict
        exact earlier other (front_of_standsBefore nodup split before) conflict
      · intro other isQueued executing
        rw [split] at isQueued
        cases List.mem_append.mp isQueued with
        | inl inFront =>
            apply Bool.eq_false_iff.mpr
            intro conflict
            have otherApproved := (earlier other inFront conflict).1
            rw [approvedStatus, executing] at otherApproved
            cases otherApproved with
            | inl impossible => cases impossible
            | inr impossible => cases impossible
        | inr rest =>
            cases List.mem_cons.mp rest with
            | inl same =>
                rw [← same, approvedStatus, executing] at approved
                cases approved with
                | inl impossible => cases impossible
                | inr impossible => cases impossible
            | inr inBack => exact started other inBack executing

theorem planGatekeeperQueue_class {row : QueueEntry}
    (member : row ∈ rows.filter fun row => queuedStatus row.status)
    (approved : approvedStatus row) :
    OneClass (rows.filter fun row => queuedStatus row.status) (planGatekeeperQueue rows) row := by
  have nodup := queuedRows_distinct distinct
  have looked := lookup_of_approved distinct member approved
  obtain ⟨front, back, split⟩ := List.append_of_mem member
  cases found : (planGatekeeperQueue rows).holds.lookup row.id with
  | some hold =>
      obtain ⟨other, isQueued, same, _, path, root, chain, _⟩ :=
        planGatekeeperQueue_hold distinct found
      rw [eq_of_id nodup isQueued member same] at chain
      refine .held hold found ?_ ?_
      · intro isNext
        obtain ⟨nextFront, nextBack, again, mayStart, _⟩ :=
          (planGatekeeperQueue_next_iff distinct row).mp isNext
        cases queued_placed distinct again with
        | held _ _ _ waits => exact waits mayStart
        | unheld missing =>
            rw [← looked, found] at missing
            cases missing
      · intro waits
        cases chain with
        | held _ root before conflict holds =>
            rw [holdsBack_of_approved (waits.earlier root before conflict).1] at holds
            cases holds
        | started _ root behind conflict executing =>
            rw [waits.executing root (mem_of_standsBefore behind).2 executing] at conflict
            cases conflict
        | through _ other rest before conflict otherApproved chain =>
            have isQueued := (mem_of_standsBefore before).1
            have missing := (waits.earlier other before conflict).2
            rw [lookup_of_approved distinct isQueued otherApproved] at missing
            exact no_chain distinct chain other rest rfl isQueued missing
  | none =>
      rw [found] at looked
      by_cases isNext : (planGatekeeperQueue rows).next = some row
      · refine .next isNext found ?_
        intro waits
        obtain ⟨other, before, _, reason⟩ := waits.behind
        cases reason with
        | inl conflict =>
            rw [next_clear distinct isNext before] at conflict
            cases conflict
        | inr otherNext =>
            rw [isNext] at otherNext
            rw [← Option.some.inj otherNext] at before
            have twice := front_of_standsBefore nodup split before
            rw [split] at nodup
            have apart : (front ++ row :: back).Nodup := List.Nodup.of_map QueueEntry.id nodup
            exact (List.nodup_append.mp apart).2.2 row twice row List.mem_cons_self rfl
      · exact .waits (waits_of_unheld distinct member looked.symm isNext) found isNext

end

/-- Every approved row is next, held, or behind approved rows alone; next is the earliest that may
start; and a hold names the end of a chain of conflicts. -/
theorem queue_plan_explains_waits {rows : List QueueEntry}
    (distinct : (rows.map QueueEntry.id).Nodup) :
    (∀ row ∈ rows, approvedStatus row →
      OneClass (rows.filter fun row => queuedStatus row.status) (planGatekeeperQueue rows) row) ∧
    (∀ row, (planGatekeeperQueue rows).next = some row ↔
      FirstToStart (rows.filter fun row => queuedStatus row.status) row) ∧
    ∀ id hold, (planGatekeeperQueue rows).holds.lookup id = some hold →
      ∃ row ∈ rows.filter fun row => queuedStatus row.status, row.id = id ∧ approvedStatus row ∧
        Explained (rows.filter fun row => queuedStatus row.status) row hold := by
  refine ⟨?_, planGatekeeperQueue_next_iff distinct, fun _ _ => planGatekeeperQueue_hold distinct⟩
  intro row member approved
  apply planGatekeeperQueue_class distinct _ approved
  apply List.mem_filter.mpr
  refine ⟨member, ?_⟩
  cases approved with
  | inl status => rw [status]; rfl
  | inr status => rw [status]; rfl

/-- A site, named by one parameter. -/
def siteBy (param value : String) : ActionTarget where
  type := "Site"
  params := [param]
  identity := [.text value]
  paramsPresent := List.cons_ne_nil param []
  sameArity := rfl
  safe _ _ member := by
    cases List.mem_singleton.mp member

/-- One site awaits approval; the same or another is named otherwise; and a second one. -/
def namedOtherwise : List QueueEntry :=
  [⟨1, .pendingApproval, some (siteBy "id" "1")⟩, ⟨2, .approved, some (siteBy "name" "x")⟩,
    ⟨3, .approved, some (siteBy "id" "2")⟩, ⟨4, .approved, some (siteBy "id" "2")⟩]

theorem queue_plan_explains_waits_otherwise :
    (planGatekeeperQueue namedOtherwise).next = none ∧
      OneClass (namedOtherwise.filter fun row => queuedStatus row.status)
        (planGatekeeperQueue namedOtherwise) ⟨4, .approved, some (siteBy "id" "2")⟩ ∧
      (∀ row, (planGatekeeperQueue namedOtherwise).next = some row ↔
        FirstToStart (namedOtherwise.filter fun row => queuedStatus row.status) row) ∧
      ∀ id hold, (planGatekeeperQueue namedOtherwise).holds.lookup id = some hold →
        ∃ row ∈ namedOtherwise.filter fun row => queuedStatus row.status, row.id = id ∧
          approvedStatus row ∧
            Explained (namedOtherwise.filter fun row => queuedStatus row.status) row hold := by
  have explained := @queue_plan_explains_waits namedOtherwise (by decide)
  refine ⟨by decide, ?_, explained.2⟩
  exact explained.1 _ (by decide) (Or.inr rfl)

/-- The second request started first: it was committed before the first one was. -/
def startedBehindIt : List QueueEntry :=
  [⟨1, .approved, some (siteBy "id" "1")⟩, ⟨2, .executing, some (siteBy "id" "1")⟩]

/-- An approved row that no earlier row conflicts with is not next where a later one executes; and
a row and its root need not act on one instance where the scope is `target`. -/
theorem queue_plan_not_next :
    (approvedStatus ⟨1, .approved, some (siteBy "id" "1")⟩ ∧
      startedBehindIt.head? = some ⟨1, .approved, some (siteBy "id" "1")⟩ ∧
      (planGatekeeperQueue startedBehindIt).next = none) ∧
    (planGatekeeperQueue namedOtherwise).holds.lookup 3 = some ⟨1, .pendingApproval, .target⟩ ∧
      actionTargetsConflict (some (siteBy "id" "1")) (some (siteBy "id" "2")) = false := by
  refine ⟨⟨Or.inr rfl, by decide, by decide⟩, by decide, by decide⟩

end NextTime.Approval
