import NextTime.DraftLifecycle.ExpirySweep
import Mathlib.Data.List.Nodup

/-
What the expiry sweep removes and records, in the runs whose deletes meet the drafts of the scan.
-/

namespace NextTime.DraftLifecycle

/-! ### The table -/

theorem mem_of_findRow {ref : DraftRef} {rows : List VersionRow} {row : VersionRow}
    (found : findRow ref rows = some row) : row ∈ rows ∧ row.ref = ref := by
  have matched := List.find?_some found
  exact ⟨List.mem_of_find?_eq_some found, of_decide_eq_true matched⟩

theorem mem_removeRow {ref : DraftRef} {rows : List VersionRow} {row : VersionRow} :
    row ∈ removeRow ref rows ↔ row ∈ rows ∧ row.ref ≠ ref := by
  rw [removeRow, List.mem_filter, decide_eq_true_eq]

theorem eq_of_ref {rows : List VersionRow} (refs : (rows.map VersionRow.ref).Nodup)
    {left right : VersionRow} (isLeft : left ∈ rows) (isRight : right ∈ rows)
    (same : left.ref = right.ref) : left = right :=
  List.inj_on_of_nodup_map refs isLeft isRight same

theorem le_latestVersion {family : Family} {rows : List VersionRow} {row : VersionRow}
    (isIn : row ∈ rows) (ofIt : row.ref.family = family) :
    row.ref.version ≤ latestVersion family rows := by
  have all : ∀ versions : List VersionRow, row ∈ versions →
      row.ref.version ≤ versions.foldr (fun row latest => max row.ref.version latest) 0 := by
    intro versions member
    induction versions with
    | nil => cases member
    | cons other rest ih =>
        rw [List.foldr_cons]
        rcases List.mem_cons.mp member with same | later
        · rw [same]
          exact Nat.le_max_left _ _
        · exact Nat.le_trans (ih later) (Nat.le_max_right _ _)
  exact all _ (List.mem_filter.mpr ⟨isIn, decide_eq_true ofIt⟩)

/-- The same draft, whatever became of its status. -/
structure SameDraft (before row : VersionRow) : Prop where
  ref : row.ref = before.ref
  proposedBy : row.proposedBy = before.proposedBy
  name : row.name = before.name
  createdAt : row.createdAt = before.createdAt
  proposal : row.proposal = before.proposal

theorem SameDraft.refl (row : VersionRow) : SameDraft row row := ⟨rfl, rfl, rfl, rfl, rfl⟩

theorem sameDraft_of_mem_setStatus {ref : DraftRef} {status : PublishableStatus}
    {rows : List VersionRow} {row : VersionRow} (isIn : row ∈ setStatus ref status rows) :
    ∃ before ∈ rows, SameDraft before row := by
  obtain ⟨before, isBefore, same⟩ := List.mem_map.mp isIn
  refine ⟨before, isBefore, ?_⟩
  split at same
  next => exact same ▸ ⟨rfl, rfl, rfl, rfl, rfl⟩
  next => exact same ▸ SameDraft.refl before

theorem refs_setStatus (ref : DraftRef) (status : PublishableStatus) (rows : List VersionRow) :
    (setStatus ref status rows).map VersionRow.ref = rows.map VersionRow.ref := by
  rw [setStatus, List.map_map]
  apply List.map_congr_left
  intro row _
  rw [Function.comp_apply]
  split
  next => rfl
  next => rfl

theorem mem_setStatus_of_ne {ref : DraftRef} {status : PublishableStatus} {rows : List VersionRow}
    {row : VersionRow} (isIn : row ∈ rows) (other : row.ref ≠ ref) :
    row ∈ setStatus ref status rows :=
  List.mem_map.mpr ⟨row, isIn, if_neg other⟩

theorem refs_removeRow {ref : DraftRef} {rows : List VersionRow}
    (refs : (rows.map VersionRow.ref).Nodup) : ((removeRow ref rows).map VersionRow.ref).Nodup :=
  refs.sublist (List.filter_sublist.map _)

/-! ### Everybody else -/

/-- What a transaction of anybody else leaves of the sweep's matters. -/
structure Keeps (state next : Registry) : Prop where
  sweep : next.sweep = state.sweep
  cutoff : next.cutoff = state.cutoff
  scannedAt : next.scannedAt = state.scannedAt
  audits : next.audits = state.audits
  deletions : next.deletions = state.deletions
  refs : (next.rows.map VersionRow.ref).Nodup
  proposals : state.proposals ≤ next.proposals
  bounded : ∀ row ∈ next.rows, row.proposal < next.proposals
  rows : ∀ row ∈ next.rows,
    (∃ before ∈ state.rows, SameDraft before row) ∨ state.proposals ≤ row.proposal
  held : ∀ row ∈ state.rows, state.locked row.ref = true →
    row ∈ next.rows ∧ (row.ref ∈ next.evaluating → row.ref ∈ state.evaluating)

section
variable {state next : Registry}

theorem mayLeave_iff {ref : DraftRef} :
    state.mayLeave ref = true ↔ state.locked ref = false ∧
      hasStatus ref .draft state.rows = true ∧ ref ∉ state.evaluating := by
  simp only [Registry.mayLeave, Bool.and_eq_true, Bool.not_eq_true', ← Bool.not_eq_true,
    List.contains_iff_mem, and_assoc]

theorem ne_of_locked {ref other : DraftRef} (locked : state.locked ref = true)
    (free : state.locked other = false) : ref ≠ other := by
  intro same
  rw [same, free] at locked
  cases locked

variable (refs : (state.rows.map VersionRow.ref).Nodup)
  (bounded : ∀ row ∈ state.rows, row.proposal < state.proposals)

include refs bounded

theorem keeps_remove {ref : DraftRef} (free : state.locked ref = false) :
    Keeps state (state.remove ref) where
  sweep := rfl
  cutoff := rfl
  scannedAt := rfl
  audits := rfl
  deletions := rfl
  refs := refs_removeRow refs
  proposals := Nat.le_refl _
  bounded := fun row isIn => bounded row (mem_removeRow.mp isIn).1
  rows := fun row isIn => .inl ⟨row, (mem_removeRow.mp isIn).1, SameDraft.refl row⟩
  held := fun _ isIn locked => ⟨mem_removeRow.mpr ⟨isIn, ne_of_locked locked free⟩, id⟩

theorem keeps_setStatus {ref : DraftRef} (status : PublishableStatus)
    (free : state.locked ref = false) :
    Keeps state { state with rows := setStatus ref status state.rows } where
  sweep := rfl
  cutoff := rfl
  scannedAt := rfl
  audits := rfl
  deletions := rfl
  refs := by rw [refs_setStatus]; exact refs
  proposals := Nat.le_refl _
  bounded := by
    intro row isIn
    obtain ⟨before, isBefore, same⟩ := sameDraft_of_mem_setStatus isIn
    rw [same.proposal]
    exact bounded before isBefore
  rows := fun _ isIn => .inl (sameDraft_of_mem_setStatus isIn)
  held := fun _ isIn locked => ⟨mem_setStatus_of_ne isIn (ne_of_locked locked free), id⟩

theorem keeps_evaluating {evaluating : List DraftRef}
    (held : ∀ ref, state.locked ref = true → ref ∈ evaluating → ref ∈ state.evaluating) :
    Keeps state { state with evaluating := evaluating } where
  sweep := rfl
  cutoff := rfl
  scannedAt := rfl
  audits := rfl
  deletions := rfl
  refs := refs
  proposals := Nat.le_refl _
  bounded := bounded
  rows := fun row isIn => .inl ⟨row, isIn, SameDraft.refl row⟩
  held := fun row isIn locked => ⟨isIn, held row.ref locked⟩

theorem keeps_propose {family : Family} {proposedBy : Nat} {name : Option String} {createdAt : Int}
    (proposes : state.propose family proposedBy name createdAt = some next) :
    Keeps state next := by
  unfold Registry.propose at proposes
  split at proposes
  next =>
    cases proposes
    constructor
    · rfl
    · rfl
    · rfl
    · rfl
    · rfl
    · rw [List.map_append, List.nodup_append]
      refine ⟨refs, List.nodup_singleton _, ?_⟩
      intro ref isRef other isNew same
      obtain ⟨row, isRow, ofRow⟩ := List.mem_map.mp isRef
      rw [List.mem_singleton.mp isNew] at same
      rw [← ofRow] at same
      have least := le_latestVersion isRow (congrArg DraftRef.family same)
      rw [congrArg DraftRef.version same] at least
      exact Nat.not_succ_le_self _ least
    · exact Nat.le_succ _
    · intro row isIn
      rcases List.mem_append.mp isIn with isOld | isNew
      · exact Nat.lt_succ_of_lt (bounded row isOld)
      · rw [List.mem_singleton.mp isNew]
        exact Nat.lt_succ_self _
    · intro row isIn
      rcases List.mem_append.mp isIn with isOld | isNew
      · exact .inl ⟨row, isOld, SameDraft.refl row⟩
      · rw [List.mem_singleton.mp isNew]
        exact .inr (Nat.le_refl _)
    · intro row isIn _
      exact ⟨List.mem_append_left _ isIn, id⟩
  next => cases proposes

theorem keeps_startEvaluation {ref : DraftRef} (starts : state.startEvaluation ref = some next) :
    Keeps state next := by
  unfold Registry.startEvaluation at starts
  split at starts
  next may =>
    cases starts
    have free := (mayLeave_iff.mp (Bool.and_eq_true_iff.mp may).2).1
    apply keeps_evaluating refs bounded
    intro other locked isIn
    rcases List.mem_cons.mp isIn with same | before
    · exact absurd same (ne_of_locked locked free)
    · exact before
  next => cases starts

end

/-! ### What the sweep keeps -/

/-- The sweep removed stale drafts only, audited each of them as it stood, and reports their
number. -/
structure Accounts (thresholdDays : Nat) (state : Registry) : Prop where
  stale : ∀ deletion ∈ state.deletions, deletion.row.status = .draft ∧
    deletion.row.createdAt < state.cutoff ∧ deletion.evaluating = false
  audited : state.audits = state.deletions.map fun deletion =>
    ⟨deletion.row.ref, deletion.row.name, deletion.row.proposedBy, thresholdDays⟩
  reported : ∀ expired, state.sweep = .done expired → expired = state.deletions.length

/-- What a candidate says of a row of the scan. -/
structure Describes (cutoff : Int) (candidate : ExpiredDraftCandidateRow) (row : VersionRow) :
    Prop where
  ref : row.ref = candidate.ref
  proposedBy : row.proposedBy = candidate.proposedBy
  name : row.name = candidate.name
  createdAt : row.createdAt < cutoff

/-- A row of the scan under the candidate's reference is the one the candidate was read from. -/
def Matches (state : Registry) (candidate : ExpiredDraftCandidateRow) : Prop :=
  ∀ row ∈ state.rows, row.ref = candidate.ref → row.proposal < state.scannedAt →
    Describes state.cutoff candidate row

structure Underway (state : Registry) (candidates : List ExpiredDraftCandidateRow)
    (expired : Nat) : Prop where
  count : expired = state.deletions.length
  scanned : state.scannedAt ≤ state.proposals
  candidates : ∀ candidate ∈ candidates, Matches state candidate

def SweepHolds (state : Registry) : Prop :=
  match state.sweep with
  | .idle => state.deletions = []
  | .next candidates expired => Underway state candidates expired
  | .deleting row candidate candidates expired =>
      Underway state candidates expired ∧ Describes state.cutoff candidate row ∧ row ∈ state.rows ∧
        row.status = .draft ∧ row.ref ∉ state.evaluating
  | .done expired => expired = state.deletions.length
  | .thrown => True

structure Holds (thresholdDays : Nat) (state : Registry) : Prop where
  refs : (state.rows.map VersionRow.ref).Nodup
  bounded : ∀ row ∈ state.rows, row.proposal < state.proposals
  sweep : SweepHolds state
  accounts : Accounts thresholdDays state

section
variable {thresholdDays : Nat} {state next : Registry}

theorem matches_of_keeps {candidate : ExpiredDraftCandidateRow} (keeps : Keeps state next)
    (scanned : state.scannedAt ≤ state.proposals) (ofScan : Matches state candidate) :
    Matches next candidate := by
  intro row isIn same early
  rw [keeps.scannedAt] at early
  rcases keeps.rows row isIn with ⟨before, isBefore, draft⟩ | new
  · have described := ofScan before isBefore (draft.ref ▸ same) (draft.proposal ▸ early)
    constructor
    · exact same
    · exact draft.proposedBy.trans described.proposedBy
    · exact draft.name.trans described.name
    · rw [draft.createdAt, keeps.cutoff]
      exact described.createdAt
  · omega

theorem underway_of_keeps {candidates : List ExpiredDraftCandidateRow} {expired : Nat}
    (keeps : Keeps state next) (underway : Underway state candidates expired) :
    Underway next candidates expired := by
  constructor
  · rw [keeps.deletions]
    exact underway.count
  · rw [keeps.scannedAt]
    exact Nat.le_trans underway.scanned keeps.proposals
  · intro candidate isIn
    exact matches_of_keeps keeps underway.scanned (underway.candidates candidate isIn)

theorem holds_of_keeps (keeps : Keeps state next) (holds : Holds thresholdDays state) :
    Holds thresholdDays next := by
  constructor
  · exact keeps.refs
  · exact keeps.bounded
  · have sweep := holds.sweep
    unfold SweepHolds at sweep ⊢
    rw [keeps.sweep]
    cases place : state.sweep with
    | idle =>
        rw [place] at sweep
        exact keeps.deletions.trans sweep
    | next candidates expired =>
        rw [place] at sweep
        exact underway_of_keeps keeps sweep
    | deleting row candidate candidates expired =>
        rw [place] at sweep
        obtain ⟨underway, described, isIn, isDraft, free⟩ := sweep
        have locked : state.locked row.ref = true := by
          rw [Registry.locked, place]
          exact decide_eq_true rfl
        have held := keeps.held row isIn locked
        refine ⟨underway_of_keeps keeps underway, ⟨described.ref, described.proposedBy,
          described.name, ?_⟩, held.1, isDraft, fun evaluated => free (held.2 evaluated)⟩
        rw [keeps.cutoff]
        exact described.createdAt
    | done expired =>
        rw [place] at sweep
        rw [keeps.deletions]
        exact sweep
    | thrown => trivial
  · constructor
    · rw [keeps.deletions, keeps.cutoff]
      exact holds.accounts.stale
    · rw [keeps.deletions, keeps.audits]
      exact holds.accounts.audited
    · rw [keeps.deletions, keeps.sweep]
      exact holds.accounts.reported

/-! ### The steps of the sweep -/

theorem holds_scan {now : Int} (scans : state.scan thresholdDays now = some next)
    (holds : Holds thresholdDays state) : Holds thresholdDays next := by
  have sweep := holds.sweep
  unfold SweepHolds at sweep
  unfold Registry.scan at scans
  split at scans
  next place =>
    rw [place] at sweep
    cases scans
    constructor
    · exact holds.refs
    · exact holds.bounded
    · constructor
      · rw [sweep]
        rfl
      · exact Nat.le_refl _
      · intro candidate isCandidate row isIn same _
        obtain ⟨scanned, isScanned, ofRow⟩ := List.mem_map.mp isCandidate
        have reads := List.mem_filter.mp isScanned
        have isRow : row = scanned := by
          apply eq_of_ref holds.refs isIn reads.1
          rw [same, ← ofRow]
        rw [isRow, ← ofRow]
        exact ⟨rfl, rfl, rfl, of_decide_eq_true (Bool.and_eq_true_iff.mp reads.2).2⟩
    · constructor
      · intro deletion isIn
        rw [sweep] at isIn
        cases isIn
      · exact holds.accounts.audited
      · intro expired done
        cases done
  next => cases scans

/-- The delete of the candidate meets no draft that was proposed since the scan. -/
def MeetsScanned (state : Registry) : Step → Prop
  | .expire =>
      match state.sweep with
      | .next (candidate :: _) _ =>
          ∀ row ∈ state.rows, row.ref = candidate.ref → row.status = .draft →
            row.ref ∉ state.evaluating → row.proposal < state.scannedAt
      | _ => True
  | _ => True

/-- The sweep moves on, the rest as it was. -/
theorem holds_moved {sweep : Sweep} (holds : Holds thresholdDays state)
    (moved : SweepHolds { state with sweep := sweep })
    (count : ∀ expired, sweep = .done expired → expired = state.deletions.length) :
    Holds thresholdDays { state with sweep := sweep } :=
  ⟨holds.refs, holds.bounded, moved, holds.accounts.stale, holds.accounts.audited, count⟩

theorem underway_moved {candidates : List ExpiredDraftCandidateRow} {expired : Nat} {sweep : Sweep}
    (underway : Underway state candidates expired) :
    Underway { state with sweep := sweep } candidates expired :=
  ⟨underway.count, underway.scanned, underway.candidates⟩

theorem holds_expire (expires : state.expire = some next) (meets : MeetsScanned state .expire)
    (holds : Holds thresholdDays state) : Holds thresholdDays next := by
  have sweep := holds.sweep
  unfold SweepHolds at sweep
  unfold Registry.expire at expires
  unfold MeetsScanned at meets
  split at expires
  next candidate candidates expired place =>
    rw [place] at sweep meets
    have rest : Underway state candidates expired :=
      ⟨sweep.count, sweep.scanned,
        fun other isIn => sweep.candidates other (List.mem_cons_of_mem _ isIn)⟩
    have skipped : Holds thresholdDays { state with sweep := .next candidates expired } :=
      holds_moved holds (underway_moved rest) fun _ done => nomatch done
    split at expires
    next =>
      cases expires
      exact skipped
    next row found =>
      split at expires
      next open' =>
        cases expires
        have isRow := mem_of_findRow found
        rw [Bool.and_eq_true, Bool.not_eq_true', ← Bool.not_eq_true, List.contains_iff_mem,
          decide_eq_true_eq] at open'
        have early := meets row isRow.1 isRow.2 open'.1 open'.2
        have described := sweep.candidates candidate List.mem_cons_self row isRow.1 isRow.2 early
        apply holds_moved holds
        · exact ⟨underway_moved rest, described, isRow.1, open'.1, open'.2⟩
        · exact fun _ done => nomatch done
      next =>
        cases expires
        exact skipped
  next => cases expires

theorem holds_commit (commits : state.commit thresholdDays = some next)
    (holds : Holds thresholdDays state) : Holds thresholdDays next := by
  have sweep := holds.sweep
  unfold SweepHolds at sweep
  unfold Registry.commit at commits
  split at commits
  next row candidate candidates expired place =>
    rw [place] at sweep
    obtain ⟨underway, described, isIn, isDraft, free⟩ := sweep
    cases commits
    constructor
    · exact refs_removeRow holds.refs
    · exact fun other isOther => holds.bounded other (mem_removeRow.mp isOther).1
    · constructor
      · rw [underway.count, List.length_append]
        rfl
      · exact underway.scanned
      · intro other isOther left isLeft same early
        exact underway.candidates other isOther left (mem_removeRow.mp isLeft).1 same early
    · constructor
      · intro deletion isDeletion
        rcases List.mem_append.mp isDeletion with before | isNew
        · exact holds.accounts.stale deletion before
        · rw [List.mem_singleton.mp isNew]
          refine ⟨isDraft, described.createdAt, ?_⟩
          rw [← Bool.not_eq_true, List.contains_iff_mem]
          exact free
      · change state.audits ++ _ = (state.deletions ++ _).map _
        rw [List.map_append, holds.accounts.audited, ← described.ref, ← described.name,
          ← described.proposedBy]
        rfl
      · intro count done
        cases done
  next => cases commits

theorem holds_fail (fails : state.fail = some next) (holds : Holds thresholdDays state) :
    Holds thresholdDays next := by
  unfold Registry.fail at fails
  split at fails
  next =>
    cases fails
    exact holds_moved holds trivial fun _ done => nomatch done
  next =>
    cases fails
    exact holds_moved holds trivial fun _ done => nomatch done
  next => cases fails

theorem holds_finish (finishes : state.finish = some next) (holds : Holds thresholdDays state) :
    Holds thresholdDays next := by
  have sweep := holds.sweep
  unfold SweepHolds at sweep
  unfold Registry.finish at finishes
  split at finishes
  next expired place =>
    rw [place] at sweep
    cases finishes
    apply holds_moved holds
    · exact sweep.count
    · intro count done
      cases done
      exact sweep.count
  next => cases finishes

/-! ### Whole runs -/

theorem keeps_removal {ref : DraftRef} (holds : Holds thresholdDays state)
    (may : state.mayLeave ref = true) : Keeps state (state.remove ref) :=
  keeps_remove holds.refs holds.bounded (mayLeave_iff.mp may).1

theorem keeps_other {step : Step} (holds : Holds thresholdDays state)
    (moved : (registrySystem thresholdDays).step state step = some next) :
    Keeps state next ∨ (∃ now, step = .scan now) ∨ step = .expire ∨ step = .commit ∨
      step = .fail ∨ step = .finish := by
  cases step with
  | propose => exact .inl (keeps_propose holds.refs holds.bounded moved)
  | discard ref caller =>
      change state.discardDraft ref caller = some next at moved
      unfold Registry.discardDraft at moved
      split at moved
      next => cases moved
      next =>
        split at moved
        next may =>
          cases moved
          exact .inl (keeps_removal holds (Bool.and_eq_true_iff.mp may).2)
        next => cases moved
  | reject ref =>
      change state.rejectDraft ref = some next at moved
      unfold Registry.rejectDraft at moved
      split at moved
      next may =>
        cases moved
        exact .inl (keeps_removal holds (Bool.and_eq_true_iff.mp may).2)
      next => cases moved
  | publish ref =>
      change state.publish ref = some next at moved
      unfold Registry.publish at moved
      split at moved
      next may =>
        cases moved
        have free := (mayLeave_iff.mp (Bool.and_eq_true_iff.mp may).2).1
        exact .inl (keeps_setStatus holds.refs holds.bounded .published free)
      next => cases moved
  | deprecateVersion ref =>
      change state.deprecateVersion ref = some next at moved
      unfold Registry.deprecateVersion at moved
      split at moved
      next may =>
        cases moved
        have free := (Bool.not_eq_true' _).mp (Bool.and_eq_true_iff.mp may).1
        exact .inl (keeps_setStatus holds.refs holds.bounded .deprecated free)
      next => cases moved
  | startEvaluation => exact .inl (keeps_startEvaluation holds.refs holds.bounded moved)
  | endEvaluation =>
      cases moved
      apply Or.inl
      apply keeps_evaluating holds.refs holds.bounded
      intro _ _ isIn
      exact (List.mem_filter.mp isIn).1
  | scan now => exact .inr (.inl ⟨now, rfl⟩)
  | expire => exact .inr (.inr (.inl rfl))
  | commit => exact .inr (.inr (.inr (.inl rfl)))
  | fail => exact .inr (.inr (.inr (.inr (.inl rfl))))
  | finish => exact .inr (.inr (.inr (.inr (.inr rfl))))

theorem holds_step {step : Step} (holds : Holds thresholdDays state)
    (meets : MeetsScanned state step)
    (moved : (registrySystem thresholdDays).step state step = some next) :
    Holds thresholdDays next := by
  rcases keeps_other holds moved with keeps | ⟨now, rfl⟩ | rfl | rfl | rfl | rfl
  · exact holds_of_keeps keeps holds
  · exact holds_scan moved holds
  · exact holds_expire moved meets holds
  · exact holds_commit moved holds
  · exact holds_fail moved holds
  · exact holds_finish moved holds

theorem holds_initial (initial : (registrySystem thresholdDays).initial state) :
    Holds thresholdDays state := by
  obtain ⟨refs, bounded, _, audits, deletions, place⟩ := initial
  constructor
  · exact refs
  · exact bounded
  · unfold SweepHolds
    rw [place]
    exact deletions
  · constructor
    · intro deletion isIn
      rw [deletions] at isIn
      cases isIn
    · rw [audits, deletions]
      rfl
    · intro expired done
      rw [place] at done
      cases done

end

/-- In every run in which the sweep's deletes meet no draft proposed since its scan. -/
theorem expireDraftsOnce_accounts {thresholdDays : Nat} {start final : Registry}
    {steps : List Step} (initial : (registrySystem thresholdDays).initial start)
    (meets : (registrySystem thresholdDays).Allowed MeetsScanned start steps)
    (ran : (registrySystem thresholdDays).run start steps = some final) :
    Accounts thresholdDays final := by
  apply Holds.accounts
  apply LabelledRun.System.run_preserves_when _ _ (holds_initial initial) meets ran
  intro state step next holds allowed moved
  exact holds_step holds allowed moved

/-- A Skill family: a published version, and a draft on it that is a month old. -/
def staleDraft : Registry where
  rows :=
    [⟨⟨⟨1, .skill, 7⟩, 1⟩, .published, 3, some "import", -9000000000, 0⟩,
      ⟨⟨⟨1, .skill, 7⟩, 2⟩, .draft, 3, some "import", 0, 1⟩]
  evaluating := []
  proposals := 2
  audits := []
  sweep := .idle
  cutoff := 0
  scannedAt := 0
  deletions := []

/-- 31 days, in milliseconds. -/
def aMonthLater : Int := 2678400000

theorem staleDraft_initial : (registrySystem 30).initial staleDraft := by
  refine ⟨by decide, by decide, by decide, rfl, rfl, rfl⟩

theorem expireDraftsOnce_accounts_staleDraft :
    Accounts 30 { staleDraft with
      rows := [⟨⟨⟨1, .skill, 7⟩, 1⟩, .published, 3, some "import", -9000000000, 0⟩]
      audits := [⟨⟨⟨1, .skill, 7⟩, 2⟩, some "import", 3, 30⟩]
      sweep := .done 1
      cutoff := 86400000
      scannedAt := 2
      deletions := [⟨⟨⟨⟨1, .skill, 7⟩, 2⟩, .draft, 3, some "import", 0, 1⟩, false⟩] } := by
  apply @expireDraftsOnce_accounts 30 staleDraft _ [.scan aMonthLater, .expire, .commit, .finish]
    staleDraft_initial _ rfl
  refine ⟨trivial, ?_, trivial, trivial, trivial⟩
  exact fun row isIn _ _ _ => staleDraft_initial.2.1 row isIn

/-- The draft is discarded after the scan, and somebody else proposes the family's next version,
which takes its number. -/
def proposedAgain : List Step :=
  [.scan aMonthLater, .discard ⟨⟨1, .skill, 7⟩, 2⟩ 3,
    .propose ⟨1, .skill, 7⟩ 4 (some "import") aMonthLater, .expire, .commit, .finish]

theorem expireDraftsOnce_proposedAgain :
    ¬∀ start steps final, (registrySystem 30).initial start →
      (registrySystem 30).run start steps = some final → Accounts 30 final := by
  intro every
  have accounts := every staleDraft proposedAgain _ staleDraft_initial rfl
  have fresh := (accounts.stale _ List.mem_cons_self).2.1
  revert fresh
  decide

end NextTime.DraftLifecycle
