import NextTime.Chat.EventSink
import Mathlib.Data.List.Nodup

/-
What the sink's map of Turns and its count of records do, one operation at a time.
-/

namespace NextTime.Chat

/-! ### The map of Turns -/

theorem lookup_setTurn_self {byTurn : ToolCallsByTurn} {turnId : Nat}
    (absent : byTurn.lookup turnId = none) (calls : TurnToolCalls) :
    (setTurn byTurn turnId calls).lookup turnId = some calls := by
  rw [setTurn, List.lookup_append, absent, Option.none_or, List.lookup_cons_self]

theorem lookup_setTurn_of_ne {byTurn : ToolCallsByTurn} {turnId other : Nat}
    (different : other ≠ turnId) (calls : TurnToolCalls) :
    (setTurn byTurn turnId calls).lookup other = byTurn.lookup other := by
  have last : List.lookup other [(turnId, calls)] = none := by
    rw [List.lookup_cons, beq_eq_false_iff_ne.mpr different]
    rfl
  rw [setTurn, List.lookup_append, last, Option.or_none]

theorem lookup_deleteTurn_self (byTurn : ToolCallsByTurn) (turnId : Nat) :
    (deleteTurn byTurn turnId).lookup turnId = none := by
  rw [List.lookup_eq_none_iff]
  intro entry isIn
  have kept := of_decide_eq_true (List.mem_filter.mp isIn).2
  exact bne_iff_ne.mpr (Ne.symm kept)

theorem lookup_deleteTurn_of_ne (byTurn : ToolCallsByTurn) {turnId other : Nat}
    (different : other ≠ turnId) : (deleteTurn byTurn turnId).lookup other = byTurn.lookup other := by
  induction byTurn with
  | nil => rfl
  | cons entry rest ih =>
      obtain ⟨key, calls⟩ := entry
      by_cases same : key = turnId
      · have skipped : deleteTurn ((key, calls) :: rest) turnId = deleteTurn rest turnId :=
          List.filter_cons_of_neg (fun kept => of_decide_eq_true kept same)
        rw [skipped, ih, List.lookup_cons, beq_eq_false_iff_ne.mpr (same ▸ different)]
      · have kept : deleteTurn ((key, calls) :: rest) turnId =
            (key, calls) :: deleteTurn rest turnId :=
          List.filter_cons_of_pos (decide_eq_true same)
        rw [kept, List.lookup_cons, List.lookup_cons, ih]

theorem deleteTurn_of_absent {byTurn : ToolCallsByTurn} {turnId : Nat}
    (absent : byTurn.lookup turnId = none) : deleteTurn byTurn turnId = byTurn := by
  apply List.filter_eq_self.mpr
  intro entry isIn
  have different := List.lookup_eq_none_iff.mp absent entry isIn
  exact decide_eq_true (Ne.symm (bne_iff_ne.mp different))

theorem lookup_isSome_iff {byTurn : ToolCallsByTurn} {turnId : Nat} :
    byTurn.lookup turnId ≠ none ↔ turnId ∈ byTurn.map Prod.fst := by
  rw [Ne, List.lookup_eq_none_iff, List.mem_map]
  constructor
  · intro present
    apply Classical.byContradiction
    intro absent
    apply present
    intro entry isIn
    exact bne_iff_ne.mpr fun same => absent ⟨entry, isIn, same.symm⟩
  · rintro ⟨entry, isIn, same⟩ absent
    exact bne_iff_ne.mp (absent entry isIn) same.symm

/-- Below the bound nothing is forgotten. -/
theorem turnEntry_eq {byTurn : ToolCallsByTurn} {turnId : Nat}
    (tracked : byTurn.lookup turnId = none → byTurn.length < MAX_TRACKED_TURNS) :
    turnEntry byTurn turnId =
      ((byTurn.lookup turnId).getD ⟨[], 0⟩, deleteTurn byTurn turnId) := by
  unfold turnEntry
  split
  next entry found => rw [found, Option.getD_some]
  next absent =>
    rw [if_neg (Nat.not_le.mpr (tracked absent)), absent, deleteTurn_of_absent absent]
    rfl

theorem keys_setTurn {byTurn : ToolCallsByTurn} (keys : (byTurn.map Prod.fst).Nodup)
    (turnId : Nat) (calls : TurnToolCalls) :
    ((setTurn (deleteTurn byTurn turnId) turnId calls).map Prod.fst).Nodup := by
  rw [setTurn, List.map_append, List.nodup_append]
  refine ⟨keys.sublist (List.filter_sublist.map _), List.nodup_singleton _, ?_⟩
  intro key isKey other isLast same
  rw [List.mem_singleton.mp isLast] at same
  obtain ⟨entry, isIn, ofEntry⟩ := List.mem_map.mp isKey
  exact of_decide_eq_true (List.mem_filter.mp isIn).2 (ofEntry.trans same)

theorem mem_keys_setTurn {byTurn : ToolCallsByTurn} {turnId other : Nat} {calls : TurnToolCalls}
    (isIn : other ∈ (setTurn (deleteTurn byTurn turnId) turnId calls).map Prod.fst) :
    other ∈ byTurn.map Prod.fst ∨ other = turnId := by
  rw [setTurn, List.map_append] at isIn
  rcases List.mem_append.mp isIn with before | last
  · exact .inl (List.filter_sublist.map _ |>.subset before)
  · exact .inr (List.mem_singleton.mp last)

/-! ### The calls of a Turn -/

theorem startCall_records (calls : TurnToolCalls) (toolCallId : String) :
    (startCall calls toolCallId).records = calls.records := by
  unfold startCall
  split
  next => split <;> rfl
  next => rfl

theorem startCall_openCalls (calls : TurnToolCalls) (toolCallId : String) :
    ((startCall calls toolCallId).openCalls = calls.openCalls ∧
        (toolCallId ∈ calls.openCalls ∨
          MAX_TOOL_CALL_RECORDS_PER_TURN ≤ calls.openCalls.length)) ∨
      ((startCall calls toolCallId).openCalls = calls.openCalls ++ [toolCallId] ∧
        toolCallId ∉ calls.openCalls) := by
  unfold startCall
  split
  next =>
    split
    next isOpen => exact .inl ⟨rfl, .inl isOpen⟩
    next isNew => exact .inr ⟨rfl, isNew⟩
  next full => exact .inl ⟨rfl, .inr (Nat.le_of_not_lt full)⟩

theorem startCall_nodup {calls : TurnToolCalls} (nodup : calls.openCalls.Nodup)
    (toolCallId : String) : (startCall calls toolCallId).openCalls.Nodup := by
  rcases startCall_openCalls calls toolCallId with ⟨same, _⟩ | ⟨grown, isNew⟩
  · rw [same]
    exact nodup
  · rw [grown]
    exact List.nodup_append.mpr ⟨nodup, List.nodup_singleton _, fun call isIn other isLast same =>
      isNew ((List.mem_singleton.mp isLast) ▸ same ▸ isIn)⟩

theorem mem_endCall {calls : TurnToolCalls} {toolCallId other : String}
    (isIn : other ∈ calls.openCalls) (different : other ≠ toolCallId) :
    other ∈ (endCall calls toolCallId).openCalls :=
  List.mem_filter.mpr ⟨isIn, decide_eq_true different⟩

theorem length_le_filter_ne (toolCallId : String) {openCalls : List String}
    (nodup : openCalls.Nodup) :
    openCalls.length ≤ (openCalls.filter fun other => other ≠ toolCallId).length + 1 := by
  induction openCalls with
  | nil => exact Nat.zero_le _
  | cons call rest ih =>
      have distinct := List.nodup_cons.mp nodup
      by_cases same : call = toolCallId
      · have all : rest.filter (fun other => other ≠ toolCallId) = rest := by
          apply List.filter_eq_self.mpr
          intro other isIn
          exact decide_eq_true fun equal => distinct.1 ((same.trans equal.symm) ▸ isIn)
        have dropped : ¬decide (call ≠ toolCallId) = true := fun kept => of_decide_eq_true kept same
        rw [List.filter_cons_of_neg (p := fun other => decide (other ≠ toolCallId)) dropped, all]
        exact Nat.le_refl _
      · have kept : decide (call ≠ toolCallId) = true := decide_eq_true same
        rw [List.filter_cons_of_pos (p := fun other => decide (other ≠ toolCallId)) kept,
          List.length_cons, List.length_cons]
        exact Nat.succ_le_succ (ih distinct.2)

/-- A call is open once. -/
theorem length_endCall {calls : TurnToolCalls} (nodup : calls.openCalls.Nodup)
    (toolCallId : String) :
    calls.openCalls.length ≤ (endCall calls toolCallId).openCalls.length + 1 :=
  length_le_filter_ne toolCallId nodup

theorem endCall_nodup {calls : TurnToolCalls} (nodup : calls.openCalls.Nodup)
    (toolCallId : String) : (endCall calls toolCallId).openCalls.Nodup :=
  nodup.sublist List.filter_sublist

/-! ### The bound -/

theorem admitRecord_some {calls counted : TurnToolCalls} (admits : admitRecord calls = some counted) :
    calls.records < MAX_TOOL_CALL_RECORDS_PER_TURN ∧
      counted = { calls with records := calls.records + 1 } := by
  unfold admitRecord at admits
  split at admits
  next fits => exact ⟨fits, (Option.some.inj admits).symm⟩
  next => cases admits

theorem admitRecord_none {calls : TurnToolCalls} (refuses : admitRecord calls = none) :
    MAX_TOOL_CALL_RECORDS_PER_TURN ≤ calls.records := by
  unfold admitRecord at refuses
  split at refuses
  next => cases refuses
  next full => exact Nat.le_of_not_lt full

/-- Each call that is admitted is counted, and one that is not has met the bound. -/
theorem admitOpen_spec (toolCallIds : List String) :
    ∀ calls : TurnToolCalls, calls.records ≤ MAX_TOOL_CALL_RECORDS_PER_TURN →
      (admitOpen calls toolCallIds).1.records =
          calls.records + (admitOpen calls toolCallIds).2.length ∧
        (admitOpen calls toolCallIds).1.records ≤ MAX_TOOL_CALL_RECORDS_PER_TURN ∧
        ((admitOpen calls toolCallIds).2 = toolCallIds ∨
          MAX_TOOL_CALL_RECORDS_PER_TURN ≤ (admitOpen calls toolCallIds).1.records) := by
  induction toolCallIds with
  | nil => exact fun calls bounded => ⟨rfl, bounded, .inl rfl⟩
  | cons toolCallId rest ih =>
      intro calls bounded
      unfold admitOpen
      cases admits : admitRecord calls with
      | none => exact ⟨rfl, bounded, .inr (admitRecord_none admits)⟩
      | some counted =>
          obtain ⟨fits, isCounted⟩ := admitRecord_some admits
          have records : counted.records = calls.records + 1 := by rw [isCounted]
          obtain ⟨count, most, all⟩ := ih counted (by omega)
          refine ⟨?_, most, ?_⟩
          · rw [count, records, List.length_cons]
            omega
          · exact all.imp (congrArg (toolCallId :: ·)) id

end NextTime.Chat
