import NextTime.Chat.Transcript
import Mathlib.Algebra.Order.Field.Rat
import Mathlib.Data.Nat.Cast.Order.Ring

/-
A reader that follows its cursor is given the transcript page by page.
-/

namespace NextTime.Chat

open NumberedLog (Entry Logs ofKey)

/-- The rows of a chat that are committed, in the order they were. -/
def transcript (rows : List ChatMessageRow) (chatId : Nat) : List ChatMessageRow :=
  ofKey chatId rows

/-- The earlier row has the lower sequence. -/
def Below (earlier later : ChatMessageRow) : Prop := earlier.sequence < later.sequence

/-- `Number.MAX_SAFE_INTEGER`. -/
def MAX_SAFE_SEQUENCE : Nat := 2 ^ 53 - 1

/-- `Number` of the decimal text of a safe integer is that integer. -/
def ReadsSafe (number : String → Option Rat) : Prop :=
  ∀ sequence : Nat, sequence ≤ MAX_SAFE_SEQUENCE →
    number (toString sequence) = some (sequence : Rat)

/-- The sequences of a chat are safe integers, up to its last. -/
def SafeSequences (rows : List ChatMessageRow) (chatId : Nat) : Prop :=
  ∀ row ∈ transcript rows chatId, row.sequence ≤ MAX_SAFE_SEQUENCE

/-- What a reader was given is the transcript up to some row, which its cursor names. -/
structure Follows (rows : List ChatMessageRow) (reader : Reader) : Prop where
  seen : reader.seen <+: transcript rows reader.chatId
  cursor : reader.cursor = reader.seen.getLast?.map fun last => toString last.sequence

variable {number : String → Option Rat}

theorem parseCursor_sequence (reads : ReadsSafe number) {sequence : Nat}
    (safe : sequence ≤ MAX_SAFE_SEQUENCE) :
    parseCursor number (some (toString sequence)) = sequence := by
  have nonempty : toString sequence ≠ "" := Nat.repr_ne_empty
  simp only [parseCursor, if_neg nonempty, reads sequence safe]
  exact if_pos (Nat.cast_nonneg sequence)

/-- The rows behind the last one seen. -/
theorem filter_unseen {seen rest : List ChatMessageRow} (sorted : (seen ++ rest).Pairwise Below)
    (positive : ∀ row ∈ rest, 0 < row.sequence)
    (safe : ∀ row ∈ seen, row.sequence ≤ MAX_SAFE_SEQUENCE) (reads : ReadsSafe number) :
    (seen ++ rest).filter (fun row =>
      parseCursor number (seen.getLast?.map fun last => toString last.sequence) <
        (row.sequence : Rat)) = rest := by
  rcases List.eq_nil_or_concat seen with none | ⟨init, last, concat⟩
  · subst none
    apply List.filter_eq_self.mpr
    intro row isIn
    have above : (0 : Rat) < row.sequence := Nat.cast_pos.mpr (positive row isIn)
    exact decide_eq_true above
  · rw [List.concat_eq_append] at concat
    subst concat
    have parts := List.pairwise_append.mp sorted
    have lastSafe := safe last (List.mem_append_right _ List.mem_cons_self)
    rw [List.getLast?_concat, Option.map_some, parseCursor_sequence reads lastSafe,
      List.filter_append]
    have below : (init ++ [last]).filter
        (fun row => (last.sequence : Rat) < (row.sequence : Rat)) = [] := by
      apply List.filter_eq_nil_iff.mpr
      intro row isIn later
      have later := Nat.cast_lt.mp (of_decide_eq_true later)
      rcases List.mem_append.mp isIn with isEarlier | isLast
      · have earlier : Below row last :=
          (List.pairwise_append.mp parts.1).2.2 row isEarlier last List.mem_cons_self
        exact Nat.lt_asymm earlier later
      · rw [List.mem_singleton.mp isLast] at later
        exact Nat.lt_irrefl _ later
    rw [below, List.nil_append]
    apply List.filter_eq_self.mpr
    intro row isIn
    have above : Below last row :=
      parts.2.2 last (List.mem_append_right _ List.mem_cons_self) row isIn
    exact decide_eq_true (Nat.cast_lt.mpr above)

/-- A page is the next rows of the transcript. -/
theorem messages_of_follows {rows : List ChatMessageRow} {reader : Reader}
    {rest : List ChatMessageRow}
    (sorted : (transcript rows reader.chatId).Pairwise Below)
    (positive : ∀ row ∈ rows, 0 < row.sequence) (follows : Follows rows reader)
    (split : reader.seen ++ rest = transcript rows reader.chatId)
    (safe : SafeSequences rows reader.chatId) (reads : ReadsSafe number) (limit : Option Nat) :
    (getChatHistory number rows ⟨reader.chatId, reader.cursor, limit⟩).messages =
      rest.take (limit.getD DEFAULT_CHAT_HISTORY_LIMIT) := by
  have inRows : ∀ row ∈ rest, 0 < row.sequence := by
    intro row isIn
    have isOf : row ∈ transcript rows reader.chatId := by
      rw [← split]
      exact List.mem_append_right _ isIn
    exact positive row (List.mem_filter.mp isOf).1
  have seenSafe : ∀ row ∈ reader.seen, row.sequence ≤ MAX_SAFE_SEQUENCE := by
    intro row isIn
    exact safe row (split ▸ List.mem_append_left _ isIn)
  rw [← split] at sorted
  have unseen := filter_unseen sorted inRows seenSafe reads
  rw [split] at unseen
  simp only [getChatHistory]
  rw [follows.cursor]
  change List.take _ (List.mergeSort (List.filter _ (transcript rows reader.chatId)) _) = _
  rw [unseen]
  congr 1
  apply List.mergeSort_of_pairwise
  have tail := (List.pairwise_append.mp sorted).2.1
  exact tail.imp fun below => decide_eq_true (Nat.le_of_lt below)

theorem seen_turn {rows : List ChatMessageRow} {reader : Reader}
    (sorted : (transcript rows reader.chatId).Pairwise Below)
    (positive : ∀ row ∈ rows, 0 < row.sequence) (follows : Follows rows reader)
    (safe : SafeSequences rows reader.chatId) (reads : ReadsSafe number) (limit : Option Nat) :
    (reader.turn number rows limit).seen =
      (transcript rows reader.chatId).take
        (reader.seen.length + limit.getD DEFAULT_CHAT_HISTORY_LIMIT) := by
  obtain ⟨rest, split⟩ := follows.seen
  have messages := messages_of_follows sorted positive follows split safe reads limit
  simp only [Reader.turn]
  rw [messages, ← split, List.take_length_add_append]

theorem follows_turn {rows : List ChatMessageRow} {reader : Reader}
    (sorted : (transcript rows reader.chatId).Pairwise Below)
    (positive : ∀ row ∈ rows, 0 < row.sequence) (follows : Follows rows reader)
    (safe : SafeSequences rows reader.chatId) (reads : ReadsSafe number) (limit : Option Nat) :
    Follows rows (reader.turn number rows limit) := by
  constructor
  · rw [seen_turn sorted positive follows safe reads limit]
    exact List.take_prefix _ _
  · simp only [Reader.turn]
    rw [List.getLast?_append]
    cases last : (getChatHistory number rows ⟨reader.chatId, reader.cursor, limit⟩).messages.getLast?
      with
    | none => exact follows.cursor
    | some row => rfl

theorem SafeSequences.of_append {rows later : List ChatMessageRow} {chatId : Nat}
    (safe : SafeSequences (rows ++ later) chatId) : SafeSequences rows chatId := by
  intro row isIn
  apply safe
  rw [transcript, Logs.ofKey_append]
  exact List.mem_append_left _ isIn

/-- Rows that are committed later stand behind what a reader has seen. -/
theorem Follows.append {rows : List ChatMessageRow} {reader : Reader}
    (follows : Follows rows reader) (later : List ChatMessageRow) :
    Follows (rows ++ later) reader where
  seen := by
    rw [transcript, Logs.ofKey_append]
    exact follows.seen.trans (List.prefix_append _ _)
  cursor := follows.cursor

end NextTime.Chat
