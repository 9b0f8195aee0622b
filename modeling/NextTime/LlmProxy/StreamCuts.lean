import NextTime.LlmProxy.StreamUsage
import Mathlib

/-
How the usage of a stream depends on its chunks. The frames are the blocks of the
lines of the text, but for a carriage return that a chunk boundary parts from its
line feed: where it ends a blank line, the blocks around it run together.
-/

namespace NextTime.LlmProxy.Usage

open JsString (js)
open LineBlocks (blocks lines paragraphs dropReturn joinReturns seenText WithReturn
  PartsBlankLine)

/-! ### Frames of lines -/

/-- The events of a text: the blocks of its lines, each ended by a blank line. -/
def eventsOf (text : JsString) : List SseEvent :=
  (paragraphs [] ((lines LF text).1.map (dropReturn CR))).filterMap parseLines

/-- As the chunks show them: a carriage return stays at the end of its line where its line
feed comes with the next chunk. -/
def eventsAsCut (chunks : List JsString) : List SseEvent :=
  (paragraphs [] (lines LF (seenText LF CR chunks)).1).filterMap parseLines

theorem isPrefixOf_concat {found line : JsString} {unit : UInt16} (absent : unit ∉ found) :
    found.isPrefixOf (line ++ [unit]) = found.isPrefixOf line := by
  induction found generalizing line with
  | nil => rw [List.isPrefixOf_nil_left, List.isPrefixOf_nil_left]
  | cons first found ih =>
      have notFirst : first ≠ unit := fun same => absent (same ▸ List.mem_cons_self)
      have notLater : unit ∉ found := fun member => absent (List.mem_cons_of_mem _ member)
      cases line with
      | nil =>
          rw [List.nil_append, List.isPrefixOf_cons_cons, beq_false_of_ne notFirst,
            Bool.false_and]
          rfl
      | cons head line =>
          rw [List.cons_append, List.isPrefixOf_cons_cons, List.isPrefixOf_cons_cons, ih notLater]

theorem trim_drop {found line : JsString} (starts : found.isPrefixOf line = true) :
    JsString.trim ((line ++ [CR]).drop found.length) =
      JsString.trim (line.drop found.length) := by
  have short : found.length ≤ line.length := (List.isPrefixOf_iff_prefix.mp starts).length_le
  rw [List.drop_append_of_le_length short,
    JsString.trim_concat (by decide)]

/-- A carriage return at the end of a line is not read. -/
theorem parseLine_concat (read : Option JsString × List JsString) (line : JsString) :
    parseLine read (line ++ [CR]) = parseLine read line := by
  have notEvent : CR ∉ js "event:" := by decide +kernel
  have notData : CR ∉ js "data:" := by decide +kernel
  rw [parseLine, parseLine, isPrefixOf_concat notEvent, isPrefixOf_concat notData]
  split
  next starts => rw [trim_drop starts]
  next =>
    split
    next starts => rw [trim_drop starts]
    next => rfl

theorem parseLines_withReturn (seen block : List JsString)
    (same : List.Forall₂ (WithReturn CR) seen block) : parseLines seen = parseLines block := by
  have reads : ∀ read, seen.foldl parseLine read = block.foldl parseLine read := by
    induction same with
    | nil => exact fun _ => rfl
    | @cons seenLine line _ _ first _ ih =>
        intro read
        rw [List.foldl_cons, List.foldl_cons, ih]
        cases first with
        | inl same => rw [same]
        | inr returned => rw [returned, parseLine_concat]
  rw [parseLines, parseLines, reads]

theorem parseLine_nil (read : Option JsString × List JsString) : parseLine read [] = read := by
  have notEvent : (js "event:").isPrefixOf [] = false := by decide +kernel
  have notData : (js "data:").isPrefixOf [] = false := by decide +kernel
  rw [parseLine, notEvent, notData]
  rfl

theorem parseLines_passesEmpty : LineBlocks.PassesEmpty parseLines where
  nothing := rfl
  empty block := by rw [parseLines, parseLines, List.foldl_cons, parseLine_nil]

theorem takeEvents_eq {fuel : Nat} {buffer : JsString} (enough : buffer.length < fuel) :
    takeEvents fuel buffer =
      ((blocks LF buffer).1.filterMap parseBlock, (blocks LF buffer).2) := by
  induction fuel generalizing buffer with
  | zero => cases enough
  | succ fuel ih =>
      rw [takeEvents]
      cases cut : LineBlocks.cutAtBlank LF buffer with
      | none =>
          rw [LineBlocks.blocks_of_none cut]
          rfl
      | some parts =>
          have shorter := LineBlocks.cutAtBlank_length cut
          have later := @ih parts.2 (by omega)
          rw [LineBlocks.blocks_of_some cut, List.filterMap_cons]
          dsimp only
          rw [later]
          cases parseBlock parts.1 with
          | none => rfl
          | some event => rfl

/-- Within the limit a chunk is read behind what was left of the ones before it. -/
theorem pushChunk_eq {buffer chunk : JsString}
    (within : (buffer ++ joinReturns LF CR chunk).length ≤ MAX_USAGE_SCAN_CHARS) :
    pushChunk buffer chunk =
      ((blocks LF (buffer ++ joinReturns LF CR chunk)).1.filterMap parseBlock,
        (blocks LF (buffer ++ joinReturns LF CR chunk)).2) := by
  rw [pushChunk, if_neg (Nat.not_lt.mpr within), takeEvents_eq (Nat.lt_succ_self _)]

theorem blocks_events (text : JsString) :
    (blocks LF text).1.filterMap parseBlock =
      (paragraphs [] (lines LF text).1).filterMap parseLines :=
  LineBlocks.blocks_filterMap parseLines_passesEmpty text

/-! ### Chunks -/

theorem seenText_cons (chunk : JsString) (chunks : List JsString) :
    seenText LF CR (chunk :: chunks) = joinReturns LF CR chunk ++ seenText LF CR chunks := by
  rw [seenText, List.map_cons, List.flatten_cons]
  rfl

section
variable {Count : Type} (accumulator : UsageAccumulator Count)

/-- What the chunks leave: the frames of all of them so far, and the rest in the buffer. -/
theorem push_chunks {chunks : List JsString} {buffer : JsString} {state : accumulator.State}
    (within : (buffer ++ seenText LF CR chunks).length ≤ MAX_USAGE_SCAN_CHARS)
    (unended : blocks LF buffer = ([], buffer)) :
    chunks.foldl accumulator.push (buffer, state) =
      ((blocks LF (buffer ++ seenText LF CR chunks)).2,
        ((blocks LF (buffer ++ seenText LF CR chunks)).1.filterMap parseBlock).foldl
          accumulator.onEvent state) := by
  induction chunks generalizing buffer state with
  | nil =>
      have nothing : buffer ++ seenText LF CR [] = buffer := List.append_nil buffer
      rw [nothing, unended]
      rfl
  | cons chunk chunks ih =>
      rw [seenText_cons, ← List.append_assoc] at within ⊢
      have firstLength : (buffer ++ joinReturns LF CR chunk).length ≤ MAX_USAGE_SCAN_CHARS := by
        rw [List.length_append] at within
        omega
      have restLength := @LineBlocks.blocks_rest_length _ _ LF
        (buffer ++ joinReturns LF CR chunk)
      have laterLength : ((blocks LF (buffer ++ joinReturns LF CR chunk)).2 ++
          seenText LF CR chunks).length ≤ MAX_USAGE_SCAN_CHARS := by
        rw [List.length_append] at within ⊢
        omega
      rw [List.foldl_cons, UsageAccumulator.push, pushChunk_eq firstLength,
        ih laterLength (LineBlocks.blocks_rest _),
        LineBlocks.blocks_append (buffer ++ joinReturns LF CR chunk) (seenText LF CR chunks),
        List.filterMap_append, List.foldl_append]

theorem seenText_length (chunks : List JsString) :
    (seenText LF CR chunks).length ≤ chunks.flatten.length := by
  induction chunks with
  | nil => exact Nat.le_refl _
  | cons chunk chunks ih =>
      have shorter := @LineBlocks.joinReturns_length _ _ LF CR chunk
      rw [seenText_cons, List.flatten_cons, List.length_append, List.length_append]
      omega

/-- The usage of chunks, as that of the events they show. -/
theorem resultOf_eq {chunks : List JsString}
    (within : chunks.flatten.length ≤ MAX_USAGE_SCAN_CHARS) :
    accumulator.resultOf chunks =
      accumulator.result
        ((eventsAsCut chunks).foldl accumulator.onEvent accumulator.initial) := by
  have short : ([] ++ seenText LF CR chunks).length ≤ MAX_USAGE_SCAN_CHARS :=
    Nat.le_trans (seenText_length chunks) within
  rw [UsageAccumulator.resultOf, push_chunks accumulator short rfl, List.nil_append,
    blocks_events]
  rfl

end

/-- Pushed whole, every carriage return is joined to its line feed. -/
theorem eventsAsCut_whole (text : JsString) : eventsAsCut [text] = eventsOf text := by
  have whole : seenText LF CR [text] = joinReturns LF CR text := List.append_nil _
  rw [eventsAsCut, whole, LineBlocks.lines_joinReturns (by decide), eventsOf]

/-- Where no boundary falls inside the end of a blank line, the chunks show the events of the
text. -/
theorem eventsAsCut_unparted {chunks : List JsString}
    (whole : ¬ PartsBlankLine LF CR chunks) : eventsAsCut chunks = eventsOf chunks.flatten :=
  LineBlocks.paragraphs_seen parseLines_withReturn
    (LineBlocks.seenText_lines (by decide) whole) .nil

/-! ### The reference reading -/

/-- What a message event says of the usage. -/
inductive AnthropicUsage
  | start (usage : JsonValue)
  | delta (usage : JsonValue)

/-- Each usage replaces the one before. -/
theorem foldl_replace {Raw Usage : Type} {found : SseEvent → Option Raw} {parse : Raw → Usage}
    {step : Option Usage → SseEvent → Option Usage}
    (replaces : ∀ usage event, step usage event = ((found event).map parse).or usage)
    (events : List SseEvent) :
    events.foldl step none = ((events.filterMap found).getLast?).map parse := by
  induction events using List.reverseRecOn with
  | nil => rfl
  | append_singleton events event ih =>
      rw [List.foldl_append, List.foldl_cons, List.foldl_nil, ih, replaces, List.filterMap_append,
        List.filterMap_cons]
      cases found event with
      | none => rw [List.filterMap_nil, List.append_nil, Option.map_none, Option.none_or]
      | some raw => rw [List.filterMap_nil, List.getLast?_concat, Option.map_some, Option.some_or]

section
variable {Count : Type} [Zero Count] (reading : UsageReading Count)

def anthropicUsage (event : SseEvent) : Option AnthropicUsage :=
  match (reading.tryParseJson event.data).filter isObject with
  | none => none
  | some parsed =>
      if event.event = some (js "message_start") then
        ((property (property (some parsed) "message") "usage").filter reading.truthy).map .start
      else if event.event = some (js "message_delta") then
        ((property (some parsed) "usage").filter reading.truthy).map .delta
      else none

/-- The value it gives a field: a start gives every field one. -/
def givenBy (name : String) : AnthropicUsage → Option Count
  | .start usage => some (reading.countOf (property (some usage) name))
  | .delta usage => (present (property (some usage) name)).map reading.count

/-- The value given last. -/
def lastGiven (name : String) (updates : List AnthropicUsage) : Count :=
  ((updates.filterMap (givenBy reading name)).getLast?).getD 0

theorem lastGiven_concat (name : String) (updates : List AnthropicUsage)
    (update : AnthropicUsage) :
    lastGiven reading name (updates ++ [update]) =
      (givenBy reading name update).getD (lastGiven reading name updates) := by
  rw [lastGiven, List.filterMap_append, List.filterMap_cons, List.filterMap_nil]
  cases givenBy reading name update with
  | none => rw [List.append_nil]; rfl
  | some value => rw [List.getLast?_concat]; rfl

theorem overwrite_eq (kept : Count) (usage : JsonValue) (name : String) :
    reading.overwrite kept (property (some usage) name) =
      (givenBy reading name (.delta usage)).getD kept := by
  rw [UsageReading.overwrite, givenBy]
  cases present (property (some usage) name) with
  | none => rfl
  | some value => rfl

/-- The tokens of an accumulator after updates: each field with the value given last. -/
def tokensOf (updates : List AnthropicUsage) : AnthropicTokens Count where
  inputTokens := lastGiven reading "input_tokens" updates
  outputTokens := lastGiven reading "output_tokens" updates
  cacheReadTokens := lastGiven reading "cache_read_input_tokens" updates
  cacheWriteTokens := lastGiven reading "cache_creation_input_tokens" updates
  seen := !updates.isEmpty

theorem anthropicEvent_tokensOf (updates : List AnthropicUsage) (event : SseEvent) :
    anthropicEvent reading (tokensOf reading updates) event =
      tokensOf reading (updates ++ (anthropicUsage reading event).toList) := by
  have filled : ∀ update : AnthropicUsage, (updates ++ [update]).isEmpty = false := by
    intro update
    exact List.isEmpty_eq_false_iff.mpr
      (List.append_ne_nil_of_right_ne_nil _ (List.cons_ne_nil _ _))
  have started : ∀ usage : JsonValue,
      tokensOf reading (updates ++ [.start usage]) =
        { inputTokens := reading.countOf (property (some usage) "input_tokens")
          outputTokens := reading.countOf (property (some usage) "output_tokens")
          cacheReadTokens := reading.countOf (property (some usage) "cache_read_input_tokens")
          cacheWriteTokens :=
            reading.countOf (property (some usage) "cache_creation_input_tokens")
          seen := true } := by
    intro usage
    simp only [tokensOf, lastGiven_concat, givenBy, Option.getD_some, filled, Bool.not_false]
  have changed : ∀ usage : JsonValue,
      tokensOf reading (updates ++ [.delta usage]) =
        { inputTokens := reading.overwrite (tokensOf reading updates).inputTokens
            (property (some usage) "input_tokens")
          outputTokens := reading.overwrite (tokensOf reading updates).outputTokens
            (property (some usage) "output_tokens")
          cacheReadTokens := reading.overwrite (tokensOf reading updates).cacheReadTokens
            (property (some usage) "cache_read_input_tokens")
          cacheWriteTokens := reading.overwrite (tokensOf reading updates).cacheWriteTokens
            (property (some usage) "cache_creation_input_tokens")
          seen := true } := by
    intro usage
    simp only [tokensOf, lastGiven_concat, overwrite_eq, filled, Bool.not_false]
  have unchanged : tokensOf reading updates = tokensOf reading (updates ++ []) := by
    rw [List.append_nil]
  rw [anthropicEvent, anthropicUsage]
  cases (reading.tryParseJson event.data).filter isObject with
  | none => exact unchanged
  | some parsed =>
      dsimp only
      by_cases isStart : event.event = some (js "message_start")
      · rw [if_pos isStart, if_pos isStart]
        cases (property (property (some parsed) "message") "usage").filter reading.truthy with
        | none => exact unchanged
        | some usage => exact (started usage).symm
      · rw [if_neg isStart, if_neg isStart]
        by_cases isDelta : event.event = some (js "message_delta")
        · rw [if_pos isDelta, if_pos isDelta]
          cases (property (some parsed) "usage").filter reading.truthy with
          | none => exact unchanged
          | some usage => exact (changed usage).symm
        · rw [if_neg isDelta, if_neg isDelta]
          exact unchanged

theorem anthropic_fold (events : List SseEvent) :
    events.foldl (anthropicEvent reading) ⟨0, 0, 0, 0, false⟩ =
      tokensOf reading (events.filterMap (anthropicUsage reading)) := by
  induction events using List.reverseRecOn with
  | nil => rfl
  | append_singleton events event ih =>
      rw [List.foldl_append, List.foldl_cons, List.foldl_nil, ih, anthropicEvent_tokensOf,
        List.filterMap_append, List.filterMap_cons]
      cases anthropicUsage reading event with
      | none => rfl
      | some update => rfl

end

section
variable {Count : Type} [Zero Count] [Sub Count] [Max Count] [LT Count]
  [DecidableLT Count] (reading : UsageReading Count)

def anthropicReference (events : List SseEvent) : Option (ParsedUsage Count) :=
  let updates := events.filterMap (anthropicUsage reading)
  if updates.isEmpty then none
  else
    some
      { inputTokens := lastGiven reading "input_tokens" updates
        outputTokens := lastGiven reading "output_tokens" updates
        cacheReadTokens := positive (lastGiven reading "cache_read_input_tokens" updates)
        cacheWriteTokens := positive (lastGiven reading "cache_creation_input_tokens" updates) }

/-- The usage of a stream of events. -/
def referenceUsage (api : ProviderApiKind) (events : List SseEvent) :
    Option (ParsedUsage Count) :=
  match api with
  | .openaiCompletions =>
      ((events.filterMap (openAiUsage reading)).getLast?).map (parseOpenAiUsage reading)
  | .openaiResponses =>
      ((events.filterMap (responsesUsage reading)).getLast?).map
        (parseOpenAiResponsesUsage reading)
  | .anthropicMessages => anthropicReference reading events

/-- The accumulators over events are the reference reading. -/
theorem accumulator_reference (api : ProviderApiKind) (events : List SseEvent) :
    (createStreamUsageAccumulator reading api).result
        (events.foldl (createStreamUsageAccumulator reading api).onEvent
          (createStreamUsageAccumulator reading api).initial) =
      referenceUsage reading api events := by
  cases api with
  | openaiCompletions =>
      apply @foldl_replace _ _ (openAiUsage reading) (parseOpenAiUsage reading)
      intro usage event
      dsimp only [createStreamUsageAccumulator, createOpenAiStreamUsageAccumulator]
      cases openAiUsage reading event with
      | none => rfl
      | some raw => rfl
  | openaiResponses =>
      apply @foldl_replace _ _ (responsesUsage reading) (parseOpenAiResponsesUsage reading)
      intro usage event
      dsimp only [createStreamUsageAccumulator, createOpenAiResponsesStreamUsageAccumulator]
      cases responsesUsage reading event with
      | none => rfl
      | some raw => rfl
  | anthropicMessages =>
      simp only [createStreamUsageAccumulator, createAnthropicStreamUsageAccumulator,
        referenceUsage, anthropicReference]
      rw [anthropic_fold]
      dsimp only [tokensOf]
      by_cases nothing : (events.filterMap (anthropicUsage reading)).isEmpty = true
      · simp only [nothing, Bool.not_true, if_true, Bool.false_eq_true, if_false]
      · simp only [eq_false_of_ne_true nothing, Bool.not_false, if_true,
          Bool.false_eq_true, if_false]

end

/-! ### Streams in chunks -/

section
variable {Count : Type} [Zero Count] [Sub Count] [Max Count] [LT Count]
  [DecidableLT Count] (reading : UsageReading Count)

/-- A stream pushed whole has the usage of the reference reading, and so has every way of
cutting it in which no boundary falls inside the end of a blank line. -/
theorem streamUsage_uncut {chunks : List JsString} (api : ProviderApiKind)
    (within : chunks.flatten.length ≤ MAX_USAGE_SCAN_CHARS) :
    (createStreamUsageAccumulator reading api).resultOf [chunks.flatten] =
        referenceUsage reading api (eventsOf chunks.flatten) ∧
      (¬ PartsBlankLine LF CR chunks →
        (createStreamUsageAccumulator reading api).resultOf chunks =
          (createStreamUsageAccumulator reading api).resultOf [chunks.flatten]) := by
  have wholeWithin : [chunks.flatten].flatten.length ≤ MAX_USAGE_SCAN_CHARS := by
    rw [List.flatten_cons, List.flatten_nil, List.append_nil]
    exact within
  have whole : (createStreamUsageAccumulator reading api).resultOf [chunks.flatten] =
      referenceUsage reading api (eventsOf chunks.flatten) := by
    rw [resultOf_eq _ wholeWithin, accumulator_reference, eventsAsCut_whole]
  refine ⟨whole, fun unparted => ?_⟩
  rw [whole, resultOf_eq _ within, accumulator_reference, eventsAsCut_unparted unparted]

end

/-- What `JSON.parse` reads in the frame below. -/
def frameReading : UsageReading Int where
  tryParseJson data :=
    if data = js "\x7b\"usage\":\x7b\"prompt_tokens\":5\x7d\x7d" then
      some (.obj [("usage", .obj [("prompt_tokens", .num "5")])])
    else none
  count value := if value = .num "5" then 5 else 0
  falsyNumber text := decide (text = "0")

/-- One frame, cut between the carriage return and the line feed of its blank line. -/
def partedFrame : List JsString :=
  [js "data: \x7b\"usage\":\x7b\"prompt_tokens\":5\x7d\x7d" ++ [CR, LF, CR], [LF]]

theorem streamUsage_parted :
    partedFrame.flatten.length ≤ MAX_USAGE_SCAN_CHARS ∧
      (createStreamUsageAccumulator frameReading .openaiCompletions).resultOf
        [partedFrame.flatten] = some ⟨5, 0, none, none⟩ ∧
      (createStreamUsageAccumulator frameReading .openaiCompletions).resultOf partedFrame =
        none := by
  decide +kernel

/-- The same frame, cut in a field name, in the end of its line and before its blank line. -/
def cutFrame : List JsString :=
  [js "da", js "ta: \x7b\"usage\":\x7b\"prompt_tokens\":5\x7d\x7d" ++ [CR], [LF], [CR, LF]]

theorem streamUsage_uncut_cutFrame :
    ¬ PartsBlankLine LF CR cutFrame ∧
      (createStreamUsageAccumulator frameReading .openaiCompletions).resultOf cutFrame =
        referenceUsage frameReading .openaiCompletions (eventsOf cutFrame.flatten) ∧
      referenceUsage frameReading .openaiCompletions (eventsOf cutFrame.flatten) =
        some ⟨5, 0, none, none⟩ := by
  have within : cutFrame.flatten.length ≤ MAX_USAGE_SCAN_CHARS := by decide +kernel
  have unparted : ¬ PartsBlankLine LF CR cutFrame := by decide +kernel
  have both := streamUsage_uncut frameReading .openaiCompletions within
  refine ⟨unparted, (both.2 unparted).trans both.1, ?_⟩
  decide +kernel

end NextTime.LlmProxy.Usage
