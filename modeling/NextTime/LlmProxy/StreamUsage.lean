import NextTime.Library.JsonValue
import NextTime.Library.JsString
import NextTime.Library.LineBlocks
import NextTime.LlmProxy.Catalog

/-
The token usage of a streamed response: SSE frames out of text that comes in
chunks, and one accumulator for each kind of provider. Text is UTF-16 code units;
the parse of JSON and the arithmetic of counts are parameters.
-/

namespace NextTime.LlmProxy.Usage

open JsString (js)

def LF : UInt16 := 10

def CR : UInt16 := 13

/-! ### Frames -/

def MAX_USAGE_SCAN_CHARS : Nat := 16 * 1024 * 1024

structure SseEvent where
  event : Option JsString
  data : JsString
deriving DecidableEq, Repr

/-- One line of a block: the last `event:` counts, the `data:` lines follow one another. -/
def parseLine (read : Option JsString × List JsString) (line : JsString) :
    Option JsString × List JsString :=
  if (js "event:").isPrefixOf line then (some (JsString.trim (line.drop (js "event:").length)), read.2)
  else if (js "data:").isPrefixOf line then
    (read.1, read.2 ++ [JsString.trim (line.drop (js "data:").length)])
  else read

def parseLines (lines : List JsString) : Option SseEvent :=
  let read := lines.foldl parseLine (none, [])
  if read.2 = [] then none
  else some { event := read.1, data := [LF].intercalate read.2 }

def parseBlock (raw : JsString) : Option SseEvent :=
  parseLines (LineBlocks.splitLines LF raw)

/-- The loop of `push`: as long as the buffer holds a blank line, the block before it. -/
def takeEvents : Nat → JsString → List SseEvent × JsString
  | 0, buffer => ([], buffer)
  | fuel + 1, buffer =>
      match LineBlocks.cutAtBlank LF buffer with
      | none => ([], buffer)
      | some (raw, rest) =>
          ((parseBlock raw).toList ++ (takeEvents fuel rest).1, (takeEvents fuel rest).2)

/-- `SseEventParser.push`: the events a chunk completes, and the buffer after it. -/
def pushChunk (buffer chunk : JsString) : List SseEvent × JsString :=
  let joined := buffer ++ LineBlocks.joinReturns LF CR chunk
  let kept := if joined.length > MAX_USAGE_SCAN_CHARS then [] else joined
  takeEvents (kept.length + 1) kept

/-! ### Usage -/

structure ParsedUsage (Count : Type) where
  inputTokens : Count
  outputTokens : Count
  cacheReadTokens : Option Count
  cacheWriteTokens : Option Count
deriving DecidableEq, Repr

/-- `JSON.parse`, none where it throws, and what of a parsed value is a count. -/
structure UsageReading (Count : Type) where
  tryParseJson : JsString → Option JsonValue
  count : JsonValue → Count
  /-- A number that is zero or no number. -/
  falsyNumber : String → Bool

/-- A property; a value that is no object has none of those read here. -/
def property (value : Option JsonValue) (name : String) : Option JsonValue :=
  match value with
  | some (.obj fields) => fields.lookup name
  | _ => none

/-- Neither undefined nor null. -/
def present (value : Option JsonValue) : Option JsonValue :=
  match value with
  | none => none
  | some .null => none
  | some value => some value

/-- `typeof value === 'object'`, and not null. -/
def isObject : JsonValue → Bool
  | .obj _ => true
  | .arr _ => true
  | _ => false

section
variable {Count : Type} [Zero Count] [Sub Count] [Max Count] [LT Count]
  [DecidableLT Count] (reading : UsageReading Count)

def UsageReading.truthy : JsonValue → Bool
  | .null => false
  | .bool value => value
  | .num text => !reading.falsyNumber text
  | .str value => value ≠ ""
  | .arr _ => true
  | .obj _ => true

/-- A count that is undefined or null is 0. -/
def UsageReading.countOf (value : Option JsonValue) : Count :=
  ((present value).map reading.count).getD 0

/-- A count that is left out unless it is positive. -/
def positive (count : Count) : Option Count :=
  if 0 < count then some count else none

def parseOpenAiUsage (raw : JsonValue) : ParsedUsage Count :=
  let details := property (some raw) "prompt_tokens_details"
  let promptTokens := reading.countOf (property (some raw) "prompt_tokens")
  let cacheReadTokens := reading.countOf
    (((present (property details "cached_tokens")).or
      (present (property (some raw) "prompt_cache_hit_tokens"))).or
      (present (property (some raw) "cached_tokens")))
  let cacheWriteTokens := reading.countOf (property details "cache_write_tokens")
  { inputTokens := max 0 (promptTokens - cacheReadTokens - cacheWriteTokens)
    outputTokens := reading.countOf (property (some raw) "completion_tokens")
    cacheReadTokens := positive cacheReadTokens
    cacheWriteTokens := positive cacheWriteTokens }

def parseOpenAiResponsesUsage (raw : JsonValue) : ParsedUsage Count :=
  let details := property (some raw) "input_tokens_details"
  let cacheReadTokens := reading.countOf (property details "cached_tokens")
  let cacheWriteTokens := reading.countOf (property details "cache_write_tokens")
  { inputTokens :=
      max 0 (reading.countOf (property (some raw) "input_tokens") - cacheReadTokens -
        cacheWriteTokens)
    outputTokens := reading.countOf (property (some raw) "output_tokens")
    cacheReadTokens := positive cacheReadTokens
    cacheWriteTokens := positive cacheWriteTokens }

/-! ### Accumulators -/

/-- What an accumulator keeps, what an event makes of it, and the usage observed so far. -/
structure UsageAccumulator (Count : Type) where
  State : Type
  initial : State
  onEvent : State → SseEvent → State
  result : State → Option (ParsedUsage Count)

def openAiUsage (event : SseEvent) : Option JsonValue :=
  if event.data = js "[DONE]" then none
  else (property (reading.tryParseJson event.data) "usage").filter isObject

/-- The last usage object replaces any earlier one. -/
def createOpenAiStreamUsageAccumulator : UsageAccumulator Count where
  State := Option (ParsedUsage Count)
  initial := none
  onEvent usage event :=
    match openAiUsage reading event with
    | some raw => some (parseOpenAiUsage reading raw)
    | none => usage
  result usage := usage

def OPENAI_RESPONSES_TERMINAL_EVENTS : List String :=
  ["response.completed", "response.incomplete", "response.failed"]

/-- The `type` of the data, or else the event line, names a terminal event. -/
def isTerminal (event : SseEvent) (parsed : JsonValue) : Bool :=
  match property (some parsed) "type" with
  | some (.str type) => OPENAI_RESPONSES_TERMINAL_EVENTS.contains type
  | _ => event.event.any fun name => (OPENAI_RESPONSES_TERMINAL_EVENTS.map js).contains name

def responsesUsage (event : SseEvent) : Option JsonValue :=
  match (reading.tryParseJson event.data).filter isObject with
  | none => none
  | some parsed =>
      if isTerminal event parsed then
        (property (property (some parsed) "response") "usage").filter isObject
      else none

def createOpenAiResponsesStreamUsageAccumulator : UsageAccumulator Count where
  State := Option (ParsedUsage Count)
  initial := none
  onEvent usage event :=
    match responsesUsage reading event with
    | some raw => some (parseOpenAiResponsesUsage reading raw)
    | none => usage
  result usage := usage

structure AnthropicTokens (Count : Type) where
  inputTokens : Count
  outputTokens : Count
  cacheReadTokens : Count
  cacheWriteTokens : Count
  seen : Bool
deriving DecidableEq, Repr

/-- A field of a `message_delta`: only what it includes is overwritten. -/
def UsageReading.overwrite (kept : Count) (value : Option JsonValue) : Count :=
  match present value with
  | some value => reading.count value
  | none => kept

def anthropicEvent (tokens : AnthropicTokens Count) (event : SseEvent) :
    AnthropicTokens Count :=
  match (reading.tryParseJson event.data).filter isObject with
  | none => tokens
  | some parsed =>
      if event.event = some (js "message_start") then
        match (property (property (some parsed) "message") "usage").filter reading.truthy with
        | none => tokens
        | some usage =>
            { inputTokens := reading.countOf (property (some usage) "input_tokens")
              outputTokens := reading.countOf (property (some usage) "output_tokens")
              cacheReadTokens :=
                reading.countOf (property (some usage) "cache_read_input_tokens")
              cacheWriteTokens :=
                reading.countOf (property (some usage) "cache_creation_input_tokens")
              seen := true }
      else if event.event = some (js "message_delta") then
        match (property (some parsed) "usage").filter reading.truthy with
        | none => tokens
        | some usage =>
            { inputTokens :=
                reading.overwrite tokens.inputTokens (property (some usage) "input_tokens")
              outputTokens :=
                reading.overwrite tokens.outputTokens (property (some usage) "output_tokens")
              cacheReadTokens :=
                reading.overwrite tokens.cacheReadTokens
                  (property (some usage) "cache_read_input_tokens")
              cacheWriteTokens :=
                reading.overwrite tokens.cacheWriteTokens
                  (property (some usage) "cache_creation_input_tokens")
              seen := true }
      else tokens

def createAnthropicStreamUsageAccumulator : UsageAccumulator Count where
  State := AnthropicTokens Count
  initial := ⟨0, 0, 0, 0, false⟩
  onEvent := anthropicEvent reading
  result tokens :=
    if tokens.seen then
      some
        { inputTokens := tokens.inputTokens
          outputTokens := tokens.outputTokens
          cacheReadTokens := positive tokens.cacheReadTokens
          cacheWriteTokens := positive tokens.cacheWriteTokens }
    else none

def createStreamUsageAccumulator : ProviderApiKind → UsageAccumulator Count
  | .anthropicMessages => createAnthropicStreamUsageAccumulator reading
  | .openaiResponses => createOpenAiResponsesStreamUsageAccumulator reading
  | .openaiCompletions => createOpenAiStreamUsageAccumulator reading

end

namespace UsageAccumulator

variable {Count : Type} (accumulator : UsageAccumulator Count)

/-- One `push`: the parser's buffer and what the accumulator keeps. -/
def push (state : JsString × accumulator.State) (chunk : JsString) :
    JsString × accumulator.State :=
  let taken := pushChunk state.1 chunk
  (taken.2, taken.1.foldl accumulator.onEvent state.2)

/-- `result()` after the chunks, in order. -/
def resultOf (chunks : List JsString) : Option (ParsedUsage Count) :=
  accumulator.result (chunks.foldl accumulator.push ([], accumulator.initial)).2

end UsageAccumulator
end NextTime.LlmProxy.Usage
