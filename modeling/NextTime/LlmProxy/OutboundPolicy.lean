import NextTime.Library.JsObject
import NextTime.LlmProxy.Catalog

/-
What of an agent's request body reaches the provider: tool entries that are no tools of
the client are taken out of the parsed body, with the parameters that switch such tools
on, and a body with nothing to take out is forwarded as it came. A body is its text.
-/

namespace NextTime.LlmProxy.Outbound

open JsString (js)
open OwnProperties (assign without)

/-- Tool types of the client; none is an entry with no type. -/
def CLIENT_TOOL_TYPES : ProviderApiKind → List (Option JsString)
  | .openaiCompletions => [some (js "function"), some (js "custom")]
  | .openaiResponses => [some (js "function"), some (js "custom")]
  | .anthropicMessages => [none, some (js "custom")]

def SERVER_TOOL_PARAMS : ProviderApiKind → List JsString
  | .openaiCompletions =>
      [js "web_search_options", js "plugins", js "enable_search", js "search_parameters"]
  | .openaiResponses => []
  | .anthropicMessages => [js "mcp_servers", js "container"]

def MAX_LOGGED_VALUES : Nat := 20

def MAX_LOGGED_VALUE_LENGTH : Nat := 64

def boundForLog (values : List JsString) : List JsString :=
  (values.eraseDups.take MAX_LOGGED_VALUES).map fun value => value.take MAX_LOGGED_VALUE_LENGTH

structure ServerToolStripResult where
  strippedTools : List JsString
  strippedParams : List JsString
deriving DecidableEq, Repr

section
variable {Number : Type} (numbers : JsNumbers Number)

/-- The members of an object that is no array. -/
def isRecord : JsValue Number → Option (JsMembers Number)
  | .obj members => some members
  | _ => none

def isText (text : JsString) : Option (JsValue Number) → Bool
  | some (.str value) => value = text
  | _ => false

/-- A type as it is looked up; the outer none is a conversion that throws. -/
def typeKey : Option (JsValue Number) → Option (Option JsString)
  | none => some none
  | some (.str type) => some (some type)
  | some type => (JsValue.string numbers type).map some

/-- What becomes of an entry: kept, or removed under a label of the log. -/
inductive Verdict
  | kept
  | removed (label : JsString)
deriving DecidableEq, Repr

def judgeType (allowed : List (Option JsString)) (type : Option (JsValue Number)) :
    Option Verdict :=
  (typeKey numbers type).map fun key =>
    if key ∈ allowed then .kept else .removed (key.getD (js "(none)"))

def judgeTool (allowed : List (Option JsString)) (tool : JsValue Number) : Option Verdict :=
  match isRecord tool with
  | some members => judgeType numbers allowed (members.lookup (js "type"))
  | none => some (.removed (js "(none)"))

/-- A content block: only a `tool_addition` can be removed, and one by reference is kept. -/
def judgeBlock (allowed : List (Option JsString)) (block : JsValue Number) : Option Verdict :=
  match isRecord block with
  | none => some .kept
  | some members =>
      if !isText (js "tool_addition") (members.lookup (js "type")) then some .kept
      else
        let tool := (members.lookup (js "tool")).bind isRecord
        let toolType := tool.bind fun tool => tool.lookup (js "type")
        if isText (js "tool_reference") toolType then some .kept
        else
          let definition := (tool.bind fun tool => tool.lookup (js "definition")).bind isRecord
          match isText (js "tool_definition") toolType, definition with
          | true, some definition => judgeType numbers allowed (definition.lookup (js "type"))
          | _, _ =>
              let label := match toolType with
                | some (.str type) => type
                | _ => js "(none)"
              some (.removed (js "tool_addition:" ++ label))

/-- `filter` with the labels of what it removes; none where a conversion throws. -/
def partition (judge : JsValue Number → Option Verdict) :
    List (JsValue Number) → Option (List (JsValue Number) × List JsString)
  | [] => some ([], [])
  | item :: items =>
      match judge item, partition judge items with
      | some .kept, some (kept, removed) => some (item :: kept, removed)
      | some (.removed label), some (kept, removed) => some (kept, label :: removed)
      | _, _ => none

/-- A list on `holder[key]` edited in place, and what was removed. -/
def editList (key : JsString)
    (edit : List (JsValue Number) → Option (List (JsValue Number) × List JsString))
    (holder : JsMembers Number) : Option (JsMembers Number × List JsString) :=
  match holder.lookup key with
  | some (.arr items) => (edit items).map fun edited => (assign key (.arr edited.1) holder, edited.2)
  | _ => some (holder, [])

def filterToolList (allowed : List (Option JsString)) (key : JsString) (holder : JsMembers Number) :
    Option (JsMembers Number × List JsString) :=
  editList key (partition (judgeTool numbers allowed)) holder

def filterToolAdditionBlocks (allowed : List (Option JsString)) (key : JsString)
    (holder : JsMembers Number) : Option (JsMembers Number × List JsString) :=
  editList key (partition (judgeBlock numbers allowed)) holder

/-- The records of a list, each edited in place. -/
def editRecords (edit : JsMembers Number → Option (JsMembers Number × List JsString)) :
    List (JsValue Number) → Option (List (JsValue Number) × List JsString)
  | [] => some ([], [])
  | item :: items =>
      let edited := match isRecord item with
        | some members => (edit members).map fun edited => (JsValue.obj edited.1, edited.2)
        | none => some (item, [])
      match edited, editRecords edit items with
      | some (item, removed), some (items, others) => some (item :: items, removed ++ others)
      | _, _ => none

def filterAnthropicToolAdditions (allowed : List (Option JsString)) (body : JsMembers Number) :
    Option (JsMembers Number × List JsString) :=
  match filterToolAdditionBlocks numbers allowed (js "system") body with
  | none => none
  | some (body, removed) =>
      (editList (js "messages")
        (editRecords (filterToolAdditionBlocks numbers allowed (js "content"))) body).map
          fun edited => (edited.1, removed ++ edited.2)

/-- Tool lists nested in the conversation. -/
def filterConversation (api : ProviderApiKind) (body : JsMembers Number) :
    Option (JsMembers Number × List JsString) :=
  let allowed := CLIENT_TOOL_TYPES api
  match api with
  | .openaiCompletions =>
      editList (js "messages") (editRecords (filterToolList numbers allowed (js "tools"))) body
  | .openaiResponses =>
      editList (js "input") (editRecords (filterToolList numbers allowed (js "tools"))) body
  | .anthropicMessages => filterAnthropicToolAdditions numbers allowed body

def hasOwn (body : JsMembers Number) (param : JsString) : Bool := (body.lookup param).isSome

/-- The body behind the filters; none where a type cannot be converted. -/
def stripProviderServerTools (api : ProviderApiKind) (body : JsMembers Number) :
    Option (JsMembers Number × ServerToolStripResult) :=
  match filterToolList numbers (CLIENT_TOOL_TYPES api) (js "tools") body with
  | none => none
  | some (body, tools) =>
      match filterConversation numbers api body with
      | none => none
      | some (body, nested) =>
          let strippedParams := (SERVER_TOOL_PARAMS api).filter (hasOwn body)
          some (strippedParams.foldl (fun body param => without param body) body,
            { strippedTools := boundForLog (tools ++ nested), strippedParams })

/-! ### The body -/

inductive BodyFailure
  | invalidRequestBody (message : String)
  | typeError
deriving DecidableEq, Repr

structure ParsedRequestBody where
  outboundBody : JsString
  modelId : JsString
  stripped : ServerToolStripResult
deriving DecidableEq, Repr

/-- `object[key] = value`. -/
def put (key : JsString) (value : JsValue Number) (members : JsMembers Number) :
    JsMembers Number :=
  JsValue.ownOrder (assign key value members)

/-- `{ ...value }` where the value is an object or an array, else nothing. -/
def spread : Option (JsValue Number) → JsMembers Number
  | some (.obj members) => members
  | some (.arr items) =>
      JsValue.collapse .last (items.zipIdx.map fun item => (js (toString item.2), item.1))
  | _ => []

/-- `stream_options.include_usage = true`. -/
def forceUsage (body : JsMembers Number) : JsMembers Number :=
  put (js "stream_options")
    (.obj (put (js "include_usage") (.bool true) (spread (body.lookup (js "stream_options"))))) body

/-- A streamed Chat Completions request: its usage reporting is forced. -/
def isForced (api : ProviderApiKind) (body : JsMembers Number) : Bool :=
  match body.lookup (js "stream") with
  | some (.bool true) => decide (api = .openaiCompletions)
  | _ => false

def strippedAny (stripped : ServerToolStripResult) : Bool :=
  decide (stripped.strippedTools ≠ []) || decide (stripped.strippedParams ≠ [])

def parseAndMaybeMutateBody (api : ProviderApiKind) (raw : JsString) :
    Except BodyFailure ParsedRequestBody :=
  let parsed := if raw = [] then some none else (JsValue.parseText numbers .last raw).map some
  match parsed with
  | none => .error (.invalidRequestBody "request body must be valid JSON")
  | some parsed =>
      match parsed.bind isRecord with
      | none => .error (.invalidRequestBody "request body must be a JSON object")
      | some obj =>
          match obj.lookup (js "model") with
          | some (.str modelId) =>
              if modelId = [] then
                .error (.invalidRequestBody "request body must set a non-empty string \"model\"")
              else
                match stripProviderServerTools numbers api obj with
                | none => .error .typeError
                | some (body, stripped) =>
                    if isForced api obj then
                      .ok { outboundBody := JsValue.stringifyValue numbers (.obj (forceUsage body))
                            modelId, stripped }
                    else
                      .ok { outboundBody := if strippedAny stripped then
                              JsValue.stringifyValue numbers (.obj body) else raw
                            modelId, stripped }
          | _ => .error (.invalidRequestBody "request body must set a non-empty string \"model\"")

end

end NextTime.LlmProxy.Outbound
