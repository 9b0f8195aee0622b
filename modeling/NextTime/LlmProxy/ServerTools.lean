import NextTime.LlmProxy.WrittenBody

/-
No tool of the provider leaves: what a reader of the outbound body finds there, whether it
keeps the first or the last of repeated keys, and on which bodies the proxy sees to it.
-/

namespace NextTime.LlmProxy.Outbound

open JsString (js)
open OwnProperties (assign without)
open JsValue (Own OwnMembers rewritten rewrittenMembers parseText kept keptMembers collapse)

section
variable {Number : Type}

/-! ### Tools of the client -/

/-- A type that is exactly one of the client's, or left out where the client's may be. -/
def isClientType (api : ProviderApiKind) : Option (JsValue Number) → Bool
  | none => none ∈ CLIENT_TOOL_TYPES api
  | some (.str type) => some type ∈ CLIENT_TOOL_TYPES api
  | some _ => false

def isClientTool (api : ProviderApiKind) (tool : JsValue Number) : Bool :=
  (isRecord tool).any fun members => isClientType api (members.lookup (js "type"))

/-- A block that adds no tool, adds one by reference, or one of the client. -/
def isClientBlock (api : ProviderApiKind) (block : JsValue Number) : Bool :=
  (isRecord block).all fun members =>
    !isText (js "tool_addition") (members.lookup (js "type")) ||
      ((members.lookup (js "tool")).bind isRecord).any fun tool =>
        isText (js "tool_reference") (tool.lookup (js "type")) ||
          isText (js "tool_definition") (tool.lookup (js "type")) &&
            ((tool.lookup (js "definition")).bind isRecord).any fun definition =>
              isClientType api (definition.lookup (js "type"))

structure ClientToolsOnly (api : ProviderApiKind) (body : JsMembers Number) : Prop where
  entries : ForEntries api (fun tool => isClientTool api tool = true)
    (fun block => isClientBlock api block = true) body
  noParams : NoParams api body

/-- The body without its entries that are no tools of the client, and their parameters. -/
def withoutServerTools (api : ProviderApiKind) (body : JsMembers Number) : JsMembers Number :=
  narrowBy api (isClientTool api) (isClientBlock api) body

variable (numbers : JsNumbers Number)

/-- A type that is no string and is converted to one of the client's. -/
def ConvertedType (api : ProviderApiKind) (type : Option (JsValue Number)) : Prop :=
  ∃ value text, type = some value ∧ (∀ written, value ≠ .str written) ∧
    JsValue.string numbers value = some text ∧ some text ∈ CLIENT_TOOL_TYPES api

def ConvertedTool (api : ProviderApiKind) (tool : JsValue Number) : Prop :=
  ∃ members, isRecord tool = some members ∧ ConvertedType numbers api (members.lookup (js "type"))

/-- A `tool_addition` whose definition has such a type. -/
def ConvertedBlock (api : ProviderApiKind) (block : JsValue Number) : Prop :=
  ∃ members tool definition, isRecord block = some members ∧
    isText (js "tool_addition") (members.lookup (js "type")) = true ∧
      (members.lookup (js "tool")).bind isRecord = some tool ∧
        isText (js "tool_definition") (tool.lookup (js "type")) = true ∧
          (tool.lookup (js "definition")).bind isRecord = some definition ∧
            ConvertedType numbers api (definition.lookup (js "type"))

variable {numbers}

theorem judgeType_kept_iff (api : ProviderApiKind) (type : Option (JsValue Number)) :
    judgeType numbers (CLIENT_TOOL_TYPES api) type = some .kept ↔
      isClientType api type = true ∨ ConvertedType numbers api type := by
  have keptKey (key : Option JsString) :
      (some (if key ∈ CLIENT_TOOL_TYPES api then Verdict.kept
        else .removed (key.getD (js "(none)"))) = some .kept) ↔ key ∈ CLIENT_TOOL_TYPES api := by
    split
    next isAllowed => exact iff_of_true rfl isAllowed
    next notAllowed => exact iff_of_false (fun same => by cases same) notAllowed
  cases type with
  | none =>
      rw [judgeType, typeKey, Option.map_some, keptKey, isClientType, decide_eq_true_eq]
      have notConverted : ¬ConvertedType numbers api none := by
        intro converted
        obtain ⟨value, written, isSome, others⟩ := converted
        cases isSome
      exact (or_iff_left notConverted).symm
  | some value =>
      have converts (other : ∀ written, value ≠ .str written)
          (key : typeKey numbers (some value) = (JsValue.string numbers value).map some)
          (notClient : isClientType api (some value) = false) :
          judgeType numbers (CLIENT_TOOL_TYPES api) (some value) = some .kept ↔
            isClientType api (some value) = true ∨
              ConvertedType numbers api (some value) := by
        rw [judgeType, key, notClient, Option.map_map]
        constructor
        · intro kept
          obtain ⟨text, isText, isKept⟩ := Option.map_eq_some_iff.mp kept
          have isAllowed := (keptKey (some text)).mp (congrArg some isKept)
          exact .inr ⟨value, text, rfl, other, isText, isAllowed⟩
        · intro either
          cases either with
          | inl impossible => cases impossible
          | inr converted =>
              obtain ⟨held, text, isHeld, _, isText, isAllowed⟩ := converted
              rw [← Option.some.inj isHeld] at isText
              rw [isText]
              exact (keptKey (some text)).mpr isAllowed
      cases value with
      | str type =>
          rw [judgeType, typeKey, Option.map_some, keptKey, isClientType, decide_eq_true_eq]
          constructor
          · exact .inl
          · intro either
            cases either with
            | inl isClient => exact isClient
            | inr converted =>
                obtain ⟨held, _, isHeld, other, _⟩ := converted
                exact absurd (Option.some.inj isHeld).symm (other type)
      | null => exact converts (fun _ same => by cases same) rfl rfl
      | bool value => exact converts (fun _ same => by cases same) rfl rfl
      | num number => exact converts (fun _ same => by cases same) rfl rfl
      | arr items => exact converts (fun _ same => by cases same) rfl rfl
      | obj members => exact converts (fun _ same => by cases same) rfl rfl

theorem not_converted_of_client {api : ProviderApiKind} {type : Option (JsValue Number)}
    (isClient : isClientType api type = true) : ¬ ConvertedType numbers api type := by
  intro ⟨value, text, isValue, other, _⟩
  rw [isValue] at isClient
  cases value with
  | str type => exact other type rfl
  | null => cases isClient
  | bool value => cases isClient
  | num number => cases isClient
  | arr items => cases isClient
  | obj members => cases isClient

/-- A tool that is let through is one of the client's unless its type was converted. -/
theorem letsTool_iff (api : ProviderApiKind) (tool : JsValue Number) :
    letsTool numbers api tool = true ↔
      isClientTool api tool = true ∨ ConvertedTool numbers api tool := by
  rw [letsTool, letsThrough, decide_eq_true_eq, judgeTool, isClientTool, ConvertedTool]
  cases isRecord tool with
  | none =>
      apply iff_of_false (fun same => by cases same)
      intro either
      cases either with
      | inl impossible => cases impossible
      | inr converted =>
          obtain ⟨_, isSome, _⟩ := converted
          cases isSome
  | some members =>
      dsimp only
      rw [judgeType_kept_iff]
      constructor
      · intro either
        cases either with
        | inl isClient => exact .inl isClient
        | inr converted => exact .inr ⟨members, rfl, converted⟩
      · intro either
        cases either with
        | inl isClient => exact .inl isClient
        | inr converted =>
            obtain ⟨held, isHeld, isConverted⟩ := converted
            rw [← Option.some.inj isHeld] at isConverted
            exact .inr isConverted

theorem not_convertedTool_of_client {api : ProviderApiKind} {tool : JsValue Number}
    (isClient : isClientTool api tool = true) : ¬ ConvertedTool numbers api tool := by
  intro ⟨members, isMembers, converted⟩
  rw [isClientTool, isMembers] at isClient
  exact not_converted_of_client isClient converted

/-- A block that is let through is none of the provider's unless a type was converted. -/
theorem letsBlock_iff (api : ProviderApiKind) (block : JsValue Number) :
    letsBlock numbers api block = true ↔
      isClientBlock api block = true ∨ ConvertedBlock numbers api block := by
  rw [letsBlock, letsThrough, decide_eq_true_eq, judgeBlock, isClientBlock]
  cases isBlock : isRecord block with
  | none => exact iff_of_true rfl (.inl rfl)
  | some members =>
      rw [Option.all_some]
      dsimp only
      cases adds : isText (js "tool_addition") (members.lookup (js "type")) with
      | false => exact iff_of_true rfl (.inl rfl)
      | true =>
          rw [Bool.not_true, Bool.false_or, if_neg Bool.false_ne_true]
          cases isTool : (members.lookup (js "tool")).bind isRecord with
          | none =>
              apply iff_of_false (fun same => by cases same)
              intro either
              cases either with
              | inl impossible => cases impossible
              | inr converted =>
                  obtain ⟨held, tool, _, isHeld, _, isSome, _⟩ := converted
                  rw [isBlock] at isHeld
                  rw [← Option.some.inj isHeld, isTool] at isSome
                  cases isSome
          | some tool =>
              rw [Option.any_some, Option.bind_some, Option.bind_some]
              cases refers : isText (js "tool_reference") (tool.lookup (js "type")) with
              | true => exact iff_of_true rfl (.inl rfl)
              | false =>
                  rw [if_neg Bool.false_ne_true, Bool.false_or]
                  cases defines : isText (js "tool_definition") (tool.lookup (js "type")) with
                  | false =>
                      apply iff_of_false (fun same => by cases same)
                      intro either
                      cases either with
                      | inl impossible => cases impossible
                      | inr converted =>
                          obtain ⟨held, other, _, isHeld, _, isOther, isDefinition, _⟩ := converted
                          rw [isBlock] at isHeld
                          rw [← Option.some.inj isHeld, isTool] at isOther
                          rw [← Option.some.inj isOther, defines] at isDefinition
                          cases isDefinition
                  | true =>
                      cases isDefinition : (tool.lookup (js "definition")).bind isRecord with
                      | none =>
                          apply iff_of_false (fun same => by cases same)
                          intro either
                          cases either with
                          | inl impossible => cases impossible
                          | inr converted =>
                              obtain ⟨held, other, _, isHeld, _, isOther, _, isSome, _⟩ := converted
                              rw [isBlock] at isHeld
                              rw [← Option.some.inj isHeld, isTool] at isOther
                              rw [← Option.some.inj isOther, isDefinition] at isSome
                              cases isSome
                      | some definition =>
                          rw [Option.any_some, Bool.true_and]
                          dsimp only
                          rw [judgeType_kept_iff]
                          constructor
                          · intro either
                            cases either with
                            | inl isClient => exact .inl isClient
                            | inr converted =>
                                exact .inr ⟨members, tool, definition, isBlock, adds, isTool,
                                  defines, isDefinition, converted⟩
                          · intro either
                            cases either with
                            | inl isClient => exact .inl isClient
                            | inr converted =>
                                obtain ⟨held, other, last, isHeld, _, isOther, _, isLast,
                                  isConverted⟩ := converted
                                rw [isBlock] at isHeld
                                rw [← Option.some.inj isHeld, isTool] at isOther
                                rw [← Option.some.inj isOther, isDefinition] at isLast
                                rw [← Option.some.inj isLast] at isConverted
                                exact .inr isConverted

theorem not_convertedBlock_of_client {api : ProviderApiKind} {block : JsValue Number}
    (isClient : isClientBlock api block = true) : ¬ ConvertedBlock numbers api block := by
  intro ⟨members, tool, definition, isMembers, adds, isTool, defines, isDefinition, converted⟩
  have notReference : isText (js "tool_reference") (tool.lookup (js "type")) = false := by
    cases type : tool.lookup (js "type") with
    | none =>
        rw [type] at defines
        cases defines
    | some value =>
        rw [type] at defines
        cases value with
        | str text =>
            have isDefinitionText : text = js "tool_definition" := of_decide_eq_true defines
            have different : js "tool_definition" ≠ js "tool_reference" := by decide
            rw [isDefinitionText]
            exact decide_eq_false different
        | null => cases defines
        | bool value => cases defines
        | num number => cases defines
        | arr items => cases defines
        | obj members => cases defines
  rw [isClientBlock, isMembers, Option.all_some, adds, isTool, Option.any_some, notReference,
    defines, isDefinition, Option.any_some, Bool.not_true, Bool.false_or, Bool.false_or,
    Bool.true_and] at isClient
  exact not_converted_of_client isClient converted

/-- What is let through is the client's exactly where no type was converted. -/
theorem letsTool_client_iff (api : ProviderApiKind) (tool : JsValue Number) :
    (letsTool numbers api tool = true → isClientTool api tool = true) ↔
      ¬ ConvertedTool numbers api tool := by
  rw [letsTool_iff]
  constructor
  · intro client converted
    exact not_convertedTool_of_client (client (.inr converted)) converted
  · intro none either
    exact either.resolve_right none

theorem letsBlock_client_iff (api : ProviderApiKind) (block : JsValue Number) :
    (letsBlock numbers api block = true → isClientBlock api block = true) ↔
      ¬ ConvertedBlock numbers api block := by
  rw [letsBlock_iff]
  constructor
  · intro client converted
    exact not_convertedBlock_of_client (client (.inr converted)) converted
  · intro none either
    exact either.resolve_right none

/-! ### A narrowed body without converted types -/

/-- No entry of a body has a type that only its conversion makes the client's. -/
def NoneConverted (numbers : JsNumbers Number) (api : ProviderApiKind) (body : JsMembers Number) :
    Prop :=
  ForEntries api (fun tool => ¬ ConvertedTool numbers api tool)
    (fun block => ¬ ConvertedBlock numbers api block) body

/-- Two tests that agree on every entry narrow a body alike. -/
theorem narrowBy_congr {api : ProviderApiKind} {tool otherTool block otherBlock :
      JsValue Number → Bool} {body : JsMembers Number} (own : Own (.obj body))
    (same : ForEntries api (fun entry => tool entry = otherTool entry)
      (fun entry => block entry = otherBlock entry) body) :
    narrowBy api tool block body = narrowBy api otherTool otherBlock body := by
  have tools : mapList (js "tools") (List.filter tool) body =
      mapList (js "tools") (List.filter otherTool) body :=
    mapList_congr own.1.nodup (List.filter_congr same.1)
  have ownTools := @own_mapList Number (js "tools") _ (fun _ => ownItems_filter otherTool) body own
  rw [narrowBy, narrowBy, tools]
  congr 1
  cases api with
  | openaiCompletions =>
      apply mapRecords_congr ownTools
      intro message isIn
      rw [recordsAt_mapList_of_ne (by decide)] at isIn
      exact List.filter_congr (same.2 message isIn)
  | openaiResponses =>
      apply mapRecords_congr ownTools
      intro item isIn
      rw [recordsAt_mapList_of_ne (by decide)] at isIn
      exact List.filter_congr (same.2 item isIn)
  | anthropicMessages =>
      have system : mapList (js "system") (List.filter block)
            (mapList (js "tools") (List.filter otherTool) body) =
          mapList (js "system") (List.filter otherBlock)
            (mapList (js "tools") (List.filter otherTool) body) := by
        apply mapList_congr ownTools.1.nodup
        rw [listAt_mapList_of_ne (by decide)]
        exact List.filter_congr same.2.1
      rw [narrowConversation, narrowConversation, system]
      apply mapRecords_congr (own_mapList (fun _ => ownItems_filter otherBlock) ownTools)
      intro message isIn
      rw [recordsAt_mapList_of_ne (by decide), recordsAt_mapList_of_ne (by decide)] at isIn
      exact List.filter_congr (same.2.2 message isIn)

/-- Where no type is converted, the proxy's filters leave the client's tools. -/
theorem narrowed_eq {api : ProviderApiKind} {body : JsMembers Number} (own : Own (.obj body))
    (none : NoneConverted numbers api body) :
    narrowBy api (letsTool numbers api) (letsBlock numbers api) body =
      withoutServerTools api body := by
  apply narrowBy_congr own
  have sameTool (tool : JsValue Number) (notConverted : ¬ ConvertedTool numbers api tool) :
      letsTool numbers api tool = isClientTool api tool := by
    rw [Bool.eq_iff_iff, letsTool_iff]
    exact or_iff_left notConverted
  have sameBlock (block : JsValue Number) (notConverted : ¬ ConvertedBlock numbers api block) :
      letsBlock numbers api block = isClientBlock api block := by
    rw [Bool.eq_iff_iff, letsBlock_iff]
    exact or_iff_left notConverted
  exact forEntries_imp sameTool sameBlock none

/-! ### What writing and reading again leaves -/

theorem lookup_rewritten (key : JsString) (members : JsMembers Number) :
    (rewrittenMembers numbers members).lookup key =
      (members.lookup key).map (rewritten numbers) := by
  rw [JsValue.rewrittenMembers_map]
  exact lookup_mapValues (fun _ value => rewritten numbers value) key members

theorem listAt_rewritten (key : JsString) (members : JsMembers Number) :
    listAt key (rewrittenMembers numbers members) =
      (listAt key members).map (rewritten numbers) := by
  rw [listAt, lookup_rewritten, listAt]
  cases members.lookup key with
  | none => rfl
  | some value =>
      cases value with
      | arr items => exact JsValue.rewrittenItems_map items
      | num number =>
          rw [Option.map_some, rewritten]
          cases numbers.write number with
          | none => rfl
          | some text => rfl
      | null => rfl
      | bool value => rfl
      | str text => rfl
      | obj members => rfl

theorem isRecord_rewritten (value : JsValue Number) :
    isRecord (rewritten numbers value) = (isRecord value).map (rewrittenMembers numbers) := by
  cases value with
  | num number =>
      rw [rewritten]
      cases numbers.write number with
      | none => rfl
      | some text => rfl
  | arr items => rfl
  | null => rfl
  | bool value => rfl
  | str text => rfl
  | obj members => rfl

theorem recordsAt_rewritten (key : JsString) (members : JsMembers Number) :
    recordsAt key (rewrittenMembers numbers members) =
      (recordsAt key members).map (rewrittenMembers numbers) := by
  rw [recordsAt, listAt_rewritten, recordsAt, List.filterMap_map, List.map_filterMap]
  congr 1
  exact funext isRecord_rewritten

theorem isText_rewritten (text : JsString) (value : Option (JsValue Number)) :
    isText text (value.map (rewritten numbers)) = isText text value := by
  cases value with
  | none => rfl
  | some value =>
      cases value with
      | num number =>
          rw [Option.map_some, rewritten]
          cases numbers.write number with
          | none => rfl
          | some text => rfl
      | arr items => rfl
      | null => rfl
      | bool value => rfl
      | str text => rfl
      | obj members => rfl

theorem isClientType_rewritten (api : ProviderApiKind) (type : Option (JsValue Number)) :
    isClientType api (type.map (rewritten numbers)) = isClientType api type := by
  cases type with
  | none => rfl
  | some value =>
      cases value with
      | num number =>
          rw [Option.map_some, rewritten]
          cases numbers.write number with
          | none => rfl
          | some text => rfl
      | arr items => rfl
      | null => rfl
      | bool value => rfl
      | str text => rfl
      | obj members => rfl

theorem isClientTool_rewritten (api : ProviderApiKind) (tool : JsValue Number) :
    isClientTool api (rewritten numbers tool) = isClientTool api tool := by
  rw [isClientTool, isRecord_rewritten, isClientTool]
  cases isRecord tool with
  | none => rfl
  | some members =>
      rw [Option.map_some, Option.any_some, Option.any_some, lookup_rewritten,
        isClientType_rewritten]

theorem bind_isRecord_rewritten (value : Option (JsValue Number)) :
    (value.map (rewritten numbers)).bind isRecord =
      (value.bind isRecord).map (rewrittenMembers numbers) := by
  cases value with
  | none => rfl
  | some value => exact isRecord_rewritten value

theorem isClientBlock_rewritten (api : ProviderApiKind) (block : JsValue Number) :
    isClientBlock api (rewritten numbers block) = isClientBlock api block := by
  rw [isClientBlock, isRecord_rewritten, isClientBlock]
  cases isRecord block with
  | none => rfl
  | some members =>
      rw [Option.map_some, Option.all_some, Option.all_some, lookup_rewritten, isText_rewritten,
        lookup_rewritten, bind_isRecord_rewritten]
      cases (members.lookup (js "tool")).bind isRecord with
      | none => rfl
      | some tool =>
          rw [Option.map_some, Option.any_some, Option.any_some, lookup_rewritten,
            isText_rewritten, isText_rewritten, lookup_rewritten, bind_isRecord_rewritten]
          cases (tool.lookup (js "definition")).bind isRecord with
          | none => rfl
          | some definition =>
              rw [Option.map_some, Option.any_some, Option.any_some, lookup_rewritten,
                isClientType_rewritten]

/-- The entries of a body that is written and read again are its entries so treated. -/
theorem forEntries_rewritten (api : ProviderApiKind) {tool block : JsValue Number → Prop}
    (body : JsMembers Number) :
    ForEntries api tool block (rewrittenMembers numbers body) ↔
      ForEntries api (fun entry => tool (rewritten numbers entry))
        (fun entry => block (rewritten numbers entry)) body := by
  have nested (key inner : JsString) (holds : JsValue Number → Prop) :
      (∀ record ∈ recordsAt key (rewrittenMembers numbers body),
          ∀ entry ∈ listAt inner record, holds entry) ↔
        ∀ record ∈ recordsAt key body, ∀ entry ∈ listAt inner record,
          holds (rewritten numbers entry) := by
    rw [recordsAt_rewritten, List.forall_mem_map]
    apply forall₂_congr
    intro record _
    rw [listAt_rewritten, List.forall_mem_map]
  cases api with
  | openaiCompletions =>
      rw [ForEntries, ForEntries, nested, listAt_rewritten, List.forall_mem_map]
  | openaiResponses =>
      rw [ForEntries, ForEntries, nested, listAt_rewritten, List.forall_mem_map]
  | anthropicMessages =>
      rw [ForEntries, ForEntries, nested, listAt_rewritten, List.forall_mem_map, listAt_rewritten,
        List.forall_mem_map]

theorem clientToolsOnly_rewritten {api : ProviderApiKind} {body : JsMembers Number} :
    ClientToolsOnly api (rewrittenMembers numbers body) ↔ ClientToolsOnly api body := by
  have entries : ForEntries api (fun tool => isClientTool api tool = true)
        (fun block => isClientBlock api block = true) (rewrittenMembers numbers body) ↔
      ForEntries api (fun tool => isClientTool api tool = true)
        (fun block => isClientBlock api block = true) body := by
    rw [forEntries_rewritten]
    apply forEntries_congr
    · intro entry
      rw [isClientTool_rewritten]
    · intro entry
      rw [isClientBlock_rewritten]
  have params : NoParams api (rewrittenMembers numbers body) ↔ NoParams api body := by
    apply forall₂_congr
    intro param _
    rw [lookup_rewritten, Option.map_eq_none_iff]
  constructor
  · exact fun only => ⟨entries.mp only.entries, params.mp only.noParams⟩
  · exact fun only => ⟨entries.mpr only.entries, params.mpr only.noParams⟩

/-! ### Usage reporting -/

theorem lookup_put_other {key other : JsString} (different : other ≠ key) (value : JsValue Number)
    {members : JsMembers Number} (nodup : (JsValue.keys members).Nodup) :
    (put key value members).lookup other = members.lookup other := by
  rw [put, JsValue.lookup_ownOrder (JsValue.nodup_assign nodup key value),
    JsValue.lookup_assign_other different]

theorem clientToolsOnly_forceUsage {api : ProviderApiKind} {body : JsMembers Number}
    (nodup : (JsValue.keys body).Nodup) :
    ClientToolsOnly api (forceUsage body) ↔ ClientToolsOnly api body := by
  have list (key : JsString) (different : key ≠ js "stream_options") :
      listAt key (forceUsage body) = listAt key body := by
    rw [listAt, forceUsage, lookup_put_other different _ nodup, listAt]
  have records (key : JsString) (different : key ≠ js "stream_options") :
      recordsAt key (forceUsage body) = recordsAt key body := by
    rw [recordsAt, list key different, recordsAt]
  have entries {tool block : JsValue Number → Prop} : ForEntries api tool block (forceUsage body) ↔
      ForEntries api tool block body := by
    cases api with
    | openaiCompletions =>
        rw [ForEntries, ForEntries, list _ (by decide), records _ (by decide)]
    | openaiResponses =>
        rw [ForEntries, ForEntries, list _ (by decide), records _ (by decide)]
    | anthropicMessages =>
        rw [ForEntries, ForEntries, list _ (by decide), list _ (by decide), records _ (by decide)]
  have params : NoParams api (forceUsage body) ↔ NoParams api body := by
    apply forall₂_congr
    intro param isParam
    have different : param ≠ js "stream_options" := by
      intro same
      rw [same] at isParam
      cases api with
      | openaiCompletions => exact absurd isParam (by decide)
      | openaiResponses => exact absurd isParam (by decide)
      | anthropicMessages => exact absurd isParam (by decide)
    rw [forceUsage, lookup_put_other different _ nodup]
  constructor
  · exact fun only => ⟨entries.mp only.entries, params.mp only.noParams⟩
  · exact fun only => ⟨entries.mpr only.entries, params.mpr only.noParams⟩

theorem own_put {key : JsString} {value : JsValue Number} {members : JsMembers Number}
    (own : Own (.obj members)) (ownValue : Own value) : Own (.obj (put key value members)) := by
  constructor
  · exact JsValue.proper_ownOrder (JsValue.nodup_assign own.1.nodup key value)
  · apply JsValue.ownMembers_iff.mpr
    intro member isIn
    have isAssigned := (List.mem_insertionSort JsValue.Earlier).mp isIn
    cases @JsValue.mem_add _ .last members (key, value) member isAssigned with
    | inl held => exact JsValue.ownMembers_iff.mp own.2 member held
    | inr added => exact added ▸ ownValue

theorem own_spread {value : Option (JsValue Number)} (own : ∀ held ∈ value, Own held) :
    Own (.obj (spread value)) := by
  have nothing : Own (.obj ([] : JsMembers Number)) := ⟨⟨List.nodup_nil, .nil⟩, trivial⟩
  cases value with
  | none => exact nothing
  | some held =>
      have ownHeld := own held rfl
      cases held with
      | obj members => exact ownHeld
      | arr items =>
          constructor
          · exact JsValue.proper_collapse _ _
          · apply JsValue.ownMembers_iff.mpr
            intro member isIn
            obtain ⟨item, isItem, isMember⟩ := List.mem_map.mp (JsValue.mem_collapse isIn)
            rw [← isMember]
            exact JsValue.ownItems_iff.mp ownHeld _ (List.fst_mem_of_mem_zipIdx isItem)
      | null => exact nothing
      | bool value => exact nothing
      | num number => exact nothing
      | str text => exact nothing

theorem own_forceUsage {body : JsMembers Number} (own : Own (.obj body)) :
    Own (.obj (forceUsage body)) := by
  apply own_put own
  apply own_put
  · apply own_spread
    intro held isHeld
    exact JsValue.ownMembers_iff.mp own.2 _ (JsValue.mem_of_lookup isHeld)
  · trivial

/-! ### The body that leaves -/

/-- What a request that is not refused was read as, and what is made of it. -/
structure Returned (numbers : JsNumbers Number) (api : ProviderApiKind) (raw : JsString)
    (result : ParsedRequestBody) (body stripped : JsMembers Number) : Prop where
  read : parseText numbers .last raw = some (.obj body)
  strips : stripProviderServerTools numbers api body = some (stripped, result.stripped)
  outbound : result.outboundBody =
    if isForced api body then JsValue.stringifyValue numbers (.obj (forceUsage stripped))
    else if strippedAny result.stripped then JsValue.stringifyValue numbers (.obj stripped)
    else raw

theorem parseAndMaybeMutateBody_ok {api : ProviderApiKind} {raw : JsString}
    {result : ParsedRequestBody}
    (returns : parseAndMaybeMutateBody numbers api raw = .ok result) :
    ∃ body stripped, Returned numbers api raw result body stripped := by
  rw [parseAndMaybeMutateBody] at returns
  split at returns
  next => cases returns
  next parsed isParsed =>
    split at returns
    next => cases returns
    next body isBody =>
      split at returns
      next modelId _ =>
        split at returns
        next => cases returns
        next =>
          split at returns
          next => cases returns
          next stripped info strips =>
            have read : parseText numbers .last raw = some (.obj body) := by
              split at isParsed
              next =>
                rw [← Option.some.inj isParsed] at isBody
                cases isBody
              next =>
                obtain ⟨value, isValue, same⟩ := Option.map_eq_some_iff.mp isParsed
                rw [← same] at isBody
                rw [isValue, isRecord_some isBody]
            refine ⟨body, stripped, ?_⟩
            split at returns
            next forced =>
              cases returns
              exact ⟨read, strips, (if_pos forced).symm⟩
            next notForced =>
              cases returns
              exact ⟨read, strips, (if_neg notForced).symm⟩
      next => cases returns

/-- The members a reader finds in a body; none where it is no object. -/
def readBody (numbers : JsNumbers Number) (keeps : DuplicateKeys) (text : JsString) :
    JsMembers Number :=
  match parseText numbers keeps text with
  | some (.obj members) => members
  | _ => []

theorem readBody_eq {keeps : DuplicateKeys} {text : JsString} {members : JsMembers Number}
    (read : parseText numbers keeps text = some (.obj members)) :
    readBody numbers keeps text = members := by
  rw [readBody, read]

/-- What is an object to one reader is one to every reader. -/
theorem parseText_object {keeps other : DuplicateKeys} {text : JsString}
    {members : JsMembers Number} (read : parseText numbers keeps text = some (.obj members)) :
    parseText numbers other text = some (.obj (readBody numbers other text)) := by
  obtain ⟨json, isJson, isValue⟩ := Option.map_eq_some_iff.mp read
  have readOther : parseText numbers other text = some (JsValue.revive numbers other json) := by
    rw [parseText, isJson, Option.map_some]
  cases json with
  | obj others =>
      rw [JsValue.revive] at readOther
      rw [readOther, readBody_eq readOther]
  | null => cases isValue
  | bool value => cases isValue
  | num text => cases isValue
  | str text => cases isValue
  | arr items => cases isValue

/-- The body as it should leave: the client's tools, all else in its place, and the usage
reporting of a streamed Chat Completions request. -/
def outboundMembers (api : ProviderApiKind) (body : JsMembers Number) : JsMembers Number :=
  if isForced api body then forceUsage (withoutServerTools api body)
  else withoutServerTools api body

/-- The members of a body as its text has them; none where it is no object. -/
def asWrittenBody (numbers : JsNumbers Number) (text : JsString) : JsMembers Number :=
  match JsonText.parse text with
  | some (.obj members) => JsValue.asWrittenMembers numbers members
  | _ => []

/-- The same of the body as its text has it: an entry goes where it reads as none of the
client's. -/
def outboundAsWritten (numbers : JsNumbers Number) (api : ProviderApiKind) (raw : JsString) :
    JsMembers Number :=
  let left := narrowBy api (fun tool => isClientTool api (kept .last tool))
    (fun block => isClientBlock api (kept .last block)) (asWrittenBody numbers raw)
  if isForced api (readBody numbers .last raw) then requestUsage left else left

theorem readBody_asWritten (keeps : DuplicateKeys) (text : JsString) :
    readBody numbers keeps text =
      collapse keeps (keptMembers keeps (asWrittenBody numbers text)) := by
  rw [readBody, parseText, asWrittenBody]
  cases JsonText.parse text with
  | none => rfl
  | some json =>
      cases json with
      | obj members =>
          rw [Option.map_some, JsValue.revive_eq, JsValue.asWritten, kept]
      | null => rfl
      | bool value => rfl
      | num text => rfl
      | str text => rfl
      | arr items => rfl

theorem asWrittenBody_stringifyValue (members : JsMembers Number) :
    asWrittenBody numbers (JsValue.stringifyValue numbers (.obj members)) =
      rewrittenMembers numbers members := by
  rw [asWrittenBody, JsValue.stringifyValue, JsonText.parse_stringify JsonText.spaces_nil]
  exact JsValue.asWritten_writeMembers members

/-- Where what is left stands once and in order, the parsed body leaves the same. -/
theorem outboundMembers_asWritten {api : ProviderApiKind} {raw : JsString}
    (own : Own (.obj (outboundAsWritten numbers api raw))) :
    outboundMembers api (readBody numbers .last raw) = outboundAsWritten numbers api raw := by
  rw [outboundAsWritten] at own ⊢
  rw [outboundMembers, withoutServerTools]
  cases forced : isForced api (readBody numbers .last raw) with
  | true =>
      rw [forced, if_pos rfl] at own
      rw [if_pos rfl, if_pos rfl, readBody_asWritten, narrowBy_collapse (proper_of_assign own.1)]
      exact forceUsage_kept own
  | false =>
      rw [forced, if_neg Bool.false_ne_true] at own
      rw [if_neg Bool.false_ne_true, if_neg Bool.false_ne_true, readBody_asWritten,
        narrowBy_collapse own.1]
      exact JsValue.keptMembers_of_own .last _ own.2

/-- What the outbound body of a request is to a reader of either kind. -/
structure NoServerToolLeaves (numbers : JsNumbers Number) (api : ProviderApiKind) (raw : JsString)
    (result : ParsedRequestBody) : Prop where
  isObject : ∀ keeps, parseText numbers keeps result.outboundBody =
    some (.obj (readBody numbers keeps result.outboundBody))
  clientToolsOnly : ∀ keeps, ClientToolsOnly api (readBody numbers keeps result.outboundBody)
  /-- A body written anew is the inbound one as its text has it, without what is stripped,
  and so either reader finds it. -/
  unchanged : strippedAny result.stripped = true ∨
      isForced api (readBody numbers .last raw) = true →
    asWrittenBody numbers result.outboundBody = outboundAsWritten numbers api raw ∧
      ∀ keeps, readBody numbers keeps result.outboundBody = outboundAsWritten numbers api raw
  settled : stripProviderServerTools numbers api (readBody numbers .last result.outboundBody) =
    some (readBody numbers .last result.outboundBody, { strippedTools := [], strippedParams := [] })
  sameBytes : strippedAny result.stripped = false →
    isForced api (readBody numbers .last raw) = false → result.outboundBody = raw

/-- The body is written anew: its usage reporting is forced, or there is something to strip. -/
def IsRewritten (numbers : JsNumbers Number) (api : ProviderApiKind) (raw : JsString) : Prop :=
  isForced api (readBody numbers .last raw) = true ∨
    ¬ (NothingListed numbers api (readBody numbers .last raw) ∧
      NoParams api (readBody numbers .last raw))

/-- Bodies on which the proxy sees to it. -/
structure Harmless (numbers : JsNumbers Number) (api : ProviderApiKind) (raw : JsString) : Prop where
  /-- No type of an entry is converted to a type of the client's. -/
  noneConverted : NoneConverted numbers api (readBody numbers .last raw)
  /-- A body that is written anew has no key twice in one object and array indices in front,
  in what is left of it. -/
  ownOrder : IsRewritten numbers api raw → Own (.obj (outboundAsWritten numbers api raw))
  /-- Nor a number out of range. -/
  finite : IsRewritten numbers api raw →
    ∀ number ∈ JsValue.numbersOf (.obj (outboundAsWritten numbers api raw)),
      (numbers.write number).isSome = true
  /-- A body that is forwarded as it came is clean to a reader that keeps the first of
  repeated keys. -/
  asItCame : ¬ IsRewritten numbers api raw → ClientToolsOnly api (readBody numbers .first raw)

theorem strippedAny_false_iff (stripped : ServerToolStripResult) :
    strippedAny stripped = false ↔ stripped.strippedTools = [] ∧ stripped.strippedParams = [] := by
  rw [strippedAny, Bool.or_eq_false_iff, decide_eq_false_iff_not, decide_eq_false_iff_not,
    Decidable.not_not, Decidable.not_not]

/-- Entries of the client are left alone by the filters. -/
theorem nothingListed_of_client {api : ProviderApiKind} {body : JsMembers Number}
    (only : ClientToolsOnly api body) : NothingListed numbers api body := by
  apply forEntries_imp _ _ only.entries
  · intro tool isClient
    exact of_decide_eq_true ((letsTool_iff api tool).mpr (.inl isClient))
  · intro block isClient
    exact of_decide_eq_true ((letsBlock_iff api block).mpr (.inl isClient))

theorem clientToolsOnly_without (api : ProviderApiKind) (body : JsMembers Number) :
    ClientToolsOnly api (withoutServerTools api body) where
  entries := by
    rw [withoutServerTools, forEntries_narrowBy]
    cases api with
    | openaiCompletions => exact ⟨fun _ _ => id, fun _ _ _ _ => id⟩
    | openaiResponses => exact ⟨fun _ _ => id, fun _ _ _ _ => id⟩
    | anthropicMessages => exact ⟨fun _ _ => id, fun _ _ => id, fun _ _ _ _ => id⟩
  noParams := noParams_narrowBy api _ _ body

theorem clientToolsOnly_outbound {api : ProviderApiKind} {body : JsMembers Number}
    (own : Own (.obj body)) : ClientToolsOnly api (outboundMembers api body) := by
  rw [outboundMembers]
  split
  next =>
    exact (clientToolsOnly_forceUsage (own_narrowBy api _ _ own).1.nodup).mpr
      (clientToolsOnly_without api body)
  next => exact clientToolsOnly_without api body

namespace Returned

variable {api : ProviderApiKind} {raw : JsString} {result : ParsedRequestBody}
  {body stripped : JsMembers Number}

theorem isBody (returned : Returned numbers api raw result body stripped) :
    readBody numbers .last raw = body :=
  readBody_eq returned.read

theorem own (returned : Returned numbers api raw result body stripped) : Own (.obj body) :=
  JsValue.own_parseText returned.read

theorem narrowed (returned : Returned numbers api raw result body stripped) :
    stripped = narrowBy api (letsTool numbers api) (letsBlock numbers api) body :=
  (stripProviderServerTools_spec returned.own returned.strips).1

theorem nothing (returned : Returned numbers api raw result body stripped) :
    strippedAny result.stripped = false ↔ NothingListed numbers api body ∧ NoParams api body := by
  obtain ⟨_, noTools, noParams⟩ := stripProviderServerTools_spec returned.own returned.strips
  rw [strippedAny_false_iff, noTools, noParams]

theorem isAnew (returned : Returned numbers api raw result body stripped) :
    (strippedAny result.stripped = true ∨ isForced api (readBody numbers .last raw) = true) ↔
      IsRewritten numbers api raw := by
  rw [IsRewritten, returned.isBody, ← returned.nothing, Bool.not_eq_false, or_comm]

/-- What is written of a body that is written anew. -/
def outgoing (api : ProviderApiKind) (body stripped : JsMembers Number) : JsMembers Number :=
  if isForced api body then forceUsage stripped else stripped

theorem own_outgoing (returned : Returned numbers api raw result body stripped) :
    Own (.obj (outgoing api body stripped)) := by
  have ownStripped : Own (.obj stripped) := returned.narrowed ▸ own_narrowBy api _ _ returned.own
  unfold outgoing
  split
  next => exact own_forceUsage ownStripped
  next => exact ownStripped

theorem clientToolsOnly_outgoing (returned : Returned numbers api raw result body stripped) :
    ClientToolsOnly api (outgoing api body stripped) ↔ ClientToolsOnly api stripped := by
  have ownStripped : Own (.obj stripped) := returned.narrowed ▸ own_narrowBy api _ _ returned.own
  unfold outgoing
  split
  next => exact clientToolsOnly_forceUsage ownStripped.1.nodup
  next => exact Iff.rfl

theorem outgoing_eq (returned : Returned numbers api raw result body stripped)
    (none : NoneConverted numbers api body) :
    outgoing api body stripped = outboundMembers api body := by
  rw [outgoing, outboundMembers, returned.narrowed, narrowed_eq returned.own none]

theorem written (returned : Returned numbers api raw result body stripped)
    (rewrites : IsRewritten numbers api raw) :
    result.outboundBody = JsValue.stringifyValue numbers (.obj (outgoing api body stripped)) := by
  rw [returned.outbound, outgoing]
  cases forced : isForced api body with
  | true => rfl
  | false =>
      have strippedSome : strippedAny result.stripped = true := by
        rw [IsRewritten, returned.isBody, forced] at rewrites
        have some := rewrites.resolve_left Bool.false_ne_true
        rw [← returned.nothing, Bool.not_eq_false] at some
        exact some
      rw [strippedSome]
      rfl

/-- Both readers find the narrowed body, written and read again. -/
theorem leaves_rewritten (returned : Returned numbers api raw result body stripped)
    (rewrites : IsRewritten numbers api raw) :
    NoServerToolLeaves numbers api raw result ↔ Harmless numbers api raw := by
  have isBody := returned.isBody
  have readBack (keeps : DuplicateKeys) : parseText numbers keeps result.outboundBody =
      some (.obj (rewrittenMembers numbers (outgoing api body stripped))) := by
    rw [returned.written rewrites]
    exact JsValue.parseText_stringifyValue keeps returned.own_outgoing
  have finiteIff : rewrittenMembers numbers (outgoing api body stripped) =
      outgoing api body stripped ↔
        ∀ number ∈ JsValue.numbersOf (.obj (outgoing api body stripped)),
          (numbers.write number).isSome = true :=
    JsValue.rewrittenMembers_eq_iff _
  constructor
  · intro leaves
    have only := leaves.clientToolsOnly .last
    rw [readBody_eq (readBack .last), clientToolsOnly_rewritten,
      returned.clientToolsOnly_outgoing] at only
    have entries := only.entries
    rw [returned.narrowed, forEntries_narrowBy] at entries
    have none : NoneConverted numbers api body :=
      forEntries_imp (fun tool => (letsTool_client_iff api tool).mp)
        (fun block => (letsBlock_client_iff api block).mp) entries
    have unchanged := (leaves.unchanged (returned.isAnew.mpr rewrites)).2 .last
    have ownOutbound : Own (.obj (outboundAsWritten numbers api raw)) := by
      rw [← unchanged, readBody_eq (readBack .last)]
      exact JsValue.own_parseText (readBack .last)
    have isOutgoing : outboundAsWritten numbers api raw = outgoing api body stripped := by
      rw [← outboundMembers_asWritten ownOutbound, isBody, returned.outgoing_eq none]
    rw [readBody_eq (readBack .last), isOutgoing] at unchanged
    constructor
    · exact isBody ▸ none
    · exact fun _ => ownOutbound
    · intro _
      rw [isOutgoing]
      exact finiteIff.mp unchanged
    · exact fun notRewritten => absurd rewrites notRewritten
  · intro harmless
    have none : NoneConverted numbers api body := isBody ▸ harmless.noneConverted
    have asWritten := outboundMembers_asWritten (harmless.ownOrder rewrites)
    have finite := harmless.finite rewrites
    rw [← asWritten, isBody, ← returned.outgoing_eq none, ← finiteIff] at finite
    have isOutbound (keeps : DuplicateKeys) :
        readBody numbers keeps result.outboundBody = outboundMembers api body := by
      rw [readBody_eq (readBack keeps), finite, returned.outgoing_eq none]
    have only : ClientToolsOnly api (outboundMembers api body) :=
      clientToolsOnly_outbound returned.own
    constructor
    · intro keeps
      exact parseText_object (readBack .last)
    · intro keeps
      rw [isOutbound keeps]
      exact only
    · intro _
      rw [← asWritten, isBody]
      refine ⟨?_, isOutbound⟩
      rw [returned.written rewrites, asWrittenBody_stringifyValue, finite,
        returned.outgoing_eq none]
    · rw [isOutbound .last]
      exact stripProviderServerTools_still (nothingListed_of_client only) only.noParams
    · intro strippedNone notForced
      rw [isBody] at notForced
      rw [returned.outbound, notForced, strippedNone]
      rfl

/-- Both readers find the body as it came. -/
theorem leaves_forwarded (returned : Returned numbers api raw result body stripped)
    (forwards : ¬IsRewritten numbers api raw) :
    NoServerToolLeaves numbers api raw result ↔ Harmless numbers api raw := by
  have isBody := returned.isBody
  have notForced : isForced api body = false := by
    rw [IsRewritten, isBody, not_or, Bool.not_eq_true] at forwards
    exact forwards.1
  have still : NothingListed numbers api body ∧ NoParams api body := by
    rw [IsRewritten, isBody, not_or] at forwards
    exact Classical.not_not.mp forwards.2
  have isRaw : result.outboundBody = raw := by
    rw [returned.outbound, notForced, returned.nothing.mpr still]
    rfl
  constructor
  · intro leaves
    have only := leaves.clientToolsOnly
    rw [isRaw] at only
    constructor
    · exact forEntries_imp (fun tool => not_convertedTool_of_client)
        (fun block => not_convertedBlock_of_client) (only .last).entries
    · exact fun isRewritten => absurd isRewritten forwards
    · exact fun isRewritten => absurd isRewritten forwards
    · exact fun _ => only .first
  · intro harmless
    have none : NoneConverted numbers api body := isBody ▸ harmless.noneConverted
    have same : outboundMembers api body = body := by
      have leftAlone := stripProviderServerTools_still still.1 still.2
      have asNarrowed := (stripProviderServerTools_spec returned.own leftAlone).1
      rw [outboundMembers, notForced, if_neg Bool.false_ne_true, ← narrowed_eq returned.own none,
        ← asNarrowed]
    have only : ClientToolsOnly api body := by
      have outboundOnly := @clientToolsOnly_outbound Number api body returned.own
      rwa [same] at outboundOnly
    constructor
    · intro keeps
      rw [isRaw]
      exact parseText_object returned.read
    · intro keeps
      rw [isRaw]
      cases keeps with
      | first => exact harmless.asItCame forwards
      | last => exact isBody ▸ only
    · exact fun anew => absurd (returned.isAnew.mp anew) forwards
    · rw [isRaw, isBody]
      exact stripProviderServerTools_still still.1 still.2
    · exact fun _ _ => isRaw

end Returned

end

/-! ### Bodies it narrows, and bodies it lets through -/

/-- Numbers that are their texts. -/
def textNumbers : JsNumbers JsonText.NumberText where
  read text := text
  string text := text.1
  write text := some text
  read_write written := (Option.some.inj written).symm

/-- What is returned of a body of model `m` from which one web search was taken out. -/
def searchTakenOut (outboundBody : JsString) : ParsedRequestBody where
  outboundBody := outboundBody
  modelId := js "m"
  stripped := { strippedTools := [js "web_search"], strippedParams := [] }

/-- A type in brackets is converted to the type of a function. -/
def bracketedBody : JsString :=
  js "\x7b\"model\":\"m\",\"tools\":[\x7b\"type\":[\"function\"]\x7d]\x7d"

/-- A reader that keeps the first `tools` finds a tool of the provider. -/
def repeatedBody : JsString :=
  js "\x7b\"model\":\"m\",\"tools\":[\x7b\"type\":\"web_search\"\x7d],\"tools\":[]\x7d"

/-- Written anew, one of two limits is gone. -/
def limitsBody : JsString :=
  js "\x7b\"model\":\"m\",\"tools\":[\x7b\"type\":\"web_search\"\x7d]," ++
    js "\"max_tokens\":1,\"max_tokens\":2\x7d"

/-- Written anew, its token ids change places. -/
def biasedBody : JsString :=
  js "\x7b\"model\":\"m\",\"tools\":[\x7b\"type\":\"web_search\"\x7d]," ++
    js "\"logit_bias\":\x7b\"50256\":1,\"11\":2\x7d\x7d"

def forwarded (raw : JsString) : ParsedRequestBody where
  outboundBody := raw
  modelId := js "m"
  stripped := { strippedTools := [], strippedParams := [] }

/-- The request returns, and its body does not leave as it should. -/
def Leaves (raw : JsString) (result : ParsedRequestBody) : Prop :=
  parseAndMaybeMutateBody textNumbers .openaiCompletions raw = .ok result ∧
    ¬ NoServerToolLeaves textNumbers .openaiCompletions raw result

/-- The keys of the object under a key, in their order. -/
def keysUnder (key : JsString) (body : JsMembers JsonText.NumberText) : List JsString :=
  JsValue.keys (((body.lookup key).bind isRecord).getD [])

end NextTime.LlmProxy.Outbound
