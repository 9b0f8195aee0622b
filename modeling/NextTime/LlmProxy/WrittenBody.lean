import NextTime.LlmProxy.NarrowedBody
import NextTime.Library.JsWritten

/-
A body member by member as its text has it, a repeated key as often as it is written, and
what is left of it that way. Where nothing that is left stands twice or out of order, the
proxy leaves the same of the body it has parsed.
-/

namespace NextTime.LlmProxy.Outbound

open JsString (js)
open OwnProperties (assign)
open JsValue (Own Proper Earlier keys kept keptItems keptMembers collapse)

section
variable {Number : Type}

/-! ### Narrowing and reading -/

/-- What is left of the value of one member. -/
def narrowValue (api : ProviderApiKind) (tool block : JsValue Number → Bool) (key : JsString)
    (value : JsValue Number) : JsValue Number :=
  let tools := if key = js "tools" then onList (List.filter tool) value else value
  match api with
  | .openaiCompletions =>
      if key = js "messages" then
        onList (List.map (onRecord (mapList (js "tools") (List.filter tool)))) tools
      else tools
  | .openaiResponses =>
      if key = js "input" then
        onList (List.map (onRecord (mapList (js "tools") (List.filter tool)))) tools
      else tools
  | .anthropicMessages =>
      let system := if key = js "system" then onList (List.filter block) tools else tools
      if key = js "messages" then
        onList (List.map (onRecord (mapList (js "content") (List.filter block)))) system
      else system

theorem narrowBy_eq (api : ProviderApiKind) (tool block : JsValue Number → Bool)
    (body : JsMembers Number) :
    narrowBy api tool block body =
      (body.map fun member => (member.1, narrowValue api tool block member.1 member.2)).filter
        fun member => decide (member.1 ∉ SERVER_TOOL_PARAMS api) := by
  cases api with
  | openaiCompletions =>
      rw [narrowBy, narrowConversation, mapList, mapList, List.map_map]
      rfl
  | openaiResponses =>
      rw [narrowBy, narrowConversation, mapList, mapList, List.map_map]
      rfl
  | anthropicMessages =>
      rw [narrowBy, narrowConversation, mapList, mapList, mapList, List.map_map, List.map_map]
      rfl

theorem keptItems_filter (keep : JsValue Number → Bool) (items : List (JsValue Number)) :
    keptItems .last (items.filter fun item => keep (kept .last item)) =
      (keptItems .last items).filter keep := by
  rw [JsValue.keptItems_map, JsValue.keptItems_map, List.filter_map]
  rfl

theorem kept_onList {written read : List (JsValue Number) → List (JsValue Number)}
    (same : ∀ items, keptItems .last (written items) = read (keptItems .last items))
    (value : JsValue Number) :
    kept .last (onList written value) = onList read (kept .last value) := by
  cases value with
  | arr items => exact congrArg JsValue.arr (same items)
  | null => rfl
  | bool value => rfl
  | num number => rfl
  | str text => rfl
  | obj members => rfl

theorem kept_onKey {key held : JsString}
    {written read : List (JsValue Number) → List (JsValue Number)}
    (same : ∀ items, keptItems .last (written items) = read (keptItems .last items))
    (value : JsValue Number) :
    kept .last (if held = key then onList written value else value) =
      if held = key then onList read (kept .last value) else kept .last value := by
  split
  next => exact kept_onList same value
  next => rfl

theorem collapse_mapList {key : JsString}
    {written read : List (JsValue Number) → List (JsValue Number)}
    (same : ∀ items, keptItems .last (written items) = read (keptItems .last items))
    (members : JsMembers Number) :
    collapse .last (keptMembers .last (mapList key written members)) =
      mapList key read (collapse .last (keptMembers .last members)) := by
  have valueByValue : keptMembers .last (mapList key written members) =
      (keptMembers .last members).map fun member =>
        (member.1, if member.1 = key then onList read member.2 else member.2) := by
    rw [JsValue.keptMembers_map, JsValue.keptMembers_map, mapList, List.map_map, List.map_map]
    apply List.map_congr_left
    intro member _
    exact congrArg (Prod.mk member.1) (kept_onKey same member.2)
  rw [valueByValue]
  exact JsValue.collapse_mapValues
    (fun held value => if held = key then onList read value else value) (keptMembers .last members)

theorem keptItems_onRecord {written read : JsMembers Number → JsMembers Number}
    (same : ∀ members, collapse .last (keptMembers .last (written members)) =
      read (collapse .last (keptMembers .last members))) (items : List (JsValue Number)) :
    keptItems .last (items.map (onRecord written)) =
      (keptItems .last items).map (onRecord read) := by
  rw [JsValue.keptItems_map, JsValue.keptItems_map, List.map_map, List.map_map]
  apply List.map_congr_left
  intro item _
  cases item with
  | obj members => exact congrArg JsValue.obj (same members)
  | null => rfl
  | bool value => rfl
  | num number => rfl
  | str text => rfl
  | arr items => rfl

/-- A value narrowed as it is written and then read is the value read and then narrowed. -/
theorem kept_narrowValue (api : ProviderApiKind) (tool block : JsValue Number → Bool)
    (key : JsString) (value : JsValue Number) :
    kept .last (narrowValue api (fun entry => tool (kept .last entry))
        (fun entry => block (kept .last entry)) key value) =
      narrowValue api tool block key (kept .last value) := by
  have tools := keptItems_filter tool
  have blocks := keptItems_filter block
  have records {inner : JsString} {keep : JsValue Number → Bool} :=
    keptItems_onRecord (@collapse_mapList Number inner _ _ (keptItems_filter keep))
  cases api with
  | openaiCompletions =>
      simp only [narrowValue]
      rw [kept_onKey records, kept_onKey tools]
  | openaiResponses =>
      simp only [narrowValue]
      rw [kept_onKey records, kept_onKey tools]
  | anthropicMessages =>
      simp only [narrowValue]
      rw [kept_onKey records, kept_onKey blocks, kept_onKey tools]

theorem proper_keptMembers {members : JsMembers Number} (proper : Proper members) :
    Proper (keptMembers .last members) := by
  rw [JsValue.keptMembers_map]
  exact proper.mapValues fun _ => kept .last

/-- Where what is left of a body stands once and in order, the body read first leaves the
same. -/
theorem narrowBy_collapse {api : ProviderApiKind} {tool block : JsValue Number → Bool}
    {body : JsMembers Number}
    (proper : Proper (narrowBy api (fun entry => tool (kept .last entry))
      (fun entry => block (kept .last entry)) body)) :
    narrowBy api tool block (collapse .last (keptMembers .last body)) =
      keptMembers .last (narrowBy api (fun entry => tool (kept .last entry))
        (fun entry => block (kept .last entry)) body) := by
  have valueByValue : keptMembers .last (narrowBy api (fun entry => tool (kept .last entry))
        (fun entry => block (kept .last entry)) body) =
      ((keptMembers .last body).map fun member =>
        (member.1, narrowValue api tool block member.1 member.2)).filter
          fun member => decide (member.1 ∉ SERVER_TOOL_PARAMS api) := by
    rw [narrowBy_eq, JsValue.keptMembers_map, JsValue.keptMembers_map, List.map_map,
      List.filter_map, List.filter_map, List.map_map]
    apply List.map_congr_left
    intro member _
    exact congrArg (Prod.mk member.1) (kept_narrowValue api tool block member.1 member.2)
  have read := proper_keptMembers proper
  rw [valueByValue] at read ⊢
  rw [narrowBy_eq, ← JsValue.collapse_mapValues (narrowValue api tool block)]
  exact @JsValue.collapse_filterKeys _ (fun key => decide (key ∉ SERVER_TOOL_PARAMS api)) _ read

/-! ### Usage reporting -/

/-- `stream_options.include_usage = true`, in place or at the end. -/
def requestUsage (members : JsMembers Number) : JsMembers Number :=
  let options := spread (members.lookup (js "stream_options"))
  assign (js "stream_options") (.obj (assign (js "include_usage") (.bool true) options)) members

theorem pairwise_keys {members : JsMembers Number} :
    members.Pairwise Earlier ↔
      (keys members).Pairwise fun first second => JsValue.rank first ≤ JsValue.rank second := by
  rw [keys, List.pairwise_map]
  exact Iff.rfl

theorem proper_of_assign {key : JsString} {value : JsValue Number} {members : JsMembers Number}
    (proper : Proper (assign key value members)) : Proper members := by
  have nodup := proper.nodup
  have ordered := pairwise_keys.mp proper.ordered
  rw [JsValue.keys_assign] at nodup ordered
  split at nodup
  next held =>
    rw [if_pos held] at ordered
    exact ⟨nodup, pairwise_keys.mpr ordered⟩
  next fresh =>
    rw [if_neg fresh] at ordered
    exact ⟨(List.nodup_append.mp nodup).1, pairwise_keys.mpr (List.pairwise_append.mp ordered).1⟩

/-- Putting a member into members that were read, where the outcome is in order as written. -/
theorem put_kept {key : JsString} {value : JsValue Number} {members : JsMembers Number}
    (own : Own (.obj (assign key value members))) :
    put key value (keptMembers .last members) = assign key value members := by
  have isValue : Own value :=
    JsValue.ownMembers_iff.mp own.2 _
      (JsValue.mem_of_lookup (JsValue.lookup_assign_same key value members))
  have read := JsValue.keptMembers_of_own .last _ own.2
  rw [JsValue.keptMembers_assign, JsValue.kept_of_own .last value isValue] at read
  rw [put, read]
  exact List.Pairwise.insertionSort_eq own.1.ordered

theorem spread_kept {value : Option (JsValue Number)} (proper : Proper (spread value)) :
    spread (value.map (kept .last)) = keptMembers .last (spread value) := by
  cases value with
  | none => rfl
  | some value =>
      cases value with
      | obj members => exact JsValue.collapse_proper .last (proper_keptMembers proper)
      | arr items =>
          have indexed : ((keptItems .last items).zipIdx.map fun item =>
                (js (toString item.2), item.1)) =
              ((items.zipIdx.map fun item => (js (toString item.2), item.1)).map fun member =>
                (member.1, kept .last member.2)) := by
            rw [JsValue.keptItems_map, List.zipIdx_map, List.map_map, List.map_map]
            rfl
          rw [Option.map_some, kept, spread, spread, indexed, JsValue.keptMembers_map]
          exact JsValue.collapse_mapValues (fun _ => kept .last) _
      | null => rfl
      | bool value => rfl
      | num number => rfl
      | str text => rfl

/-- Where the body asks for usage in order as written, the body read first asks the same. -/
theorem forceUsage_kept {members : JsMembers Number} (own : Own (.obj (requestUsage members))) :
    forceUsage (keptMembers .last members) = requestUsage members := by
  have options : Own (.obj (assign (js "include_usage") (.bool true)
      (spread (members.lookup (js "stream_options"))))) :=
    JsValue.ownMembers_iff.mp own.2 _
      (JsValue.mem_of_lookup (JsValue.lookup_assign_same _ _ members))
  rw [forceUsage, JsValue.lookup_keptMembers, spread_kept (proper_of_assign options.1),
    put_kept options]
  exact put_kept own

end

end NextTime.LlmProxy.Outbound
