import NextTime.LlmProxy.OutboundPolicy

/-
The body that is left of a request, member by member: every list of tools filtered by a
test of its entries, the parameters of provider-side tools taken out, and everything else
in its place. The filters of the proxy are this with the test they make.
-/

namespace NextTime.LlmProxy.Outbound

open JsString (js)
open OwnProperties (assign without)
open JsValue (Own OwnItems OwnMembers Proper keys)

section
variable {Number : Type}

/-! ### Lists on members -/

def onList (change : List (JsValue Number) → List (JsValue Number)) : JsValue Number → JsValue Number
  | .arr items => .arr (change items)
  | value => value

def onRecord (change : JsMembers Number → JsMembers Number) : JsValue Number → JsValue Number
  | .obj members => .obj (change members)
  | value => value

/-- The list under one key changed, every member in its place. -/
def mapList (key : JsString) (change : List (JsValue Number) → List (JsValue Number))
    (members : JsMembers Number) : JsMembers Number :=
  members.map fun member => (member.1, if member.1 = key then onList change member.2 else member.2)

def listAt (key : JsString) (members : JsMembers Number) : List (JsValue Number) :=
  match members.lookup key with
  | some (.arr items) => items
  | _ => []

theorem listAt_list {key : JsString} {members : JsMembers Number}
    {items : List (JsValue Number)} (held : members.lookup key = some (.arr items)) :
    listAt key members = items := by
  rw [listAt, held]

theorem listAt_nil {key : JsString} {members : JsMembers Number}
    (notList : ∀ items, members.lookup key ≠ some (.arr items)) : listAt key members = [] := by
  rw [listAt]
  split
  next items held => exact absurd held (notList items)
  next => rfl

def recordsAt (key : JsString) (members : JsMembers Number) : List (JsMembers Number) :=
  (listAt key members).filterMap isRecord

theorem lookup_mapValues {Value : Type} (change : JsString → Value → Value) (key : JsString)
    (members : List (JsString × Value)) :
    (members.map fun member => (member.1, change member.1 member.2)).lookup key =
      (members.lookup key).map (change key) := by
  induction members with
  | nil => rfl
  | cons member members ih =>
      rw [List.map_cons, List.lookup_cons, List.lookup_cons]
      by_cases same : key = member.1
      · rw [same, beq_self_eq_true]
        rfl
      · rw [beq_false_of_ne same]
        exact ih

theorem lookup_mapList (key other : JsString)
    (change : List (JsValue Number) → List (JsValue Number)) (members : JsMembers Number) :
    (mapList key change members).lookup other =
      (members.lookup other).map fun value => if other = key then onList change value else value :=
  lookup_mapValues (fun held value => if held = key then onList change value else value) other
    members

theorem listAt_mapList_self (key : JsString)
    {change : List (JsValue Number) → List (JsValue Number)} (nothing : change [] = [])
    (members : JsMembers Number) :
    listAt key (mapList key change members) = change (listAt key members) := by
  rw [listAt, lookup_mapList, listAt]
  cases members.lookup key with
  | none => exact nothing.symm
  | some value =>
      rw [Option.map_some, if_pos rfl]
      cases value with
      | arr items => rfl
      | null => exact nothing.symm
      | bool value => exact nothing.symm
      | num number => exact nothing.symm
      | str text => exact nothing.symm
      | obj members => exact nothing.symm

theorem listAt_mapList_of_ne {key other : JsString} (different : other ≠ key)
    (change : List (JsValue Number) → List (JsValue Number)) (members : JsMembers Number) :
    listAt other (mapList key change members) = listAt other members := by
  rw [listAt, lookup_mapList, listAt]
  cases members.lookup other with
  | none => rfl
  | some value => rw [Option.map_some, if_neg different]

theorem recordsAt_mapList_of_ne {key other : JsString} (different : other ≠ key)
    (change : List (JsValue Number) → List (JsValue Number)) (members : JsMembers Number) :
    recordsAt other (mapList key change members) = recordsAt other members := by
  rw [recordsAt, listAt_mapList_of_ne different, recordsAt]

theorem mapList_same {key : JsString}
    {change : List (JsValue Number) → List (JsValue Number)} {members : JsMembers Number}
    (same : ∀ member ∈ members, member.1 = key → onList change member.2 = member.2) :
    mapList key change members = members := by
  rw [mapList]
  calc members.map (fun member => (member.1,
          if member.1 = key then onList change member.2 else member.2))
      = members.map id := by
        apply List.map_congr_left
        intro member isIn
        by_cases isKey : member.1 = key
        · rw [if_pos isKey, same member isIn isKey]
          rfl
        · rw [if_neg isKey]
          rfl
    _ = members := List.map_id members

/-- Where a key is held once, an assignment to it is a change in its place. -/
theorem assign_held {key : JsString} {items : List (JsValue Number)}
    {change : List (JsValue Number) → List (JsValue Number)} {members : JsMembers Number}
    (nodup : (keys members).Nodup) (held : members.lookup key = some (.arr items)) :
    assign key (.arr (change items)) members = mapList key change members := by
  induction members with
  | nil => cases held
  | cons member members ih =>
      obtain ⟨name, value⟩ := member
      rw [JsValue.keys_cons, List.nodup_cons] at nodup
      rw [List.lookup_cons] at held
      rw [assign, mapList, List.map_cons, ← mapList]
      by_cases same : name = key
      · rw [same, beq_self_eq_true] at held
        rw [if_pos same, if_pos same, Option.some.inj held, same]
        have others : mapList key change members = members := by
          apply mapList_same
          intro other isOther isKey
          have isName : other.1 = name := isKey.trans same.symm
          have held : other.1 ∈ keys members := List.mem_map_of_mem isOther
          exact absurd (isName ▸ held) nodup.1
        rw [others]
        rfl
      · rw [beq_false_of_ne (Ne.symm same)] at held
        rw [if_neg same, if_neg same, ih nodup.2 held]

theorem mapList_congr {key : JsString} {change other : List (JsValue Number) → List (JsValue Number)}
    {members : JsMembers Number} (nodup : (keys members).Nodup)
    (same : change (listAt key members) = other (listAt key members)) :
    mapList key change members = mapList key other members := by
  apply List.map_congr_left
  intro member isIn
  by_cases isKey : member.1 = key
  · have held := JsValue.lookup_of_mem nodup isIn
    rw [isKey] at held
    rw [if_pos isKey, if_pos isKey]
    rw [listAt, held] at same
    cases value : member.2 with
    | arr items =>
        rw [value] at same
        exact congrArg (fun items => (member.1, JsValue.arr items)) same
    | null => rfl
    | bool value => rfl
    | num number => rfl
    | str text => rfl
    | obj members => rfl
  · rw [if_neg isKey, if_neg isKey]

/-- Assigning the value that is held changes nothing. -/
theorem assign_same {key : JsString} {value : JsValue Number} {members : JsMembers Number}
    (held : members.lookup key = some value) : assign key value members = members := by
  induction members with
  | nil => cases held
  | cons member members ih =>
      obtain ⟨name, other⟩ := member
      rw [List.lookup_cons] at held
      rw [assign]
      by_cases same : name = key
      · rw [same, beq_self_eq_true] at held
        rw [if_pos same, same, Option.some.inj held]
      · rw [beq_false_of_ne (Ne.symm same)] at held
        rw [if_neg same, ih held]

/-! ### Filters -/

/-- What an edit of a list makes of it, and when it removes nothing. -/
structure ListEdit
    (edit : List (JsValue Number) → Option (List (JsValue Number) × List JsString))
    (change : List (JsValue Number) → List (JsValue Number))
    (quiet : List (JsValue Number) → Prop) : Prop where
  edited : ∀ {items edited removed}, OwnItems items → edit items = some (edited, removed) →
    edited = change items ∧ (removed = [] ↔ quiet items)
  still : ∀ {items}, quiet items → edit items = some (items, [])
  quiet_nil : quiet []

/-- What an edit of an object makes of it, and when it removes nothing. -/
structure MemberEdit
    (edit : JsMembers Number → Option (JsMembers Number × List JsString))
    (change : JsMembers Number → JsMembers Number) (quiet : JsMembers Number → Prop) : Prop where
  edited : ∀ {members edited removed}, Own (.obj members) → edit members = some (edited, removed) →
    edited = change members ∧ (removed = [] ↔ quiet members)
  still : ∀ {members}, quiet members → edit members = some (members, [])

/-- An entry that the test lets through. -/
def letsThrough (judge : JsValue Number → Option Verdict) (item : JsValue Number) : Bool :=
  decide (judge item = some .kept)

theorem listEdit_partition (judge : JsValue Number → Option Verdict) :
    ListEdit (partition judge) (List.filter (letsThrough judge))
      (fun items => ∀ item ∈ items, judge item = some .kept) where
  edited := by
    intro items edited removed own isEdited
    clear own
    induction items generalizing edited removed with
    | nil =>
        cases isEdited
        exact ⟨rfl, iff_of_true rfl fun _ member => nomatch member⟩
    | cons item items ih =>
        rw [partition] at isEdited
        split at isEdited
        next kept later removedLater isKept isLater =>
          cases isEdited
          obtain ⟨filtered, nothing⟩ := ih isLater
          rw [List.filter_cons, letsThrough, isKept, decide_eq_true rfl, if_pos rfl, filtered,
            List.forall_mem_cons, nothing]
          exact ⟨rfl, (and_iff_right isKept).symm⟩
        next label later removedLater isRemoved isLater =>
          cases isEdited
          obtain ⟨filtered, _⟩ := ih isLater
          have notKept : judge item ≠ some .kept := by
            rw [isRemoved]
            exact fun same => nomatch Option.some.inj same
          rw [List.filter_cons, letsThrough, decide_eq_false notKept, if_neg Bool.false_ne_true,
            filtered, List.forall_mem_cons]
          exact ⟨rfl, iff_of_false (List.cons_ne_nil _ _) fun all => notKept all.1⟩
        next => cases isEdited
  still := by
    intro items kept
    induction items with
    | nil => rfl
    | cons item items ih =>
        rw [List.forall_mem_cons] at kept
        rw [partition, kept.1, ih kept.2]
  quiet_nil := fun _ member => nomatch member

theorem memberEdit_list {key : JsString}
    {edit : List (JsValue Number) → Option (List (JsValue Number) × List JsString)}
    {change : List (JsValue Number) → List (JsValue Number)}
    {quiet : List (JsValue Number) → Prop} (edits : ListEdit edit change quiet) :
    MemberEdit (editList key edit) (mapList key change) (fun members => quiet (listAt key members))
    where
  edited := by
    intro members edited removed own isEdited
    rw [editList] at isEdited
    split at isEdited
    next items held =>
      obtain ⟨result, isResult, isPair⟩ := Option.map_eq_some_iff.mp isEdited
      cases isPair
      have ownItems : OwnItems items := by
        exact JsValue.ownMembers_iff.mp own.2 _ (JsValue.mem_of_lookup held)
      obtain ⟨changed, nothing⟩ := edits.edited ownItems isResult
      rw [changed, assign_held own.1.nodup held, listAt_list held]
      exact ⟨rfl, nothing⟩
    next notList =>
      cases isEdited
      have same : mapList key change members = members := by
        apply mapList_same
        intro member isIn isKey
        have held := JsValue.lookup_of_mem own.1.nodup isIn
        rw [isKey] at held
        cases value : member.2 with
        | arr items => exact absurd (held.trans (congrArg some value)) (notList items)
        | null => rfl
        | bool value => rfl
        | num number => rfl
        | str text => rfl
        | obj members => rfl
      rw [same, listAt_nil notList]
      exact ⟨rfl, iff_of_true rfl edits.quiet_nil⟩
  still := by
    intro members isQuiet
    rw [editList]
    split
    next items held =>
      rw [listAt_list held] at isQuiet
      rw [edits.still isQuiet, Option.map_some, assign_same held]
    next => rfl

theorem isRecord_some {item : JsValue Number} {members : JsMembers Number}
    (isMembers : isRecord item = some members) : item = .obj members := by
  cases item with
  | obj held => exact congrArg JsValue.obj (Option.some.inj isMembers)
  | null => cases isMembers
  | bool value => cases isMembers
  | num number => cases isMembers
  | str text => cases isMembers
  | arr items => cases isMembers

theorem onRecord_none (change : JsMembers Number → JsMembers Number) {item : JsValue Number}
    (noRecord : isRecord item = none) : onRecord change item = item := by
  cases item with
  | obj held => cases noRecord
  | null => rfl
  | bool value => rfl
  | num number => rfl
  | str text => rfl
  | arr items => rfl

/-- The records of a list edited one by one. -/
theorem listEdit_records
    {edit : JsMembers Number → Option (JsMembers Number × List JsString)}
    {change : JsMembers Number → JsMembers Number} {quiet : JsMembers Number → Prop}
    (edits : MemberEdit edit change quiet) :
    ListEdit (editRecords edit) (List.map (onRecord change))
      (fun items => ∀ members ∈ items.filterMap isRecord, quiet members) where
  edited := by
    intro items edited removed own isEdited
    induction items generalizing edited removed with
    | nil =>
        cases isEdited
        exact ⟨rfl, iff_of_true rfl fun _ member => nomatch member⟩
    | cons item items ih =>
        rw [editRecords] at isEdited
        cases record : isRecord item with
        | none =>
            rw [record] at isEdited
            cases isLater : editRecords edit items with
            | none =>
                rw [isLater] at isEdited
                cases isEdited
            | some later =>
                rw [isLater] at isEdited
                cases isEdited
                obtain ⟨changed, nothing⟩ := ih own.2 isLater
                rw [List.map_cons, onRecord_none change record, List.nil_append,
                  List.filterMap_cons_none record, changed]
                exact ⟨rfl, nothing⟩
        | some members =>
            rw [record] at isEdited
            dsimp only at isEdited
            cases isFirst : edit members with
            | none =>
                rw [isFirst] at isEdited
                cases isEdited
            | some first =>
                cases isLater : editRecords edit items with
                | none =>
                    rw [isFirst, isLater] at isEdited
                    cases isEdited
                | some later =>
                    rw [isFirst, isLater] at isEdited
                    cases isEdited
                    obtain ⟨changed, nothing⟩ := ih own.2 isLater
                    have isObject := isRecord_some record
                    obtain ⟨changedFirst, nothingFirst⟩ :=
                      edits.edited (isObject ▸ own.1) isFirst
                    rw [List.map_cons, List.filterMap_cons_some record, List.forall_mem_cons,
                      List.append_eq_nil_iff, nothing, nothingFirst, changed, changedFirst,
                      isObject]
                    exact ⟨rfl, Iff.rfl⟩
  still := by
    intro items isQuiet
    induction items with
    | nil => rfl
    | cons item items ih =>
        rw [editRecords]
        cases record : isRecord item with
        | none =>
            rw [List.filterMap_cons_none record] at isQuiet
            rw [ih isQuiet]
            rfl
        | some members =>
            rw [List.filterMap_cons_some record, List.forall_mem_cons] at isQuiet
            rw [ih isQuiet.2]
            dsimp only
            rw [edits.still isQuiet.1, isRecord_some record]
            rfl
  quiet_nil := fun _ member => nomatch member

/-! ### The body narrowed by a test of its entries -/

/-- What holds of every tool entry of a body, and of every content block that may add one. -/
def ForEntries (api : ProviderApiKind) (tool block : JsValue Number → Prop)
    (body : JsMembers Number) : Prop :=
  (∀ entry ∈ listAt (js "tools") body, tool entry) ∧
    match api with
    | .openaiCompletions =>
        ∀ message ∈ recordsAt (js "messages") body, ∀ entry ∈ listAt (js "tools") message, tool entry
    | .openaiResponses =>
        ∀ item ∈ recordsAt (js "input") body, ∀ entry ∈ listAt (js "tools") item, tool entry
    | .anthropicMessages =>
        (∀ entry ∈ listAt (js "system") body, block entry) ∧
          ∀ message ∈ recordsAt (js "messages") body,
            ∀ entry ∈ listAt (js "content") message, block entry

def narrowConversation (api : ProviderApiKind) (tool block : JsValue Number → Bool)
    (body : JsMembers Number) : JsMembers Number :=
  match api with
  | .openaiCompletions =>
      mapList (js "messages") (List.map (onRecord (mapList (js "tools") (List.filter tool)))) body
  | .openaiResponses =>
      mapList (js "input") (List.map (onRecord (mapList (js "tools") (List.filter tool)))) body
  | .anthropicMessages =>
      mapList (js "messages") (List.map (onRecord (mapList (js "content") (List.filter block))))
        (mapList (js "system") (List.filter block) body)

/-- A body with the entries that pass a test, without the parameters of provider-side tools. -/
def narrowBy (api : ProviderApiKind) (tool block : JsValue Number → Bool)
    (body : JsMembers Number) : JsMembers Number :=
  (narrowConversation api tool block (mapList (js "tools") (List.filter tool) body)).filter
    fun member => decide (member.1 ∉ SERVER_TOOL_PARAMS api)

def NoParams (api : ProviderApiKind) (body : JsMembers Number) : Prop :=
  ∀ param ∈ SERVER_TOOL_PARAMS api, body.lookup param = none

variable {numbers : JsNumbers Number}

theorem memberEdit_tools (allowed : List (Option JsString)) (key : JsString) :
    MemberEdit (filterToolList numbers allowed key)
      (mapList key (List.filter (letsThrough (judgeTool numbers allowed))))
      (fun members => ∀ tool ∈ listAt key members, judgeTool numbers allowed tool = some .kept) :=
  memberEdit_list (listEdit_partition _)

theorem memberEdit_blocks (allowed : List (Option JsString)) (key : JsString) :
    MemberEdit (filterToolAdditionBlocks numbers allowed key)
      (mapList key (List.filter (letsThrough (judgeBlock numbers allowed))))
      (fun members => ∀ block ∈ listAt key members,
        judgeBlock numbers allowed block = some .kept) :=
  memberEdit_list (listEdit_partition _)

theorem memberEdit_records {key : JsString}
    {edit : JsMembers Number → Option (JsMembers Number × List JsString)}
    {change : JsMembers Number → JsMembers Number} {quiet : JsMembers Number → Prop}
    (edits : MemberEdit edit change quiet) :
    MemberEdit (editList key (editRecords edit)) (mapList key (List.map (onRecord change)))
      (fun members => ∀ record ∈ recordsAt key members, quiet record) :=
  memberEdit_list (listEdit_records edits)

theorem ownItems_listAt {key : JsString} {members : JsMembers Number} (own : Own (.obj members)) :
    OwnItems (listAt key members) := by
  rw [listAt]
  split
  next items held => exact JsValue.ownMembers_iff.mp own.2 _ (JsValue.mem_of_lookup held)
  next => trivial

/-- Two tests that agree on the entries of every record change the records alike. -/
theorem mapRecords_congr {key inner : JsString} {keep other : JsValue Number → Bool}
    {members : JsMembers Number} (own : Own (.obj members))
    (same : ∀ record ∈ recordsAt key members,
      (listAt inner record).filter keep = (listAt inner record).filter other) :
    mapList key (List.map (onRecord (mapList inner (List.filter keep)))) members =
      mapList key (List.map (onRecord (mapList inner (List.filter other)))) members := by
  apply mapList_congr own.1.nodup
  apply List.map_congr_left
  intro item isIn
  cases item with
  | obj record =>
      have ownRecord := JsValue.ownItems_iff.mp (ownItems_listAt own) _ isIn
      have isRecord : record ∈ recordsAt key members := List.mem_filterMap.mpr ⟨_, isIn, rfl⟩
      exact congrArg JsValue.obj (mapList_congr ownRecord.1.nodup (same record isRecord))
  | null => rfl
  | bool value => rfl
  | num number => rfl
  | str text => rfl
  | arr items => rfl

/-! ### One filter behind another -/

theorem own_onList {change : List (JsValue Number) → List (JsValue Number)}
    (keeps : ∀ items, OwnItems items → OwnItems (change items)) {value : JsValue Number}
    (own : Own value) : Own (onList change value) := by
  cases value with
  | arr items => exact keeps items own
  | null => trivial
  | bool value => trivial
  | num number => trivial
  | str text => trivial
  | obj members => exact own

theorem own_mapList {key : JsString} {change : List (JsValue Number) → List (JsValue Number)}
    (keeps : ∀ items, OwnItems items → OwnItems (change items)) {members : JsMembers Number}
    (own : Own (.obj members)) : Own (.obj (mapList key change members)) := by
  constructor
  · exact own.1.mapValues fun name value => if name = key then onList change value else value
  · apply JsValue.ownMembers_iff.mpr
    intro member isIn
    obtain ⟨source, isSource, isMember⟩ := List.mem_map.mp isIn
    have ownSource := JsValue.ownMembers_iff.mp own.2 source isSource
    rw [← isMember]
    dsimp only
    split
    next => exact own_onList keeps ownSource
    next => exact ownSource

theorem ownItems_filter (keep : JsValue Number → Bool) {items : List (JsValue Number)}
    (own : OwnItems items) : OwnItems (items.filter keep) :=
  JsValue.ownItems_iff.mpr fun item member =>
    JsValue.ownItems_iff.mp own item (List.mem_of_mem_filter member)

theorem ownItems_onRecord {change : JsMembers Number → JsMembers Number}
    (keeps : ∀ members, Own (.obj members) → Own (.obj (change members)))
    {items : List (JsValue Number)} (own : OwnItems items) :
    OwnItems (items.map (onRecord change)) := by
  apply JsValue.ownItems_iff.mpr
  intro item member
  obtain ⟨source, isSource, isItem⟩ := List.mem_map.mp member
  have ownSource := JsValue.ownItems_iff.mp own source isSource
  rw [← isItem]
  cases source with
  | obj members => exact keeps members ownSource
  | null => trivial
  | bool value => trivial
  | num number => trivial
  | str text => trivial
  | arr items => exact ownSource

theorem own_narrowConversation (api : ProviderApiKind) (tool block : JsValue Number → Bool)
    {body : JsMembers Number} (own : Own (.obj body)) :
    Own (.obj (narrowConversation api tool block body)) := by
  have filters (keep : JsValue Number → Bool) (key : JsString) {members : JsMembers Number}
      (ownMembers : Own (.obj members)) :
      Own (.obj (mapList key (List.filter keep) members)) :=
    own_mapList (fun _ => ownItems_filter keep) ownMembers
  cases api with
  | openaiCompletions =>
      exact own_mapList (fun _ => ownItems_onRecord fun _ => filters tool (js "tools")) own
  | openaiResponses =>
      exact own_mapList (fun _ => ownItems_onRecord fun _ => filters tool (js "tools")) own
  | anthropicMessages =>
      exact own_mapList (fun _ => ownItems_onRecord fun _ => filters block (js "content"))
        (filters block (js "system") own)

theorem own_narrowBy (api : ProviderApiKind) (tool block : JsValue Number → Bool)
    {body : JsMembers Number} (own : Own (.obj body)) :
    Own (.obj (narrowBy api tool block body)) := by
  have narrowed := own_narrowConversation api tool block
    (@own_mapList Number (js "tools") _ (fun _ => ownItems_filter tool) body own)
  constructor
  · constructor
    · exact narrowed.1.nodup.sublist (List.filter_sublist.map Prod.fst)
    · exact narrowed.1.ordered.sublist List.filter_sublist
  · exact JsValue.ownMembers_iff.mpr fun member isIn =>
      JsValue.ownMembers_iff.mp narrowed.2 member (List.mem_of_mem_filter isIn)

/-- One edit behind another, with what both removed. -/
def editThen (first second : JsMembers Number → Option (JsMembers Number × List JsString))
    (members : JsMembers Number) : Option (JsMembers Number × List JsString) :=
  match first members with
  | none => none
  | some (members, removed) =>
      (second members).map fun edited => (edited.1, removed ++ edited.2)

theorem memberEdit_then
    {first second : JsMembers Number → Option (JsMembers Number × List JsString)}
    {changeFirst changeSecond : JsMembers Number → JsMembers Number}
    {quietFirst quietSecond : JsMembers Number → Prop}
    (editsFirst : MemberEdit first changeFirst quietFirst)
    (editsSecond : MemberEdit second changeSecond quietSecond)
    (keeps : ∀ members, Own (.obj members) → Own (.obj (changeFirst members)))
    (apart : ∀ members, quietSecond (changeFirst members) ↔ quietSecond members) :
    MemberEdit (editThen first second) (fun members => changeSecond (changeFirst members))
      (fun members => quietFirst members ∧ quietSecond members) where
  edited := by
    intro members edited removed own isEdited
    rw [editThen] at isEdited
    split at isEdited
    next => cases isEdited
    next between removedFirst isFirst =>
      obtain ⟨last, isLast, isPair⟩ := Option.map_eq_some_iff.mp isEdited
      cases isPair
      obtain ⟨changed, nothing⟩ := editsFirst.edited own isFirst
      obtain ⟨changedLast, nothingLast⟩ :=
        editsSecond.edited (changed ▸ keeps members own) isLast
      rw [List.append_eq_nil_iff, nothing, nothingLast, changedLast, changed, apart]
      exact ⟨rfl, Iff.rfl⟩
  still := by
    intro members isQuiet
    rw [editThen, editsFirst.still isQuiet.1]
    dsimp only
    rw [editsSecond.still isQuiet.2]
    rfl

/-! ### The filters of the proxy -/

theorem lookup_isSome_mapList (key other : JsString)
    (change : List (JsValue Number) → List (JsValue Number)) (members : JsMembers Number) :
    ((mapList key change members).lookup other).isSome = (members.lookup other).isSome := by
  rw [lookup_mapList, Option.isSome_map]

variable (numbers)

/-- The tests the proxy makes: an entry is let through where its type is, converted, allowed. -/
def letsTool (api : ProviderApiKind) : JsValue Number → Bool :=
  letsThrough (judgeTool numbers (CLIENT_TOOL_TYPES api))

def letsBlock (api : ProviderApiKind) : JsValue Number → Bool :=
  letsThrough (judgeBlock numbers (CLIENT_TOOL_TYPES api))

/-- No filter finds an entry to remove, nor a type it cannot convert. -/
def NothingListed (api : ProviderApiKind) (body : JsMembers Number) : Prop :=
  ForEntries api (fun tool => judgeTool numbers (CLIENT_TOOL_TYPES api) tool = some .kept)
    (fun block => judgeBlock numbers (CLIENT_TOOL_TYPES api) block = some .kept) body

variable {numbers}

/-- The part of `ForEntries` that is about the conversation. -/
def ConversationQuiet (numbers : JsNumbers Number) (api : ProviderApiKind)
    (body : JsMembers Number) : Prop :=
  match api with
  | .openaiCompletions =>
      ∀ message ∈ recordsAt (js "messages") body, ∀ tool ∈ listAt (js "tools") message,
        judgeTool numbers (CLIENT_TOOL_TYPES api) tool = some .kept
  | .openaiResponses =>
      ∀ item ∈ recordsAt (js "input") body, ∀ tool ∈ listAt (js "tools") item,
        judgeTool numbers (CLIENT_TOOL_TYPES api) tool = some .kept
  | .anthropicMessages =>
      (∀ block ∈ listAt (js "system") body,
          judgeBlock numbers (CLIENT_TOOL_TYPES api) block = some .kept) ∧
        ∀ message ∈ recordsAt (js "messages") body, ∀ block ∈ listAt (js "content") message,
          judgeBlock numbers (CLIENT_TOOL_TYPES api) block = some .kept

theorem memberEdit_conversation (api : ProviderApiKind) :
    MemberEdit (filterConversation numbers api)
      (narrowConversation api (letsTool numbers api) (letsBlock numbers api))
      (ConversationQuiet numbers api) := by
  cases api with
  | openaiCompletions => exact memberEdit_records (memberEdit_tools _ _)
  | openaiResponses => exact memberEdit_records (memberEdit_tools _ _)
  | anthropicMessages =>
      have system := @memberEdit_blocks Number numbers (CLIENT_TOOL_TYPES .anthropicMessages)
        (js "system")
      have messages := @memberEdit_records Number (js "messages") _ _ _
        (@memberEdit_blocks Number numbers (CLIENT_TOOL_TYPES .anthropicMessages) (js "content"))
      apply memberEdit_then system messages
      · exact fun _ => own_mapList fun _ => ownItems_filter _
      · intro members
        rw [recordsAt_mapList_of_ne (by decide)]

theorem conversationQuiet_mapList (api : ProviderApiKind)
    (change : List (JsValue Number) → List (JsValue Number)) (body : JsMembers Number) :
    ConversationQuiet numbers api (mapList (js "tools") change body) ↔
      ConversationQuiet numbers api body := by
  cases api with
  | openaiCompletions => rw [ConversationQuiet, recordsAt_mapList_of_ne (by decide)]; rfl
  | openaiResponses => rw [ConversationQuiet, recordsAt_mapList_of_ne (by decide)]; rfl
  | anthropicMessages =>
      rw [ConversationQuiet, recordsAt_mapList_of_ne (by decide),
        listAt_mapList_of_ne (by decide)]
      rfl

/-- The filters of all lists of tools. -/
theorem memberEdit_lists (api : ProviderApiKind) :
    MemberEdit (editThen (filterToolList numbers (CLIENT_TOOL_TYPES api) (js "tools"))
        (filterConversation numbers api))
      (fun body => narrowConversation api (letsTool numbers api) (letsBlock numbers api)
        (mapList (js "tools") (List.filter (letsTool numbers api)) body))
      (NothingListed numbers api) :=
  memberEdit_then (memberEdit_tools _ _) (memberEdit_conversation api)
    (fun _ => own_mapList fun _ => ownItems_filter _) (conversationQuiet_mapList api _)

theorem stripProviderServerTools_lists (api : ProviderApiKind) (body : JsMembers Number) :
    stripProviderServerTools numbers api body =
      (editThen (filterToolList numbers (CLIENT_TOOL_TYPES api) (js "tools"))
        (filterConversation numbers api) body).map fun edited =>
          let strippedParams := (SERVER_TOOL_PARAMS api).filter (hasOwn edited.1)
          (strippedParams.foldl (fun body param => without param body) edited.1,
            { strippedTools := boundForLog edited.2, strippedParams }) := by
  rw [stripProviderServerTools, editThen]
  cases filterToolList numbers (CLIENT_TOOL_TYPES api) (js "tools") body with
  | none => rfl
  | some first =>
      dsimp only
      cases filterConversation numbers api first.1 with
      | none => rfl
      | some second => rfl

theorem foldl_without (params : List JsString) (body : JsMembers Number) :
    params.foldl (fun body param => without param body) body =
      body.filter fun member => decide (member.1 ∉ params) := by
  induction params generalizing body with
  | nil => simp
  | cons param params ih =>
      rw [List.foldl_cons, ih, without, List.filter_filter]
      apply List.filter_congr
      intro member _
      rw [← Bool.decide_and]
      apply decide_eq_decide.mpr
      rw [List.mem_cons, not_or]
      exact And.comm

theorem boundForLog_nil (values : List JsString) : boundForLog values = [] ↔ values = [] := by
  constructor
  · intro nothing
    cases values with
    | nil => rfl
    | cons value values =>
        rw [boundForLog, List.eraseDups_cons, MAX_LOGGED_VALUES, List.take_succ_cons,
          List.map_cons] at nothing
        cases nothing
  · intro nothing
    rw [nothing]
    rfl

theorem hasOwn_narrowed (api : ProviderApiKind) (tool block : JsValue Number → Bool)
    (body : JsMembers Number) (param : JsString) :
    hasOwn (narrowConversation api tool block (mapList (js "tools") (List.filter tool) body))
      param = hasOwn body param := by
  cases api with
  | openaiCompletions =>
      rw [hasOwn, narrowConversation, lookup_isSome_mapList, lookup_isSome_mapList, hasOwn]
  | openaiResponses =>
      rw [hasOwn, narrowConversation, lookup_isSome_mapList, lookup_isSome_mapList, hasOwn]
  | anthropicMessages =>
      rw [hasOwn, narrowConversation, lookup_isSome_mapList, lookup_isSome_mapList,
        lookup_isSome_mapList, hasOwn]

/-- Only the parameters a body holds can be taken out of it. -/
theorem filter_params (api : ProviderApiKind) (body : JsMembers Number) :
    (body.filter fun member =>
        decide (member.1 ∉ (SERVER_TOOL_PARAMS api).filter (hasOwn body))) =
      body.filter fun member => decide (member.1 ∉ SERVER_TOOL_PARAMS api) := by
  apply List.filter_congr
  intro member isIn
  apply decide_eq_decide.mpr
  have held : hasOwn body member.1 = true := by
    rw [hasOwn, Option.isSome_iff_ne_none]
    intro missing
    exact absurd (List.lookup_eq_none_iff.mp missing member isIn) (by simp)
  rw [List.mem_filter, and_iff_left held]

/-- The stripped body, and when nothing was stripped. -/
theorem stripProviderServerTools_spec {api : ProviderApiKind} {body stripped : JsMembers Number}
    {result : ServerToolStripResult} (own : Own (.obj body))
    (strips : stripProviderServerTools numbers api body = some (stripped, result)) :
    stripped = narrowBy api (letsTool numbers api) (letsBlock numbers api) body ∧
      (result.strippedTools = [] ↔ NothingListed numbers api body) ∧
        (result.strippedParams = [] ↔ NoParams api body) := by
  rw [stripProviderServerTools_lists] at strips
  obtain ⟨edited, isEdited, isPair⟩ := Option.map_eq_some_iff.mp strips
  obtain ⟨changed, nothing⟩ := (memberEdit_lists api).edited own isEdited
  cases isPair
  constructor
  · rw [foldl_without, filter_params, changed, narrowBy]
  · constructor
    · rw [boundForLog_nil, nothing]
    · dsimp only
      rw [List.filter_eq_nil_iff, NoParams]
      apply forall₂_congr
      intro param _
      rw [changed, hasOwn_narrowed, hasOwn, Bool.not_eq_true, Option.isSome_eq_false_iff,
        Option.isNone_iff_eq_none]

/-- A body with nothing to strip is left as it is. -/
theorem stripProviderServerTools_still {api : ProviderApiKind} {body : JsMembers Number}
    (nothing : NothingListed numbers api body) (noParams : NoParams api body) :
    stripProviderServerTools numbers api body =
      some (body, { strippedTools := [], strippedParams := [] }) := by
  have noStripped : (SERVER_TOOL_PARAMS api).filter (hasOwn body) = [] := by
    apply List.filter_eq_nil_iff.mpr
    intro param isParam
    rw [hasOwn, noParams param isParam]
    exact Bool.false_ne_true
  rw [stripProviderServerTools_lists, (memberEdit_lists api).still nothing, Option.map_some,
    noStripped]
  rfl

/-! ### What holds of the entries of a narrowed body -/

theorem forEntries_congr {api : ProviderApiKind} {tool otherTool block otherBlock :
      JsValue Number → Prop} {body : JsMembers Number} (sameTool : ∀ entry, tool entry ↔ otherTool entry)
    (sameBlock : ∀ entry, block entry ↔ otherBlock entry) :
    ForEntries api tool block body ↔ ForEntries api otherTool otherBlock body := by
  have isTool : tool = otherTool := funext fun entry => propext (sameTool entry)
  have isBlock : block = otherBlock := funext fun entry => propext (sameBlock entry)
  rw [isTool, isBlock]

theorem forEntries_imp {api : ProviderApiKind} {tool otherTool block otherBlock :
      JsValue Number → Prop} {body : JsMembers Number} (fromTool : ∀ entry, tool entry → otherTool entry)
    (fromBlock : ∀ entry, block entry → otherBlock entry)
    (holds : ForEntries api tool block body) : ForEntries api otherTool otherBlock body := by
  constructor
  · exact fun entry isIn => fromTool entry (holds.1 entry isIn)
  · cases api with
    | openaiCompletions =>
        exact fun message isIn entry isEntry => fromTool entry (holds.2 message isIn entry isEntry)
    | openaiResponses =>
        exact fun item isIn entry isEntry => fromTool entry (holds.2 item isIn entry isEntry)
    | anthropicMessages =>
        exact ⟨fun entry isIn => fromBlock entry (holds.2.1 entry isIn),
          fun message isIn entry isEntry =>
            fromBlock entry (holds.2.2 message isIn entry isEntry)⟩

theorem filterMap_onRecord (change : JsMembers Number → JsMembers Number)
    (items : List (JsValue Number)) :
    (items.map (onRecord change)).filterMap isRecord = (items.filterMap isRecord).map change := by
  induction items with
  | nil => rfl
  | cons item items ih =>
      cases item with
      | obj members =>
          simp only [List.map_cons, onRecord, List.filterMap_cons, isRecord, ih]
      | null => exact ih
      | bool value => exact ih
      | num number => exact ih
      | str text => exact ih
      | arr others => exact ih

theorem forall_mem_filter {keep : JsValue Number → Bool} {holds : JsValue Number → Prop}
    (items : List (JsValue Number)) :
    (∀ item ∈ items.filter keep, holds item) ↔ ∀ item ∈ items, keep item = true → holds item := by
  constructor
  · exact fun all item isIn isKept => all item (List.mem_filter.mpr ⟨isIn, isKept⟩)
  · intro all item isIn
    obtain ⟨isItem, isKept⟩ := List.mem_filter.mp isIn
    exact all item isItem isKept

/-- The records under a key, each with a list of entries filtered. -/
theorem forall_records {key inner : JsString} (keep : JsValue Number → Bool)
    (holds : JsValue Number → Prop) (body : JsMembers Number) :
    (∀ record ∈ recordsAt key
        (mapList key (List.map (onRecord (mapList inner (List.filter keep)))) body),
      ∀ entry ∈ listAt inner record, holds entry) ↔
    ∀ record ∈ recordsAt key body, ∀ entry ∈ listAt inner record,
      keep entry = true → holds entry := by
  rw [recordsAt, listAt_mapList_self key rfl, filterMap_onRecord, recordsAt]
  constructor
  · intro all record isIn
    have changed := all _ (List.mem_map_of_mem isIn)
    rw [listAt_mapList_self inner rfl] at changed
    exact (forall_mem_filter _).mp changed
  · intro all record isIn
    obtain ⟨source, isSource, isRecord⟩ := List.mem_map.mp isIn
    rw [← isRecord, listAt_mapList_self inner rfl]
    exact (forall_mem_filter _).mpr (all source isSource)

theorem lookup_filter_params (api : ProviderApiKind) {key : JsString}
    (apart : key ∉ SERVER_TOOL_PARAMS api) (body : JsMembers Number) :
    (body.filter fun member => decide (member.1 ∉ SERVER_TOOL_PARAMS api)).lookup key =
      body.lookup key := by
  rw [JsValue.lookup_filterKeys fun held => decide (held ∉ SERVER_TOOL_PARAMS api),
    if_pos (decide_eq_true apart)]

/-- The keys the lists of tools stand under are none of the parameters. -/
theorem forEntries_filter_params (api : ProviderApiKind) {tool block : JsValue Number → Prop}
    (body : JsMembers Number) :
    ForEntries api tool block
        (body.filter fun member => decide (member.1 ∉ SERVER_TOOL_PARAMS api)) ↔
      ForEntries api tool block body := by
  cases api with
  | openaiCompletions =>
      rw [ForEntries, ForEntries, listAt, recordsAt, listAt, lookup_filter_params _ (by decide),
        lookup_filter_params _ (by decide)]
      rfl
  | openaiResponses =>
      rw [ForEntries, ForEntries, listAt, recordsAt, listAt, lookup_filter_params _ (by decide),
        lookup_filter_params _ (by decide)]
      rfl
  | anthropicMessages =>
      rw [ForEntries, ForEntries, listAt, listAt, recordsAt, listAt,
        lookup_filter_params _ (by decide), lookup_filter_params _ (by decide),
        lookup_filter_params _ (by decide)]
      rfl

/-- What holds of every entry of a narrowed body holds of every entry that passes its test. -/
theorem forEntries_narrowBy (api : ProviderApiKind) (keepTool keepBlock : JsValue Number → Bool)
    {tool block : JsValue Number → Prop} (body : JsMembers Number) :
    ForEntries api tool block (narrowBy api keepTool keepBlock body) ↔
      ForEntries api (fun entry => keepTool entry = true → tool entry)
        (fun entry => keepBlock entry = true → block entry) body := by
  rw [narrowBy, forEntries_filter_params]
  cases api with
  | openaiCompletions =>
      rw [ForEntries, ForEntries, narrowConversation, forall_records,
        listAt_mapList_of_ne (by decide), listAt_mapList_self _ rfl, forall_mem_filter,
        recordsAt_mapList_of_ne (by decide)]
  | openaiResponses =>
      rw [ForEntries, ForEntries, narrowConversation, forall_records,
        listAt_mapList_of_ne (by decide), listAt_mapList_self _ rfl, forall_mem_filter,
        recordsAt_mapList_of_ne (by decide)]
  | anthropicMessages =>
      rw [ForEntries, ForEntries, narrowConversation, forall_records,
        listAt_mapList_of_ne (by decide), listAt_mapList_of_ne (by decide),
        listAt_mapList_self _ rfl, forall_mem_filter, listAt_mapList_of_ne (by decide),
        listAt_mapList_self _ rfl, forall_mem_filter, listAt_mapList_of_ne (by decide),
        recordsAt_mapList_of_ne (by decide), recordsAt_mapList_of_ne (by decide)]

theorem noParams_narrowBy (api : ProviderApiKind) (keepTool keepBlock : JsValue Number → Bool)
    (body : JsMembers Number) : NoParams api (narrowBy api keepTool keepBlock body) := by
  intro param isParam
  rw [narrowBy, JsValue.lookup_filterKeys fun held => decide (held ∉ SERVER_TOOL_PARAMS api),
    if_neg]
  exact fun apart => of_decide_eq_true apart isParam


end

end NextTime.LlmProxy.Outbound
