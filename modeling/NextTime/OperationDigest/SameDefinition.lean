import NextTime.OperationDigest.CanonicalJson

/-
The canonical text tells the values apart that differ in more than the order of their
members, and no others; so does the digest of a definition.
-/

namespace NextTime.OperationDigest

open JsonText (Json quote stringify NumberText)
open JsString (js)
open JsValue (Alike Distinct sortKeys sorted sortedItems sortedMembers write writeItems
  writeMembers numbersOf)

/-! ### The text as JSON writes it -/

theorem stringifyItems_eq (item : Json) (items : List Json) :
    stringify [] [] item ++ JsonText.stringifyItems [] [] items =
      List.intercalate [0x2C] ((item :: items).map (stringify [] [])) := by
  induction items generalizing item with
  | nil => simp [JsonText.stringifyItems]
  | cons next items ih =>
      have rest := ih next
      rw [List.map_cons, List.map_cons, List.intercalate_cons_cons, ← List.map_cons, ← rest,
        JsonText.stringifyItems]
      simp [JsonText.newline]

theorem stringify_arr (items : List Json) :
    stringify [] [] (.arr items) =
      0x5B :: (List.intercalate [0x2C] (items.map (stringify [] [])) ++ [0x5D]) := by
  cases items with
  | nil => rfl
  | cons item items =>
      rw [stringify, ← stringifyItems_eq]
      simp [JsonText.newline]

def memberText (member : JsString × Json) : JsString :=
  quote member.1 ++ 0x3A :: stringify [] [] member.2

theorem stringifyMembers_eq (member : JsString × Json) (members : List (JsString × Json)) :
    memberText member ++ JsonText.stringifyMembers [] [] members =
      List.intercalate [0x2C] ((member :: members).map memberText) := by
  induction members generalizing member with
  | nil => simp [JsonText.stringifyMembers]
  | cons next members ih =>
      have rest := ih next
      rw [List.map_cons, List.map_cons, List.intercalate_cons_cons, ← List.map_cons, ← rest,
        JsonText.stringifyMembers]
      simp [memberText, JsonText.newline, JsonText.colon]

theorem stringify_obj (members : List (JsString × Json)) :
    stringify [] [] (.obj members) =
      0x7B :: (List.intercalate [0x2C] (members.map memberText) ++ [0x7D]) := by
  cases members with
  | nil => rfl
  | cons member members =>
      rw [stringify, ← stringifyMembers_eq]
      simp [memberText, JsonText.newline, JsonText.colon]

section
variable {Number : Type} {numbers : JsNumbers Number}

/-- The text of a value without undefined members. -/
def canonicalText (numbers : JsNumbers Number) (value : JsValue Number) : JsString :=
  stringify [] [] (write numbers (sorted value))

theorem writeMembers_map (members : JsMembers Number) :
    writeMembers numbers members = members.map fun member =>
      (member.1, write numbers member.2) := by
  induction members with
  | nil => rfl
  | cons member members ih => rw [writeMembers, ih, List.map_cons]

mutual

theorem canonicalJson_eq : ∀ data : JsData Number,
    canonicalJson numbers data = canonicalText numbers data.defined
  | .undefined => rfl
  | .null => rfl
  | .bool true => rfl
  | .bool false => rfl
  | .num number => by
      rw [canonicalJson, JsData.defined, canonicalText, sorted, write]
      cases numbers.write number with
      | none => rfl
      | some text => rfl
  | .str _ => rfl
  | .arr items => by
      rw [canonicalJson, JsData.defined, canonicalText, sorted, write, stringify_arr,
        canonicalItems_eq items]
  | .obj members => by
      rw [canonicalJson, JsData.defined, canonicalText, sorted, write, stringify_obj,
        canonicalMembers_eq members, JsValue.sortKeys_map, writeMembers_map,
        JsValue.sortedMembers_map, JsValue.sortKeys_map, List.map_map, List.map_map, List.map_map]
      rfl

theorem canonicalItems_eq : ∀ items : List (JsData Number),
    canonicalItems numbers items =
      (writeItems numbers (sortedItems (JsData.definedItems items))).map (stringify [] [])
  | [] => rfl
  | item :: items => by
      rw [canonicalItems, JsData.definedItems, sortedItems, writeItems, List.map_cons,
        canonicalJson_eq item, canonicalItems_eq items]
      rfl

theorem canonicalMembers_eq : ∀ members : List (JsString × JsData Number),
    canonicalMembers numbers members =
      (JsData.definedMembers members).map fun member =>
        (member.1, canonicalText numbers member.2)
  | [] => rfl
  | (key, value) :: members => by
      rw [canonicalMembers, JsData.definedMembers]
      split
      next => exact canonicalMembers_eq members
      next => rw [List.map_cons, canonicalJson_eq value, canonicalMembers_eq members]

end

mutual

theorem defined_ofValue : ∀ value : JsValue Number, (JsData.ofValue value).defined = value
  | .null => rfl
  | .bool _ => rfl
  | .num _ => rfl
  | .str _ => rfl
  | .arr items => by rw [JsData.ofValue, JsData.defined, definedItems_ofItems items]
  | .obj members => by rw [JsData.ofValue, JsData.defined, definedMembers_ofMembers members]

theorem definedItems_ofItems : ∀ items : List (JsValue Number),
    JsData.definedItems (JsData.ofItems items) = items
  | [] => rfl
  | item :: items => by
      rw [JsData.ofItems, JsData.definedItems, defined_ofValue item, definedItems_ofItems items]

theorem definedMembers_ofMembers : ∀ members : JsMembers Number,
    JsData.definedMembers (JsData.ofMembers members) = members
  | [] => rfl
  | (key, value) :: members => by
      have isDefined : (JsData.ofValue value).isUndefined = false := by
        cases value with
        | _ => rfl
      rw [JsData.ofMembers, JsData.definedMembers, isDefined, defined_ofValue value,
        definedMembers_ofMembers members]
      rfl

end

/-! ### What the text tells apart -/

/-- Every number of the value has a text. -/
def Finite (numbers : JsNumbers Number) (value : JsValue Number) : Prop :=
  ∀ number ∈ numbersOf value, (numbers.write number).isSome = true

theorem canonicalText_parse (keeps : DuplicateKeys) (value : JsValue Number) :
    JsValue.parseText numbers keeps (canonicalText numbers value) =
      some (JsValue.revive numbers keeps (write numbers (sorted value))) := by
  rw [JsValue.parseText, canonicalText, JsonText.parse_stringify JsonText.spaces_nil]
  rfl

theorem canonicalText_eq_iff {first second : JsValue Number} (distinctFirst : Distinct first)
    (distinctSecond : Distinct second) (finiteFirst : Finite numbers first)
    (finiteSecond : Finite numbers second) :
    canonicalText numbers first = canonicalText numbers second ↔ Alike first second := by
  rw [← JsValue.sorted_eq_iff first second distinctFirst distinctSecond]
  constructor
  · intro same
    have read := @canonicalText_parse _ numbers .last first
    rw [same, canonicalText_parse, Option.some.injEq] at read
    have forms := congrArg sorted read
    rw [JsValue.sorted_revive_write_sorted .last distinctFirst finiteFirst,
      JsValue.sorted_revive_write_sorted .last distinctSecond finiteSecond] at forms
    exact forms.symm
  · intro same
    rw [canonicalText, canonicalText, same]

theorem parse_canonicalText (keeps : DuplicateKeys) {value : JsValue Number}
    (distinct : Distinct value) (finite : Finite numbers value) :
    ∃ read, JsValue.parseText numbers keeps (canonicalText numbers value) = some read ∧
      Alike read value := by
  refine ⟨_, canonicalText_parse keeps value, ?_⟩
  apply JsValue.alike_of_sorted_eq
  · exact JsValue.distinct_of_own _ (JsValue.own_revive keeps _)
  · exact distinct
  · exact JsValue.sorted_revive_write_sorted keeps distinct finite

/-- No two well-formed texts of the two have one hash. -/
def CollisionFree (sha256 : JsString → JsString) (one other : JsString) : Prop :=
  JsonText.WellFormed one → JsonText.WellFormed other → sha256 one = sha256 other → one = other

theorem digest_eq_iff {Operation : Type} {parse : Operation → Option (OperationFields Number)}
    {sha256 : JsString → JsString} {kernelCopy gateCopy : Operation}
    {kernelFields gateFields : OperationFields Number}
    (kernelParsed : parse kernelCopy = some kernelFields)
    (gateParsed : parse gateCopy = some gateFields)
    (collisionFree : CollisionFree sha256
      (canonicalJson numbers (operationDefinition kernelFields))
      (canonicalJson numbers (operationDefinition gateFields))) :
    operationDefinitionDigest numbers parse sha256 kernelCopy =
        operationDefinitionDigest numbers parse sha256 gateCopy ↔
      canonicalJson numbers (operationDefinition kernelFields) =
        canonicalJson numbers (operationDefinition gateFields) := by
  have wellFormed (data : JsData Number) : JsonText.WellFormed (canonicalJson numbers data) := by
    rw [canonicalJson_eq]
    exact JsonText.wellFormed_stringify _
  rw [operationDefinitionDigest, operationDefinitionDigest, kernelParsed, gateParsed,
    Option.map_some, Option.map_some, Option.some.injEq, List.append_cancel_left_eq]
  constructor
  · exact collisionFree (wellFormed _) (wellFormed _)
  · exact congrArg sha256

/-- The canonical text is the value up to the order of members and the undefined ones, and so is
the digest of a definition. -/
theorem canonicalJson_tells {first second : JsValue Number} (distinctFirst : Distinct first)
    (distinctSecond : Distinct second) (finiteFirst : Finite numbers first)
    (finiteSecond : Finite numbers second) :
    (canonicalJson numbers (.ofValue first) = canonicalJson numbers (.ofValue second) ↔
        Alike first second) ∧
      (∀ keeps, ∃ read, JsValue.parseText numbers keeps
        (canonicalJson numbers (.ofValue first)) = some read ∧ Alike read first) ∧
      (∀ data : JsData Number, data.defined = first →
        canonicalJson numbers data = canonicalJson numbers (.ofValue first)) ∧
      ∀ {Operation : Type} (parse : Operation → Option (OperationFields Number))
        (sha256 : JsString → JsString) (kernelCopy gateCopy : Operation)
        (kernelFields gateFields : OperationFields Number),
        parse kernelCopy = some kernelFields → parse gateCopy = some gateFields →
        (operationDefinition kernelFields).defined = first →
        (operationDefinition gateFields).defined = second →
        CollisionFree sha256 (canonicalJson numbers (operationDefinition kernelFields))
          (canonicalJson numbers (operationDefinition gateFields)) →
        (operationDefinitionDigest numbers parse sha256 kernelCopy =
            operationDefinitionDigest numbers parse sha256 gateCopy ↔ Alike first second) := by
  have told := canonicalText_eq_iff distinctFirst distinctSecond finiteFirst finiteSecond
  refine ⟨?_, ?_, ?_, ?_⟩
  · rw [canonicalJson_eq, canonicalJson_eq, defined_ofValue, defined_ofValue]
    exact told
  · intro keeps
    rw [canonicalJson_eq, defined_ofValue]
    exact parse_canonicalText keeps distinctFirst finiteFirst
  · intro data isFirst
    rw [canonicalJson_eq, canonicalJson_eq, defined_ofValue, isFirst]
  · intro Operation parse sha256 kernelCopy gateCopy kernelFields gateFields kernelParsed gateParsed
      isFirst isSecond collisionFree
    rw [digest_eq_iff kernelParsed gateParsed collisionFree, canonicalJson_eq, canonicalJson_eq,
      isFirst, isSecond]
    exact told

end

/-- An operation as the kernel's database returns it. -/
def kernelCopy : OperationFields NumberText where
  name := .str (js "reboot")
  binding := .obj [(js "path", .str (js "/reboot")), (js "kind", .str (js "http"))]
  params_schema := .obj []
  result_mapping := .undefined
  mode := .str (js "apply")
  reversibility := .str (js "irreversible")
  blast_radius := .undefined

/-- The same operation in the gate's memory. -/
def gateCopy : OperationFields NumberText :=
  { kernelCopy with
    binding := .obj [(js "kind", .str (js "http")), (js "path", .str (js "/reboot")),
      (js "absent_statuses", .undefined)] }

/-- The hash of the one text that is hashed here. -/
def rebootSha256 (_ : JsString) : JsString :=
  js "7b908306c372526ba779e925f8c56a89553bf020b7098854386bab9b8206dc3c"

theorem canonicalJson_tells_reboot :
    operationDefinitionDigest JsNumbers.written some rebootSha256 kernelCopy =
        operationDefinitionDigest JsNumbers.written some rebootSha256 gateCopy ↔
      Alike (operationDefinition kernelCopy).defined (operationDefinition gateCopy).defined := by
  have distinctKernel : Distinct (operationDefinition kernelCopy).defined :=
    ⟨by decide, trivial, ⟨by decide, trivial, trivial, trivial⟩,
      ⟨List.nodup_nil, trivial⟩, trivial, trivial, trivial⟩
  have distinctGate : Distinct (operationDefinition gateCopy).defined :=
    ⟨by decide, trivial, ⟨by decide, trivial, trivial, trivial⟩,
      ⟨List.nodup_nil, trivial⟩, trivial, trivial, trivial⟩
  have sameText : canonicalJson JsNumbers.written (operationDefinition kernelCopy) =
      canonicalJson JsNumbers.written (operationDefinition gateCopy) := by decide
  exact (@canonicalJson_tells _ JsNumbers.written _ _ distinctKernel distinctGate
    (fun _ isIn => nomatch isIn) (fun _ isIn => nomatch isIn)).2.2.2 some rebootSha256 kernelCopy
      gateCopy kernelCopy gateCopy rfl rfl rfl rfl fun _ _ _ => sameText

/-- Numbers that are their texts, with one text beyond them. -/
def boundedNumbers : JsNumbers (Option NumberText) where
  read text := if text.1 = js "1e999" then none else some text
  string
    | none => js "Infinity"
    | some text => text.1
  write
    | none => none
    | some text => if text.1 = js "1e999" then none else some text
  read_write := by
    intro number text written
    cases number with
    | none => cases written
    | some held =>
        simp only at written
        split at written
        next => cases written
        next inside =>
          rw [← Option.some.inj written, if_neg inside]

/-- `1e999` is read as infinity, and infinity has the text of null. -/
theorem not_told_infinity :
    ∃ first second, JsValue.parseText boundedNumbers .last (js "1e999") = some first ∧
      JsValue.parseText boundedNumbers .last (js "null") = some second ∧
      canonicalJson boundedNumbers (.ofValue first) =
        canonicalJson boundedNumbers (.ofValue second) ∧
      ¬Alike first second := by
  refine ⟨.num none, .null, ?_, ?_, rfl, fun alike => nomatch alike⟩
  · rfl
  · rfl

end NextTime.OperationDigest
