import NextTime.HttpBinding.ImportOpenApi
import Mathlib.Data.List.Induction

/-
When an imported Operation offers no param that the gate refuses.
-/

namespace NextTime.HttpBinding

open JsString (js trim isAscii asciiLower asciiUpper)
open JsValue (keys)
open OwnProperties (assign)
open Storable (PROTO setMember)

/-! ### Names the gate sets itself -/

theorem splitCamel_cons_eq (first second : UInt16) (rest : JsString) :
    splitCamel (first :: second :: rest) = first :: splitCamel (second :: rest) ∨
      splitCamel (first :: second :: rest) = first :: 0x5F :: splitCamel (second :: rest) := by
  rw [splitCamel]
  split
  next => exact .inr rfl
  next => exact .inl rfl

theorem splitCamel_ne_nil (first : UInt16) (rest : JsString) : splitCamel (first :: rest) ≠ [] := by
  cases rest with
  | nil => exact List.cons_ne_nil _ _
  | cons second rest =>
      rcases splitCamel_cons_eq first second rest with same | split
      · exact same ▸ List.cons_ne_nil _ _
      · exact split ▸ List.cons_ne_nil _ _

/-- The words of a name end as it does. -/
theorem getLast?_splitCamel (text : JsString) : (splitCamel text).getLast? = text.getLast? := by
  induction text with
  | nil => rfl
  | cons first rest ih =>
      cases rest with
      | nil => rfl
      | cons second rest =>
          have behind : (first :: splitCamel (second :: rest)).getLast? =
              (splitCamel (second :: rest)).getLast? :=
            List.getLast?_cons_of_ne_nil (splitCamel_ne_nil second rest)
          rw [List.getLast?_cons_cons, ← ih]
          rcases splitCamel_cons_eq first second rest with same | split
          · rw [same, behind]
          · rw [split, List.getLast?_cons_cons,
              List.getLast?_cons_of_ne_nil (splitCamel_ne_nil second rest)]

section
variable (casing : JsCasing)

/-- A name that reads `x-api-key` names a credential. -/
theorem namesACredential_apiKey {name : JsString}
    (reads : casing.toLowerCase (trim name) = js "x-api-key") :
    namesACredential casing name = true := by
  have credential : CREDENTIAL_NAME.test (js "x-api-key") = true := by decide
  have last : (nameWords casing name).getLast? = some 0x79 := by
    apply casing.lower_last (trim name) (splitCamel (trim name)) (getLast?_splitCamel _).symm
    · decide
    · rw [reads]
      decide
  have notToken : NOT_A_CREDENTIAL_TOKEN.test (nameWords casing name) = false := by
    rw [← Bool.not_eq_true]
    intro found
    obtain ⟨front, whole⟩ := Pattern.isSuffix_of_test found
    rw [← whole, List.getLast?_append] at last
    cases last
  rw [namesACredential, reads, credential, notToken]
  rfl

/-- The headers the gate's credential sets are owned whatever else is. -/
theorem isGateOwnedHeader_injected (name : JsString) :
    isGateOwnedHeader casing name INJECTED_HEADER_NAMES = isGateOwnedHeader casing name [] := by
  unfold isGateOwnedHeader
  simp only [List.contains_nil, Bool.or_false]
  cases isInjected : INJECTED_HEADER_NAMES.contains (casing.toLowerCase (trim name)) with
  | false => rw [Bool.or_false]
  | true =>
      rcases List.mem_cons.mp (List.contains_iff_mem.mp isInjected) with identity | apiKey
      · rw [identity]
        have owned : namesAnIdentity (js "authorization") = true := by decide
        rw [owned]
        rfl
      · rw [namesACredential_apiKey casing (List.mem_singleton.mp apiKey)]
        simp only [Bool.or_true]

/-! ### The properties of a draft -/

theorem lookup_setMembers {Value : Type} (members : List (JsString × Value)) {name : JsString}
    (other : name ≠ PROTO) :
    (members.foldl (fun properties member => setMember member.1 member.2 properties) []).lookup
      name = members.reverse.lookup name := by
  induction members using List.reverseRecOn with
  | nil => rfl
  | append_singleton members member ih =>
      rw [List.foldl_append, List.foldl_cons, List.foldl_nil, List.reverse_append,
        List.reverse_singleton, List.singleton_append, List.lookup_cons]
      by_cases same : name = member.1
      · rw [same, setMember, if_neg (same ▸ other), JsValue.lookup_assign_same,
          beq_self_eq_true]
      · rw [beq_false_of_ne same, ← ih, setMember]
        split
        next => rfl
        next => exact JsValue.lookup_assign_other same _ _

theorem keys_setMembers {Value : Type} (members : List (JsString × Value)) :
    ∀ properties : List (JsString × Value), (keys properties).Nodup → PROTO ∉ keys properties →
      (keys (members.foldl (fun properties member => setMember member.1 member.2 properties)
          properties)).Nodup ∧
        PROTO ∉ keys (members.foldl
          (fun properties member => setMember member.1 member.2 properties) properties) := by
  induction members with
  | nil => exact fun _ nodup absent => ⟨nodup, absent⟩
  | cons member members ih =>
      intro properties nodup absent
      rw [List.foldl_cons, setMember]
      split
      next => exact ih properties nodup absent
      next other =>
        apply ih
        · exact JsValue.nodup_assign nodup _ _
        · rw [JsValue.keys_assign]
          split
          next => exact absent
          next =>
            rw [List.mem_append, List.mem_singleton, not_or]
            exact ⟨absent, Ne.symm other⟩

variable {Number : Type}

/-- The parameter that is offered last under a name. -/
def lastNamed (params : List (OpenApiParameter Number)) (name : JsString) :
    Option (OpenApiParameter Number) :=
  params.reverse.find? fun param => param.name == name

theorem lookup_propertyOf (params : List (OpenApiParameter Number)) (name : JsString) :
    (params.map propertyOf).lookup name =
      (params.find? fun param => param.name == name).map fun param => (propertyOf param).2 := by
  induction params with
  | nil => rfl
  | cons param params ih =>
      rw [List.map_cons, List.lookup_cons, List.find?_cons]
      by_cases same : name = param.name
      · rw [same]
        change (match param.name == param.name with | true => _ | false => _) = _
        rw [beq_self_eq_true]
        rfl
      · change (match name == param.name with | true => _ | false => _) = _
        rw [beq_false_of_ne same, beq_false_of_ne (Ne.symm same)]
        exact ih

/-- What a draft declares under a name: a property of the body, or else the parameter. -/
theorem lookup_mergedProperties (op : OpenApiOperationObject Number) {name : JsString}
    (other : name ≠ PROTO) (distinct : (keys (bodyProperties op)).Nodup) :
    (mergedProperties casing op).lookup name =
      ((bodyProperties op).lookup name).or
        ((lastNamed (offered casing op) name).map fun param => (propertyOf param).2) := by
  rw [mergedProperties, lookup_setMembers _ other, List.reverse_append, List.lookup_append,
    ← List.map_reverse, lookup_propertyOf]
  have same : (bodyProperties op).reverse.lookup name = (bodyProperties op).lookup name := by
    cases held : (bodyProperties op).lookup name with
    | none =>
        have absent := JsValue.lookup_isNone_iff.mp (Option.isNone_iff_eq_none.mpr held)
        apply Option.isNone_iff_eq_none.mp
        apply JsValue.lookup_isNone_iff.mpr
        rwa [keys, List.map_reverse, List.mem_reverse]
    | some value =>
        have distinct' : (keys (bodyProperties op).reverse).Nodup := by
          rw [keys, List.map_reverse]
          exact List.nodup_reverse.mpr distinct
        exact JsValue.lookup_of_mem distinct'
          (List.mem_reverse.mpr (JsValue.mem_of_lookup held))
  rw [same]
  rfl

theorem distinct_bodyProperties (op : OpenApiOperationObject Number) :
    (keys (bodyProperties op)).Nodup := by
  unfold bodyProperties
  cases op.bodySchema with
  | none => exact List.nodup_nil
  | some schema => exact schema.distinct

theorem declared_paramsSchemaFor (op : OpenApiOperationObject Number) :
    declared (paramsSchemaFor casing op) = mergedProperties casing op := by
  unfold paramsSchemaFor
  simp only
  split
  next empty =>
    rw [empty]
    rfl
  next => rfl

theorem requiredNames_paramsSchemaFor (op : OpenApiOperationObject Number) :
    requiredNames (paramsSchemaFor casing op) =
      if mergedProperties casing op = [] then [] else requiredOf casing op := by
  unfold paramsSchemaFor
  simp only
  split
  next => rfl
  next =>
    split
    next none =>
      rw [none]
      rfl
    next =>
      change ((requiredOf casing op).map JsValue.str).filterMap _ = _
      rw [List.filterMap_map]
      exact List.filterMap_some

/-! ### What the gate refuses of a draft -/

theorem gateOwnedParamsOf_eq_nil_iff {queryKeys : JsString → List JsString}
    {method path : JsString} {params_schema : JsMembers Number} :
    gateOwnedParamsOf casing queryKeys (.http method path) params_schema = [] ↔
      ∀ name ∈ keys (declared params_schema), name ∉ templateParams path →
        gateOwnedLocation casing name (paramLocation casing params_schema name)
          (casing.toUpperCase method) (fixedQueryOf casing (queryKeys (queryPart path)))
            INJECTED_HEADER_NAMES = none := by
  rw [gateOwnedParamsOf, ← List.length_eq_zero_iff, List.length_insertionSort, List.length_eq_zero_iff,
    List.filterMap_eq_nil_iff]
  simp only [List.mem_filter, Option.map_eq_none_iff, Bool.not_eq_true', and_imp]
  apply forall₂_congr
  intro name _
  apply imp_congr_left
  rw [← Bool.not_eq_true, List.contains_iff_mem]

theorem isAscii_text (location : ParameterIn) : isAscii location.text := by
  cases location <;> decide

theorem locationOf_propertyOf (param : OpenApiParameter Number) :
    locationOf casing (propertyOf param).2 = some param.location.text := by
  have trimmed : trim param.location.text = param.location.text := by
    cases param.location <;> decide
  have lower : param.location.text.map asciiLower = param.location.text := by
    cases param.location <;> decide
  rw [locationOf, propertyOf]
  simp only [ownMembers]
  rw [JsValue.lookup_assign_same]
  simp only
  rw [trimmed, casing.lower_ascii _ (isAscii_text param.location), lower]

/-- The methods as a binding names them. -/
theorem toUpperCase_method {method : JsString} (isMethod : method ∈ HTTP_METHODS) :
    casing.toUpperCase (casing.toUpperCase method) = method.map asciiUpper := by
  have ascii : ∀ held ∈ HTTP_METHODS, isAscii held ∧ isAscii (held.map asciiUpper) ∧
      (held.map asciiUpper).map asciiUpper = held.map asciiUpper := by decide
  obtain ⟨lower, upper, same⟩ := ascii method isMethod
  rw [casing.upper_ascii method lower, casing.upper_ascii _ upper, same]

theorem isGet_iff {method : JsString} (isMethod : method ∈ HTTP_METHODS) :
    (method.map asciiUpper = js "GET" ∨ method.map asciiUpper = js "HEAD") ↔
      method = js "get" := by
  have each : ∀ held ∈ HTTP_METHODS,
      (held.map asciiUpper = js "GET" ∨ held.map asciiUpper = js "HEAD") ↔ held = js "get" := by
    decide
  exact each method isMethod

variable (queryKeys : JsString → List JsString)

/-- An imported Operation offers nothing the gate refuses, and requires nothing undeclared. -/
def OffersOnlyAllowed (operation : Operation Number) : Prop :=
  gateOwnedParamsOf casing queryKeys operation.binding operation.params_schema = [] ∧
    ∀ name ∈ requiredNames operation.params_schema,
      name ∈ keys (declared operation.params_schema)

/-- The names of the properties of a draft. -/
def Declares (op : OpenApiOperationObject Number) (name : JsString) : Prop :=
  name ≠ PROTO ∧
    (name ∈ (offered casing op).map OpenApiParameter.name ∨ name ∈ keys (bodyProperties op))

/-- A parameter that is the draft's property of its name, and that the path does not hold. -/
structure Passed (path : JsString) (op : OpenApiOperationObject Number) (name : JsString)
    (param : OpenApiParameter Number) : Prop where
  last : lastNamed (offered casing op) name = some param
  kept : name ∉ keys (bodyProperties op)
  own : name ≠ PROTO
  free : name ∉ templateParams path

/-- What an OpenAPI operation has to keep to. -/
structure Importable (path method : JsString) (op : OpenApiOperationObject Number) : Prop where
  /-- A property of the body would land, by its own `x-in`, where a caller may set it. -/
  body : ∀ property ∈ bodyProperties op, property.1 ≠ PROTO →
    property.1 ∉ templateParams path →
      gateOwnedLocation casing property.1 (locationOf casing property.2)
        (method.map asciiUpper) (fixedQueryOf casing (queryKeys (queryPart path)))
          INJECTED_HEADER_NAMES = none
  /-- What goes to the query is none of the names that the path fixes there. -/
  fixed : ∀ name param, Passed casing path op name param →
    param.location = .query ∨ param.location = .path ∧ method = js "get" →
      casing.toLowerCase name ∉ fixedQueryOf casing (queryKeys (queryPart path))
  /-- A path parameter that the path does not hold names no credential on a GET. -/
  missing : ∀ name param, Passed casing path op name param →
    param.location = .path → method = js "get" → isGateOwnedQueryParam casing name = false
  /-- What is required is declared, unless nothing is. -/
  required : (∃ name, Declares casing op name) →
    ∀ name ∈ requiredOf casing op, Declares casing op name

theorem mem_keys_iff {members : JsMembers Number} {name : JsString} :
    name ∈ keys members ↔ ∃ value, members.lookup name = some value := by
  rw [← not_iff_not, ← JsValue.lookup_isNone_iff, Option.isNone_iff_eq_none]
  constructor
  · intro none found
    obtain ⟨_, isValue⟩ := found
    rw [none] at isValue
    cases isValue
  · intro missing
    exact Option.eq_none_iff_forall_ne_some.mpr (fun value found => missing ⟨value, found⟩)

theorem lastNamed_isSome {params : List (OpenApiParameter Number)} {name : JsString} :
    (∃ param, lastNamed params name = some param) ↔
      name ∈ params.map OpenApiParameter.name := by
  rw [← Option.isSome_iff_exists, lastNamed, List.find?_isSome]
  simp only [List.mem_reverse, beq_iff_eq, List.mem_map]

theorem lastNamed_some {params : List (OpenApiParameter Number)} {name : JsString}
    {param : OpenApiParameter Number} (last : lastNamed params name = some param) :
    param ∈ params ∧ param.name = name := by
  have named := List.find?_some last
  exact ⟨List.mem_reverse.mp (List.mem_of_find?_eq_some last), beq_iff_eq.mp named⟩

/-- The properties of a draft are those it declares. -/
theorem mem_keys_mergedProperties {op : OpenApiOperationObject Number} {name : JsString} :
    name ∈ keys (mergedProperties casing op) ↔ Declares casing op name := by
  by_cases own : name = PROTO
  · have absent := (keys_setMembers ((offered casing op).map propertyOf ++ bodyProperties op) []
      List.nodup_nil List.not_mem_nil).2
    exact iff_of_false (fun isIn => absent (own ▸ isIn)) (fun declares => declares.1 own)
  · rw [mem_keys_iff, lookup_mergedProperties casing op own (distinct_bodyProperties op),
      Declares, ← lastNamed_isSome, mem_keys_iff]
    cases (bodyProperties op).lookup name with
    | some value => simp [own]
    | none => simp [own]

/-- Where a parameter that is offered goes, and when that is the gate's own. -/
theorem gateOwnedLocation_param {fixedQuery : List JsString} {method : JsString}
    (isMethod : method ∈ HTTP_METHODS) {param : OpenApiParameter Number}
    (isOffered : isLeftOut casing param = false) :
    gateOwnedLocation casing param.name (some param.location.text) (method.map asciiUpper)
        fixedQuery INJECTED_HEADER_NAMES = none ↔
      (param.location = .query ∨ param.location = .path ∧ method = js "get" →
        casing.toLowerCase param.name ∉ fixedQuery) ∧
      (param.location = .path → method = js "get" →
        isGateOwnedQueryParam casing param.name = false) := by
  have notQuery : ParameterIn.path.text ≠ js "query" := by decide
  have toQuery := isGet_iff isMethod
  unfold isLeftOut at isOffered
  unfold gateOwnedLocation
  cases location : param.location with
  | header =>
      rw [location] at isOffered
      have notOwned : isGateOwnedHeader casing param.name [] = false := by simpa using isOffered
      rw [if_pos (show some ParameterIn.header.text = some (js "header") from rfl),
        isGateOwnedHeader_injected, notOwned]
      simp
  | cookie =>
      rw [location] at isOffered
      cases isOffered
  | query =>
      rw [location] at isOffered
      have notOwned : isGateOwnedQueryParam casing param.name = false := by simpa using isOffered
      rw [if_neg (by decide), if_neg (by decide), if_pos (.inl rfl), notOwned]
      by_cases isFixed : casing.toLowerCase param.name ∈ fixedQuery
      · simp [isFixed]
      · simp [isFixed]
  | path =>
      rw [if_neg (by decide), if_neg (by decide)]
      by_cases get : method = js "get"
      · rw [if_pos (.inr (toQuery.mpr get))]
        by_cases isFixed : casing.toLowerCase param.name ∈ fixedQuery
        · simp [isFixed, get]
        · simp [isFixed, get]
      · rw [if_neg]
        · simp [get]
        · rintro (query | isGet)
          · exact notQuery (Option.some.inj query)
          · exact get (toQuery.mp isGet)

/-- Where a property of a draft that is a parameter goes. -/
theorem Passed.gateOwnedLocation_eq_none_iff {path method : JsString}
    (isMethod : method ∈ HTTP_METHODS) {op : OpenApiOperationObject Number} {name : JsString}
    {param : OpenApiParameter Number} (passed : Passed casing path op name param)
    (fixedQuery : List JsString) :
    gateOwnedLocation casing name
        (((mergedProperties casing op).lookup name).bind (locationOf casing))
          (method.map asciiUpper) fixedQuery INJECTED_HEADER_NAMES = none ↔
      (param.location = .query ∨ param.location = .path ∧ method = js "get" →
        casing.toLowerCase name ∉ fixedQuery) ∧
      (param.location = .path → method = js "get" →
        isGateOwnedQueryParam casing name = false) := by
  obtain ⟨isOffered, named⟩ := lastNamed_some passed.last
  have notLeftOut : isLeftOut casing param = false := by
    simpa using (List.mem_filter.mp isOffered).2
  have notBody := Option.isNone_iff_eq_none.mp (JsValue.lookup_isNone_iff.mpr passed.kept)
  rw [lookup_mergedProperties casing op passed.own (distinct_bodyProperties op), notBody,
    passed.last, Option.none_or, Option.map_some, Option.bind_some, locationOf_propertyOf,
    ← named]
  exact gateOwnedLocation_param casing isMethod notLeftOut

/-- A draft is as it should be exactly when its OpenAPI operation is importable. -/
theorem offersOnlyAllowed_draft {path method : JsString} (isMethod : method ∈ HTTP_METHODS)
    (op : OpenApiOperationObject Number) :
    OffersOnlyAllowed casing queryKeys (draft casing path method op) ↔
      Importable casing queryKeys path method op := by
  have required : (∀ name ∈ requiredNames (paramsSchemaFor casing op),
      name ∈ keys (declared (paramsSchemaFor casing op))) ↔
      ((∃ name, Declares casing op name) →
        ∀ name ∈ requiredOf casing op, Declares casing op name) := by
    rw [requiredNames_paramsSchemaFor, declared_paramsSchemaFor]
    simp only [mem_keys_mergedProperties]
    by_cases empty : mergedProperties casing op = []
    · have nothing : ¬∃ name, Declares casing op name := by
        rintro ⟨name, declares⟩
        rw [← mem_keys_mergedProperties, empty] at declares
        cases declares
      rw [if_pos empty]
      exact iff_of_true (fun name isIn => by cases isIn) (fun declares => absurd declares nothing)
    · obtain ⟨member, isMember⟩ := List.exists_mem_of_ne_nil _ empty
      have something : ∃ name, Declares casing op name :=
        ⟨member.1, (mem_keys_mergedProperties casing).mp (List.mem_map_of_mem isMember)⟩
      rw [if_neg empty]
      exact ⟨fun all _ => all, fun all => all something⟩
  have refused : gateOwnedParamsOf casing queryKeys (draft casing path method op).binding
      (draft casing path method op).params_schema = [] ↔
      ∀ name, Declares casing op name → name ∉ templateParams path →
        gateOwnedLocation casing name
          (((mergedProperties casing op).lookup name).bind (locationOf casing))
            (method.map asciiUpper) (fixedQueryOf casing (queryKeys (queryPart path)))
              INJECTED_HEADER_NAMES = none := by
    rw [show (draft casing path method op).binding = .http (casing.toUpperCase method) path from
      rfl, gateOwnedParamsOf_eq_nil_iff, toUpperCase_method casing isMethod]
    change (∀ name ∈ keys (declared (paramsSchemaFor casing op)), _ → gateOwnedLocation casing
      name (((declared (paramsSchemaFor casing op)).lookup name).bind (locationOf casing)) _ _ _ =
        none) ↔ _
    rw [declared_paramsSchemaFor]
    simp only [mem_keys_mergedProperties]
  have distinct := distinct_bodyProperties op
  rw [OffersOnlyAllowed, refused]
  constructor
  · rintro ⟨allFree, allDeclared⟩
    have goes (name : JsString) (param : OpenApiParameter Number)
        (passed : Passed casing path op name param) :=
      (passed.gateOwnedLocation_eq_none_iff casing isMethod _).mp
        (allFree name ⟨passed.own, .inl (lastNamed_isSome.mp ⟨param, passed.last⟩)⟩ passed.free)
    refine ⟨?_, fun name param passed => (goes name param passed).1,
      fun name param passed => (goes name param passed).2, required.mp allDeclared⟩
    intro property isIn own free
    have here := allFree property.1 ⟨own, .inr (List.mem_map_of_mem isIn)⟩ free
    rwa [lookup_mergedProperties casing op own distinct, JsValue.lookup_of_mem distinct isIn] at here
  · intro importable
    refine ⟨?_, required.mpr importable.required⟩
    intro name declares free
    cases held : (bodyProperties op).lookup name with
    | some value =>
        rw [lookup_mergedProperties casing op declares.1 distinct, held]
        exact importable.body (name, value) (JsValue.mem_of_lookup held) declares.1 free
    | none =>
        have notBody := JsValue.lookup_isNone_iff.mp (Option.isNone_iff_eq_none.mpr held)
        obtain ⟨param, last⟩ := lastNamed_isSome.mpr (declares.2.resolve_right notBody)
        have passed : Passed casing path op name param := ⟨last, notBody, declares.1, free⟩
        rw [passed.gateOwnedLocation_eq_none_iff casing isMethod]
        exact ⟨importable.fixed name param passed, importable.missing name param passed⟩

/-- Every Operation drafted of a document offers only what the gate lets a caller set, and
requires only what it declares, exactly when every operation of the document is importable. -/
theorem importOpenApi_offersOnlyAllowed (document : OpenApiDocumentLike Number) :
    (∀ operation ∈ importOpenApi casing document, OffersOnlyAllowed casing queryKeys operation) ↔
      ∀ entry ∈ document.paths, ∀ method ∈ HTTP_METHODS, ∀ op ∈ entry.2.lookup method,
        Importable casing queryKeys entry.1 method op := by
  constructor
  · intro all entry isEntry method isMethod op isOp
    rw [← offersOnlyAllowed_draft casing queryKeys isMethod]
    apply all
    rw [importOpenApi, List.mem_flatMap]
    refine ⟨entry, isEntry, List.mem_filterMap.mpr ⟨method, isMethod, ?_⟩⟩
    rw [Option.mem_def.mp isOp, Option.map_some]
  · intro all operation isDrafted
    rw [importOpenApi, List.mem_flatMap] at isDrafted
    obtain ⟨entry, isEntry, isOperation⟩ := isDrafted
    obtain ⟨method, isMethod, isDraft⟩ := List.mem_filterMap.mp isOperation
    obtain ⟨op, isOp, same⟩ := Option.map_eq_some_iff.mp isDraft
    rw [← same, offersOnlyAllowed_draft casing queryKeys isMethod]
    exact all entry isEntry method isMethod op isOp

end

/-- A search on GET whose body declares the key it is called with. -/
def searchOperation : OpenApiOperationObject Unit where
  operationId := some (js "search")
  summary := none
  description := none
  parameters := []
  bodySchema := some ⟨[(js "api_key", .obj [(js "type", .str (js "string"))])], [], by decide⟩

def searchDocument : OpenApiDocumentLike Unit :=
  ⟨[(js "/search", [(js "get", searchOperation)])]⟩

theorem not_offersOnlyAllowed_search :
    ¬∀ operation ∈ importOpenApi JsCasing.ascii searchDocument,
      OffersOnlyAllowed JsCasing.ascii (fun _ => []) operation := by
  intro all
  have isDrafted : draft JsCasing.ascii (js "/search") (js "get") searchOperation ∈
      importOpenApi JsCasing.ascii searchDocument := List.mem_singleton.mpr rfl
  have found : gateOwnedParamsOf JsCasing.ascii (fun _ => []) (.http (js "GET") (js "/search"))
      (paramsSchemaFor JsCasing.ascii searchOperation) = [⟨js "api_key", .query⟩] := by
    decide +kernel
  have none := (all _ isDrafted).1
  change gateOwnedParamsOf JsCasing.ascii (fun _ => []) (.http (js "GET") (js "/search"))
    (paramsSchemaFor JsCasing.ascii searchOperation) = [] at none
  rw [found] at none
  cases none

end NextTime.HttpBinding
