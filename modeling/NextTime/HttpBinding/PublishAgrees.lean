import NextTime.HttpBinding.TemplateQuery

/-
When the call of an http Operation and the report on its definition agree on the params
that the gate owns.
-/

namespace NextTime.HttpBinding

open JsString (js)
open JsValue (keys)
open JsonText (NumberText)

/-! ### One param -/

section
variable (casing : JsCasing)

/-- The param is owned whatever the path fixes. -/
def OwnedAnyway (name : JsString) (location : Option JsString) (method : JsString) : Prop :=
  gateOwnedLocation casing name location method [] INJECTED_HEADER_NAMES ≠ none

/-- The param goes to the query. -/
def GoesToQuery (location : Option JsString) (method : JsString) : Prop :=
  location ≠ some (js "header") ∧ location ≠ some (js "cookie") ∧
    (location = some (js "query") ∨ method = js "GET" ∨ method = js "HEAD")

theorem isGateOwnedHeader_congr (name : JsString) {injected others : List JsString}
    (same : ∀ header, header ∈ injected ↔ header ∈ others) :
    isGateOwnedHeader casing name injected = isGateOwnedHeader casing name others := by
  have contains (header : JsString) : injected.contains header = others.contains header := by
    rw [Bool.eq_iff_iff, List.contains_iff_mem, List.contains_iff_mem]
    exact same header
  simp only [isGateOwnedHeader, contains]

theorem gateOwnedLocation_ne_none_iff {name : JsString} {location : Option JsString}
    {method : JsString} {fixedQuery injected : List JsString}
    (same : ∀ header, header ∈ injected ↔ header ∈ INJECTED_HEADER_NAMES) :
    gateOwnedLocation casing name location method fixedQuery injected ≠ none ↔
      OwnedAnyway casing name location method ∨
        GoesToQuery location method ∧ casing.toLowerCase name ∈ fixedQuery := by
  unfold OwnedAnyway GoesToQuery gateOwnedLocation
  rw [isGateOwnedHeader_congr casing name same]
  by_cases header : location = some (js "header")
  · simp [header]
  · by_cases cookie : location = some (js "cookie")
    · rw [if_neg header, if_pos cookie, if_neg header, if_pos cookie]
      simp
    · by_cases query : location = some (js "query") ∨ method = js "GET" ∨ method = js "HEAD"
      · rw [if_neg header, if_neg cookie, if_pos query, if_neg header, if_neg cookie, if_pos query]
        by_cases isFixed : casing.toLowerCase name ∈ fixedQuery
        · simp [isFixed, header, cookie, query]
        · simp [isFixed]
      · simp [header, cookie, query]

end

/-! ### All params of a call -/

section
variable {Number : Type} (numbers : JsNumbers Number) (casing : JsCasing)

/-- The params that a call passes beside its path. -/
def Passes (path : JsString) (members : JsMembers Number) (name : JsString) : Prop :=
  name ∈ keys members ∧ name ∉ templateParams path

/-- What a routed param can come to, of a text. -/
theorem routeParam_text {rules : Rules Number} {routed : Routed Number} {name text : JsString} :
    (∃ next, routeParam numbers casing rules routed (name, .str text) = .ok next ∧
      (name ∈ rules.used ∨ gateOwnedLocation casing name
        (paramLocation casing rules.params_schema name) rules.method rules.fixedQuery
          rules.injected = none)) ∨
    ∃ refused, name ∉ rules.used ∧ gateOwnedLocation casing name
        (paramLocation casing rules.params_schema name) rules.method rules.fixedQuery
          rules.injected = some refused ∧
      routeParam numbers casing rules routed (name, .str text) =
        .error (.gateOwnedParamRefused name refused) := by
  have isText : JsValue.string numbers (.str text) = some text := rfl
  unfold routeParam
  by_cases used : name ∈ rules.used
  · left
    rw [if_pos used]
    exact ⟨routed, rfl, .inl used⟩
  · rw [if_neg used]
    simp only [isText]
    cases owned : gateOwnedLocation casing name (paramLocation casing rules.params_schema name)
        rules.method rules.fixedQuery rules.injected with
    | some refused => exact .inr ⟨refused, used, rfl, rfl⟩
    | none =>
        left
        simp only
        split
        next => exact ⟨_, rfl, .inr trivial⟩
        next =>
          split
          next => exact ⟨_, rfl, .inr trivial⟩
          next => exact ⟨_, rfl, .inr trivial⟩

/-- Every value of a call is a text. -/
def AllTexts (members : JsMembers Number) : Prop :=
  ∀ member ∈ members, ∃ text, member.2 = .str text

theorem routeParams_refuses_iff {rules : Rules Number} {members : JsMembers Number}
    (texts : AllTexts members) : ∀ {routed : Routed Number},
    (∃ name location, routeParams numbers casing rules routed members =
        .error (.gateOwnedParamRefused name location)) ↔
      ∃ name ∈ keys members, name ∉ rules.used ∧ gateOwnedLocation casing name
        (paramLocation casing rules.params_schema name) rules.method rules.fixedQuery
          rules.injected ≠ none := by
  induction members with
  | nil =>
      intro routed
      simp [routeParams, keys]
  | cons member members ih =>
      intro routed
      obtain ⟨name, value⟩ := member
      obtain ⟨text, isText⟩ := texts (name, value) List.mem_cons_self
      simp only at isText
      have later : AllTexts members := fun held isIn => texts held (List.mem_cons_of_mem _ isIn)
      rw [isText, JsValue.keys_cons]
      simp only [List.mem_cons, exists_eq_or_imp]
      rcases @routeParam_text _ numbers casing rules routed name text with
        ⟨next, routes, free⟩ | ⟨refused, unused, owned, refuses⟩
      · have notHere : ¬(name ∉ rules.used ∧ gateOwnedLocation casing name
            (paramLocation casing rules.params_schema name) rules.method rules.fixedQuery
              rules.injected ≠ none) := by
          rintro ⟨unused, owned⟩
          rcases free with used | none
          · exact unused used
          · exact owned none
        rw [routeParams, routes, or_iff_right notHere]
        exact ih later
      · rw [routeParams, refuses]
        refine iff_of_true ⟨name, refused, rfl⟩ (.inl ⟨unused, ?_⟩)
        rw [owned]
        exact Option.some_ne_none refused

theorem addToQuery_not_refused {members : JsMembers Number} :
    ∀ {params : List (JsString × JsString)} {name : JsString} {location : GateOwnedParamLocation},
      addToQuery numbers params members ≠ .error (.gateOwnedParamRefused name location) := by
  induction members with
  | nil => exact fun same => nomatch same
  | cons member members ih =>
      intro params name location
      obtain ⟨key, value⟩ := member
      rw [addToQuery]
      cases JsValue.string numbers value with
      | none =>
          intro same
          cases Except.error.inj same
      | some text => exact ih

theorem requestTo_refuses_iff {url : SpecialUrl} {rules : Rules Number} {bag : Bag Number} :
    (∃ name location, requestTo numbers casing url rules bag =
        .error (.gateOwnedParamRefused name location)) ↔
      ∃ name location, routeParams numbers casing rules ⟨[], [], url.searchParams⟩ bag.members =
        .error (.gateOwnedParamRefused name location) := by
  unfold requestTo
  cases routeParams numbers casing rules ⟨[], [], url.searchParams⟩ bag.members with
  | error problem =>
      apply exists_congr
      intro name
      apply exists_congr
      intro location
      constructor
      · exact fun same => congrArg _ (Except.error.inj same)
      · exact fun same => congrArg _ (Except.error.inj same)
  | ok routed =>
      simp only
      apply iff_of_false
      · rintro ⟨name, location, refuses⟩
        split at refuses
        next =>
          cases added : addToQuery numbers routed.searchParams routed.remaining with
          | error problem =>
              rw [added] at refuses
              exact addToQuery_not_refused numbers
                (added.trans (congrArg _ (Except.error.inj refuses)))
          | ok params =>
              rw [added] at refuses
              cases refuses
        next => cases refuses
      · rintro ⟨_, _, refuses⟩
        cases refuses

/-! ### The call and the report -/

variable (parseUrl : JsString → Option SpecialUrl)

/-- The call is refused for a param that the gate owns. -/
def Refused (gate : HttpGate Number) (binding : Binding) (params_schema : JsMembers Number)
    (bag : Bag Number) : Prop :=
  ∃ name location, request numbers casing parseUrl gate binding params_schema bag =
    .error (.gateOwnedParamRefused name location)

/-- The report on the definition lists a param that the call passes. -/
def Listed (binding : Binding) (params_schema : JsMembers Number) (bag : Bag Number) : Prop :=
  ∃ found ∈ gateOwnedParamsOf casing queryKeys binding params_schema,
    found.param ∈ keys bag.members

/-- One of the params passed beside the path goes to the query under a name of these. -/
def TakesOneOf (method path : JsString) (params_schema : JsMembers Number) (bag : Bag Number)
    (fixed : List JsString) : Prop :=
  ∃ name, Passes path bag.members name ∧
    GoesToQuery (paramLocation casing params_schema name) (casing.toUpperCase method) ∧
      casing.toLowerCase name ∈ fixedQueryOf casing fixed

/-- One of the params passed beside the path is owned whatever the path fixes. -/
def TakesOwned (method path : JsString) (params_schema : JsMembers Number)
    (bag : Bag Number) : Prop :=
  ∃ name, Passes path bag.members name ∧
    OwnedAnyway casing name (paramLocation casing params_schema name) (casing.toUpperCase method)

/-- The pieces before the query of the template's static part. -/
def staticPieces (path : JsString) : List Piece := (pathPart (staticPart path)).map .unit

/-- The call gets as far as its params: the base URL is one, and the template leads under what
its static part leads to. -/
def Reaches (gate : HttpGate Number) (path : JsString) (value : JsString → JsString) : Prop :=
  ∃ base, parseUrl gate.baseUrl = some base ∧
    SpecialUrl.joined ((route value (staticPieces path)).ends (written value) (basePath base)) <+:
      SpecialUrl.joined ((route value (pathPieces path)).ends (written value) (basePath base))

/-- What a template, its values and the params passed beside it have to keep to. -/
structure ReadAlike (gate : HttpGate Number) (method path : JsString)
    (params_schema : JsMembers Number) (bag : Bag Number) (value : JsString → JsString) :
    Prop where
  /-- The query holds no placeholder, tab or newline; or a param is owned by its name and place;
  or one has a name of the query with the values exactly when one has a name of its text. -/
  reached : Reaches parseUrl gate path value →
    FixedQuery path ∨ TakesOwned casing method path params_schema bag ∨
      (TakesOneOf casing method path params_schema bag (queryNames value path) ↔
        TakesOneOf casing method path params_schema bag (templateNames path))
  /-- Of a call that fails before its params are looked at, none is listed. -/
  unreached : ¬Reaches parseUrl gate path value →
    ¬TakesOwned casing method path params_schema bag ∧
      ¬TakesOneOf casing method path params_schema bag (templateNames path)

theorem mem_gateOwnedParamsOf_iff {method path : JsString} {params_schema : JsMembers Number}
    {name : JsString} :
    (∃ found ∈ gateOwnedParamsOf casing queryKeys (.http method path) params_schema,
      found.param = name) ↔
      name ∈ keys (declared params_schema) ∧ name ∉ templateParams path ∧
        gateOwnedLocation casing name (paramLocation casing params_schema name)
          (casing.toUpperCase method) (fixedQueryOf casing (templateNames path))
            INJECTED_HEADER_NAMES ≠ none := by
  rw [gateOwnedParamsOf, templateNames]
  simp only [List.mem_insertionSort, List.mem_filterMap, List.mem_filter, Bool.not_eq_true']
  constructor
  · rintro ⟨found, ⟨held, ⟨isDeclared, free⟩, owned⟩, named⟩
    obtain ⟨location, here, same⟩ := Option.map_eq_some_iff.mp owned
    rw [← same] at named
    simp only at named
    rw [← named]
    refine ⟨isDeclared, ?_, ?_⟩
    · rw [← List.contains_iff_mem, free]
      exact Bool.false_ne_true
    · rw [here]
      exact Option.some_ne_none location
  · rintro ⟨isDeclared, free, owned⟩
    obtain ⟨location, here⟩ := Option.ne_none_iff_exists'.mp owned
    refine ⟨⟨name, location⟩, ⟨name, ⟨isDeclared, ?_⟩, ?_⟩, rfl⟩
    · rw [← Bool.not_eq_true, List.contains_iff_mem]
      exact free
    · rw [here]
      rfl

theorem listed_iff {method path : JsString} {params_schema : JsMembers Number} {bag : Bag Number}
    (isDeclared : keys bag.members ⊆ keys (declared params_schema)) :
    Listed casing (.http method path) params_schema bag ↔
      TakesOwned casing method path params_schema bag ∨
        TakesOneOf casing method path params_schema bag (templateNames path) := by
  have one (name : JsString) := @mem_gateOwnedParamsOf_iff _ casing method path params_schema name
  have owned (name : JsString) := @gateOwnedLocation_ne_none_iff casing name
    (paramLocation casing params_schema name) (casing.toUpperCase method)
      (fixedQueryOf casing (templateNames path)) _ (fun _ => Iff.rfl)
  unfold Listed TakesOwned TakesOneOf Passes
  rw [← exists_or]
  constructor
  · rintro ⟨found, isFound, passed⟩
    obtain ⟨_, free, isOwned⟩ := (one found.param).mp ⟨found, isFound, rfl⟩
    refine ⟨found.param, ?_⟩
    rcases (owned found.param).mp isOwned with anyway | inQuery
    · exact .inl ⟨⟨passed, free⟩, anyway⟩
    · exact .inr ⟨⟨passed, free⟩, inQuery⟩
  · rintro ⟨name, ⟨⟨passed, free⟩, anyway⟩ | ⟨⟨passed, free⟩, inQuery⟩⟩
    · obtain ⟨found, isFound, named⟩ :=
        (one name).mpr ⟨isDeclared passed, free, (owned name).mpr (.inl anyway)⟩
      exact ⟨found, isFound, named ▸ passed⟩
    · obtain ⟨found, isFound, named⟩ :=
        (one name).mpr ⟨isDeclared passed, free, (owned name).mpr (.inr inQuery)⟩
      exact ⟨found, isFound, named ▸ passed⟩

/-- A call reaches its params with the names that its query fixes, or fails before for another
reason. -/
theorem urlOf_cases {gate : HttpGate Number} {path rendered : JsString}
    {value : JsString → JsString}
    (isRendered : rendered = filled (encoded value) (templatePieces path))
    (single : ∀ name ∈ paramNames (templatePieces path), isSinglePathSegment (value name) = true) :
    (Reaches parseUrl gate path value ∧
      ∃ url, urlOf parseUrl gate.baseUrl path rendered = .ok url ∧
        url.searchParams.map Prod.fst = queryNames value path) ∨
    (¬Reaches parseUrl gate path value ∧
      ∃ problem, urlOf parseUrl gate.baseUrl path rendered = .error problem ∧
        ∀ name location, problem ≠ .gateOwnedParamRefused name location) := by
  have values : ∀ name ∈ paramNames (templatePieces path), value name ≠ [] :=
    fun name isIn => (isSegmentWithin_oneSegment (single name isIn)).1
  have isPath : pathPart rendered = filled (encoded value) (pathPieces path) := by
    rw [isRendered, pathPart_filled]
  have isStatic : pathPart (staticPart path) = filled (encoded value) (staticPieces path) :=
    (filled_units (encoded value) _).symm
  have noNames : ∀ name ∈ paramNames (staticPieces path),
      isSinglePathSegment (value name) = true := by
    intro name isIn
    rw [staticPieces, paramNames_units] at isIn
    cases isIn
  unfold urlOf Reaches
  cases parseUrl gate.baseUrl with
  | none =>
      right
      constructor
      · rintro ⟨_, same, _⟩
        cases same
      · refine ⟨_, rfl, ?_⟩
        intro name location same
        cases same
  | some base =>
      have isUrl := resolveOn_ends base (fun name isIn =>
        single name (paramNames_subset (List.takeWhile_prefix _).subset isIn)) isPath
      have isFixed := resolveOn_ends base noNames isStatic
      simp only [SpecialUrl.pathname, isUrl, isFixed, List.isPrefixOf_iff_prefix,
        Option.some.injEq, exists_eq_left']
      split
      next under => exact .inl ⟨under, _, rfl, resolveOn_names base values isRendered⟩
      next outside =>
        right
        refine ⟨outside, _, rfl, ?_⟩
        intro name location same
        cases same

/-- What a call's own rules refuse, by the headers that a credential sets. -/
theorem refuses_iff {rules : Rules Number} {path method : JsString} {bag : Bag Number}
    (used : rules.used = templateParams path) (isMethod : rules.method = casing.toUpperCase method)
    (injected : ∀ header, header ∈ rules.injected ↔ header ∈ INJECTED_HEADER_NAMES)
    {fixed : List JsString} (isFixed : rules.fixedQuery = fixedQueryOf casing fixed) :
    (∃ name ∈ keys bag.members, name ∉ rules.used ∧ gateOwnedLocation casing name
        (paramLocation casing rules.params_schema name) rules.method rules.fixedQuery
          rules.injected ≠ none) ↔
      TakesOwned casing method path rules.params_schema bag ∨
        TakesOneOf casing method path rules.params_schema bag fixed := by
  unfold TakesOwned TakesOneOf Passes
  rw [← exists_or]
  apply exists_congr
  intro name
  rw [gateOwnedLocation_ne_none_iff casing injected, used, isMethod, isFixed, ← and_or_left,
    and_assoc]

end

/-! ### A name in the query -/

/-- `https://shop`. -/
def shopUrl : SpecialUrl where
  scheme := js "https"
  host := js "shop"
  path := [[]]
  searchParams := []
  filled := List.cons_ne_nil _ _
  normal := fun _ isIn => List.mem_singleton.mp isIn ▸ SpecialUrl.isSegment_nil

def shopGate : HttpGate NumberText := ⟨js "https://shop", .null⟩

def itemsPath : JsString := js "/items?\x7bfield\x7d=1"

/-- A field that the path holds, and a state that goes to the query. -/
def itemsSchema : JsMembers NumberText :=
  [(js "properties",
    .obj [(js "field", .obj []), (js "state", .obj [(js "x-in", .str (js "query"))])])]

def itemsBag (field : JsString) : Bag NumberText :=
  ⟨[(js "field", .str field), (js "state", .str (js "open"))], fun _ => none⟩

/-- A tab in the name of a query param, which the URL takes out. -/
def brokenPath : JsString := js "/items?sta\tte=1"

end NextTime.HttpBinding
