import NextTime.HttpBinding.GateOwned
import NextTime.Library.SearchParams
import NextTime.Storable.StorableText

/-
The request of an http Operation's call: the path rendered of its template, the URL under
the gate's base URL, and every other param in the place where it goes.
-/

namespace NextTime.HttpBinding

open JsString (js)
open Storable (setMember)
open UriEncoding (percentEncode isWellFormed)

inductive HttpProblem
  | bindingKindMismatch (kind : JsString)
  | pathParamRequired (name : JsString)
  | notOnePathSegment (name : JsString)
  | malformedText (name : JsString)
  | notAText (name : JsString)
  | invalidBaseUrl
  | outsideTemplate
  | gateOwnedParamRefused (param : JsString) (location : GateOwnedParamLocation)
deriving DecidableEq, Repr

/-! ### Rendering a path -/

def MAX_DECODE_ROUNDS : Nat := 4

/-- What is left of the rounds of `isSinglePathSegment`. -/
def isSegmentWithin : Nat → JsString → Bool
  | 0, _ => false
  | rounds + 1, current =>
      if current = [] ∨ current = js "." ∨ current = js ".." ∨ 0x2F ∈ current ∨ 0x5C ∈ current then
        false
      else if PercentEscapes.decode current = current then true
      else isSegmentWithin rounds (PercentEscapes.decode current)

def isSinglePathSegment (raw : JsString) : Bool := isSegmentWithin MAX_DECODE_ROUNDS raw

/-- The units that `encodeURIComponent` keeps. -/
def isUnreserved (unit : UInt16) : Bool :=
  isLowerOrDigit unit || isUpper unit || (js "-_.!~*'()").contains unit

/-- A call's params: its own, and the text of what every object inherits under a name. -/
structure Bag (Number : Type) where
  members : JsMembers Number
  inherited : JsString → Option JsString

section
variable {Number : Type} (numbers : JsNumbers Number) (bag : Bag Number)

/-- `String(params[name])`, of a param that is there. -/
def Bag.text (name : JsString) : Except HttpProblem JsString :=
  match bag.members.lookup name with
  | some .null => .error (.pathParamRequired name)
  | some value =>
      match JsValue.string numbers value with
      | some text => .ok text
      | none => .error (.notAText name)
  | none =>
      match bag.inherited name with
      | some text => .ok text
      | none => .error (.pathParamRequired name)

def encodePathSegment (name : JsString) : Except HttpProblem JsString :=
  match bag.text numbers name with
  | .error problem => .error problem
  | .ok raw =>
      if isSinglePathSegment raw = false then .error (.notOnePathSegment name)
      else if isWellFormed raw = false then .error (.malformedText name)
      else .ok (percentEncode isUnreserved raw)

def renderPieces : List Piece → Except HttpProblem JsString
  | [] => .ok []
  | .unit unit :: rest =>
      match renderPieces rest with
      | .error problem => .error problem
      | .ok rendered => .ok (unit :: rendered)
  | .param name :: rest =>
      match encodePathSegment numbers bag name with
      | .error problem => .error problem
      | .ok segment =>
          match renderPieces rest with
          | .error problem => .error problem
          | .ok rendered => .ok (segment ++ rendered)

/-- `renderPath`, whose used params are the template's. -/
def renderPath (path : JsString) : Except HttpProblem JsString :=
  renderPieces numbers bag (templatePieces path)

end

/-! ### The URL -/

def withoutTrailingSlashes (path : JsString) : JsString :=
  path.rdropWhile fun unit => unit == 0x2F

def pathPart (bindingPath : JsString) : JsString := bindingPath.takeWhile fun unit => unit != 0x3F

/-- The part of a template before its first placeholder, or its query. -/
def staticPart (template : JsString) : JsString :=
  if 0x7B ∈ template then template.takeWhile fun unit => unit != 0x7B else pathPart template

/-- A binding path under the base URL. -/
def resolveOn (base : SpecialUrl) (bindingPath : JsString) : SpecialUrl :=
  { base.setPathname (withoutTrailingSlashes base.pathname ++
      0x2F :: (pathPart bindingPath).dropWhile fun unit => unit == 0x2F) with
    searchParams := SearchParams.parse (SearchParams.search (queryPart bindingPath)) }

/-- `searchParams.set(name, value)`. -/
def setSearchParam (name value : JsString) (params : List (JsString × JsString)) :
    List (JsString × JsString) :=
  match params.findIdx? fun param => param.1 == name with
  | none => params ++ [(name, value)]
  | some index =>
      params.take index ++ (name, value) ::
        (params.drop (index + 1)).filter fun param => param.1 != name

/-! ### The request -/

section
variable {Number : Type} (numbers : JsNumbers Number)

/-- The headers a credential sets; none where one of their values has no text. -/
def credentialHeaders (credential : JsValue Number) : Option (List (JsString × JsString)) :=
  match (ownMembers credential).lookup (js "token") with
  | some (.str token) => some [(js "authorization", js "Bearer " ++ token)]
  | _ =>
      match (ownMembers credential).lookup (js "apiKey") with
      | some (.str apiKey) => some [(js "x-api-key", apiKey)]
      | _ =>
          match (ownMembers credential).lookup (js "headers") with
          | some headers => (ownMembers headers).mapM fun header =>
              (JsValue.string numbers header.2).map fun text => (header.1, text)
          | none => some []

/-- Where the params of a call have gone so far. -/
structure Routed (Number : Type) where
  remaining : JsMembers Number
  headerParams : List (JsString × JsString)
  searchParams : List (JsString × JsString)

/-- What a definition and a gate have every param judged by. -/
structure Rules (Number : Type) where
  params_schema : JsMembers Number
  method : JsString
  used : List JsString
  fixedQuery : List JsString
  injected : List JsString

variable (casing : JsCasing)

/-- One param of a call. -/
def routeParam (rules : Rules Number) (routed : Routed Number) (param : JsString × JsValue Number) :
    Except HttpProblem (Routed Number) :=
  if param.1 ∈ rules.used then .ok routed
  else
    let location := paramLocation casing rules.params_schema param.1
    match gateOwnedLocation casing param.1 location rules.method rules.fixedQuery
        rules.injected with
    | some refused => .error (.gateOwnedParamRefused param.1 refused)
    | none =>
        if location = some (js "header") then
          match JsValue.string numbers param.2 with
          | none => .error (.notAText param.1)
          | some text =>
              .ok { routed with headerParams := setMember param.1 text routed.headerParams }
        else if location = some (js "query") then
          match JsValue.string numbers param.2 with
          | none => .error (.notAText param.1)
          | some text =>
              .ok { routed with searchParams := setSearchParam param.1 text routed.searchParams }
        else .ok { routed with remaining := setMember param.1 param.2 routed.remaining }

def routeParams (rules : Rules Number) (routed : Routed Number) :
    JsMembers Number → Except HttpProblem (Routed Number)
  | [] => .ok routed
  | param :: rest =>
      match routeParam numbers casing rules routed param with
      | .error problem => .error problem
      | .ok next => routeParams rules next rest

/-- The params left over on a GET, in the query. -/
def addToQuery (params : List (JsString × JsString)) :
    JsMembers Number → Except HttpProblem (List (JsString × JsString))
  | [] => .ok params
  | (key, value) :: rest =>
      match JsValue.string numbers value with
      | none => .error (.notAText key)
      | some text => addToQuery (setSearchParam key text params) rest

structure HttpRequest (Number : Type) where
  url : SpecialUrl
  method : JsString
  body : Option (JsMembers Number)
  headerParams : List (JsString × JsString)

structure HttpGate (Number : Type) where
  baseUrl : JsString
  credential : JsValue Number

variable (parseUrl : JsString → Option SpecialUrl)

/-- The URL of a call, once it is under its template's static part. -/
def urlOf (baseUrl path rendered : JsString) : Except HttpProblem SpecialUrl :=
  match parseUrl baseUrl with
  | none => .error .invalidBaseUrl
  | some base =>
      let url := resolveOn base rendered
      if (resolveOn base (staticPart path)).pathname.isPrefixOf url.pathname then .ok url
      else .error .outsideTemplate

/-- The params of a call to the URL, in their places. -/
def requestTo (url : SpecialUrl) (rules : Rules Number) (bag : Bag Number) :
    Except HttpProblem (HttpRequest Number) :=
  match routeParams numbers casing rules ⟨[], [], url.searchParams⟩ bag.members with
  | .error problem => .error problem
  | .ok routed =>
      if rules.method = js "GET" ∨ rules.method = js "HEAD" then
        match addToQuery numbers routed.searchParams routed.remaining with
        | .error problem => .error problem
        | .ok searchParams =>
            .ok ⟨{ url with searchParams := searchParams }, rules.method, none, routed.headerParams⟩
      else
        .ok ⟨{ url with searchParams := routed.searchParams }, rules.method,
          if routed.remaining = [] then none else some routed.remaining, routed.headerParams⟩

def request (gate : HttpGate Number) (binding : Binding) (params_schema : JsMembers Number)
    (bag : Bag Number) : Except HttpProblem (HttpRequest Number) :=
  match binding with
  | .other kind => .error (.bindingKindMismatch kind)
  | .http method path =>
      match renderPath numbers bag path with
      | .error problem => .error problem
      | .ok rendered =>
          match urlOf parseUrl gate.baseUrl path rendered with
          | .error problem => .error problem
          | .ok url =>
              match credentialHeaders numbers gate.credential with
              | none => .error (.notAText (js "headers"))
              | some headers =>
                  requestTo numbers casing url
                    { params_schema := params_schema
                      method := casing.toUpperCase method
                      used := templateParams path
                      fixedQuery := fixedQueryOf casing (url.searchParams.map Prod.fst)
                      injected := INJECTED_HEADER_NAMES ++
                        headers.map fun header => casing.toLowerCase header.1 }
                    bag

end

end NextTime.HttpBinding
