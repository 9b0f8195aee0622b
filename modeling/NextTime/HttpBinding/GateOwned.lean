import NextTime.Library.JsCasing
import NextTime.Library.JsObject
import NextTime.Library.Pattern

/-
Which params of an http Operation set what only the gate's own configuration may: the rule
by names and places, and the params of a definition that it refuses.
-/

namespace NextTime.HttpBinding

open JsString (js trim)
open Pattern (seq alt start finish oneOf word words optional)

/-! ### Names -/

def IDENTITY_HEADERS : List JsString :=
  ["authorization", "proxy-authorization", "cookie", "cookie2", "set-cookie", "sudo",
    "remote-user", "x-remote-user", "x-scope-orgid", "openai-organization", "openai-project",
    "x-goog-user-project", "x-grafana-org-id", "x-vault-namespace", "x-tenant-id",
    "x-on-behalf-of"].map js

/-- `[-_]`. -/
def separator : Pattern := oneOf (js "-_")

/-- `(?:^|[-_])` and `(?:$|[-_])`. -/
def wordStart : Pattern := alt start separator

def wordEnd : Pattern := alt finish separator

def IDENTITY_HEADER_PATTERN : Pattern :=
  alt
    (seq start (Pattern.anyOf
      [seq (word "x-auth") separator, seq (word "x-webauth") separator,
        seq (optional (word "x-")) (seq (word "impersonate") separator),
        seq (word "x-forwarded-") (seq
          (alt (words ["user", "email", "preferred-username"])
            (seq (word "group") (optional (word "s")))) wordEnd),
        word "x-ms-client-principal", word "x-hasura-"]))
    (seq wordStart (seq
      (alt (words ["jwt", "assertion"]) (seq (word "run") (seq (optional separator) (word "as"))))
      wordEnd))

def ROUTING_HEADERS : List JsString :=
  ["host", "forwarded", "x-original-url", "x-original-uri", "x-rewrite-url",
    "x-method-override"].map js

def ROUTING_HEADER_PREFIX : Pattern := seq start (words ["x-forwarded-", "x-http-method"])

def CREDENTIAL_NAME : Pattern :=
  seq
    (Pattern.anyOf
      [words ["token", "apikey"],
        seq wordStart (seq
          (alt
            (words ["api", "access", "secret", "private", "subscription", "auth", "session",
              "security", "master", "client", "license", "app", "application", "consumer",
              "developer", "service"])
            (seq (word "function") (optional (word "s"))))
          (seq (optional separator) (word "key"))),
        words ["secret", "password", "passwd", "passphrase"],
        seq (word "credential") (optional (word "s")),
        seq wordStart (word "auth")])
    finish

/-- All of the pattern before its last `token$`. -/
def NOT_A_CREDENTIAL_WORD : Pattern :=
  seq (alt start (oneOf (js "-_$")))
    (seq (optional (seq (words ["next", "prev", "previous", "start"]) (optional separator)))
      (seq
        (words ["page", "paging", "pagination", "next", "prev", "previous", "continuation",
          "continue", "cursor", "scroll", "sync", "delta", "marker", "skip", "start", "starting",
          "resume", "after", "before", "forward", "backward", "offset", "idempotency"])
        (optional separator)))

def NOT_A_CREDENTIAL_TOKEN : Pattern := seq NOT_A_CREDENTIAL_WORD (seq (word "token") finish)

def isLowerOrDigit (unit : UInt16) : Bool :=
  (0x61 ≤ unit && unit ≤ 0x7A) || (0x30 ≤ unit && unit ≤ 0x39)

def isUpper (unit : UInt16) : Bool := 0x41 ≤ unit && unit ≤ 0x5A

/-- `replace(/([a-z0-9])([A-Z])/g, '$1_$2')`. -/
def splitCamel : JsString → JsString
  | first :: second :: rest =>
      if isLowerOrDigit first && isUpper second then first :: 0x5F :: splitCamel (second :: rest)
      else first :: splitCamel (second :: rest)
  | text => text

section
variable (casing : JsCasing)

def nameWords (name : JsString) : JsString := casing.toLowerCase (splitCamel (trim name))

def namesACredential (name : JsString) : Bool :=
  CREDENTIAL_NAME.test (casing.toLowerCase (trim name)) &&
    !NOT_A_CREDENTIAL_TOKEN.test (nameWords casing name)

def namesAnIdentity (lower : JsString) : Bool :=
  IDENTITY_HEADERS.contains lower || IDENTITY_HEADER_PATTERN.test lower

def isGateOwnedHeader (name : JsString) (injected : List JsString) : Bool :=
  let lower := casing.toLowerCase (trim name)
  namesAnIdentity lower || ROUTING_HEADERS.contains lower || ROUTING_HEADER_PREFIX.test lower ||
    injected.contains lower || namesACredential casing name

def GATE_OWNED_QUERY_PARAMS : List JsString := [js "sig", js "signature"]

/-- What a pre-signed URL's own names begin with. -/
def PRESIGNED_QUERY_PREFIX : Pattern :=
  seq start (seq (word "x-") (seq (words ["amz", "goog"]) (word "-")))

def isGateOwnedQueryParam (name : JsString) : Bool :=
  let lower := casing.toLowerCase (trim name)
  GATE_OWNED_QUERY_PARAMS.contains lower || PRESIGNED_QUERY_PREFIX.test lower ||
    namesAnIdentity lower || namesACredential casing name

def INJECTED_HEADER_NAMES : List JsString := [js "authorization", js "x-api-key"]

/-! ### Places -/

inductive GateOwnedParamLocation
  | header
  | query
  | cookie
  | binding
deriving DecidableEq, Repr

/-- Where a param, of its place and not of the path, would land that the gate owns. -/
def gateOwnedLocation (name : JsString) (location : Option JsString) (method : JsString)
    (fixedQuery injected : List JsString) : Option GateOwnedParamLocation :=
  if location = some (js "header") then
    if isGateOwnedHeader casing name injected then some .header else none
  else if location = some (js "cookie") then some .cookie
  else if location = some (js "query") ∨ method = js "GET" ∨ method = js "HEAD" then
    if fixedQuery.contains (casing.toLowerCase name) then some .binding
    else if isGateOwnedQueryParam casing name then some .query
    else none
  else none

/-- Lower-cased, of the keys of a query. -/
def fixedQueryOf (keys : List JsString) : List JsString := keys.map casing.toLowerCase

end

/-! ### Templates -/

/-- A path template is text and placeholders. -/
inductive Piece
  | unit (unit : UInt16)
  | param (name : JsString)
deriving DecidableEq, Repr

/-- A template behind the units since the last open brace, if one is open. -/
def piecesFrom : Option JsString → JsString → List Piece
  | none, [] => []
  | none, unit :: rest =>
      if unit = 0x7B then piecesFrom (some []) rest else .unit unit :: piecesFrom none rest
  | some name, [] => .unit 0x7B :: name.map .unit
  | some name, unit :: rest =>
      if unit = 0x7B then (.unit 0x7B :: name.map .unit) ++ piecesFrom (some []) rest
      else if unit = 0x7D then
        if name = [] then .unit 0x7B :: .unit 0x7D :: piecesFrom none rest
        else .param name :: piecesFrom none rest
      else piecesFrom (some (name ++ [unit])) rest

/-- The matches of `/\\{([^{}]+)\\}/g` and the text between them. -/
def templatePieces (path : JsString) : List Piece := piecesFrom none path

def paramNames (pieces : List Piece) : List JsString :=
  pieces.filterMap fun piece =>
    match piece with
    | .unit _ => none
    | .param name => some name

def templateParams (path : JsString) : List JsString := paramNames (templatePieces path)

/-- The text behind the first `?`, or none. -/
def queryPart : JsString → JsString
  | [] => []
  | unit :: rest => if unit = 0x3F then rest else queryPart rest

/-! ### Definitions -/

section
variable {Number : Type}

/-- The own members of a value, an array's under its indices. -/
def ownMembers : JsValue Number → JsMembers Number
  | .obj members => members
  | .arr items => items.zipIdx.map fun item => (js (toString item.2), item.1)
  | _ => []

/-- The params a schema declares. -/
def declared (params_schema : JsMembers Number) : JsMembers Number :=
  match params_schema.lookup (js "properties") with
  | some properties => ownMembers properties
  | none => []

inductive Binding
  | http (method path : JsString)
  | other (kind : JsString)
deriving DecidableEq, Repr

structure GateOwnedParam where
  param : JsString
  location : GateOwnedParamLocation
deriving DecidableEq, Repr

def ReportBefore (first second : GateOwnedParam) : Prop := first.param ≤ second.param

instance : DecidableRel ReportBefore :=
  fun first second => inferInstanceAs (Decidable (first.param ≤ second.param))

variable (casing : JsCasing)

/-- The `x-in` of a declared param, as it is compared. -/
def locationOf (property : JsValue Number) : Option JsString :=
  match (ownMembers property).lookup (js "x-in") with
  | some (.str location) => some (casing.toLowerCase (trim location))
  | _ => none

def paramLocation (params_schema : JsMembers Number) (name : JsString) : Option JsString :=
  ((declared params_schema).lookup name).bind (locationOf casing)

/-- The params of a definition that every call passing them would be refused for; `queryKeys`
are the keys of `new URLSearchParams(text)`. -/
def gateOwnedParamsOf (queryKeys : JsString → List JsString) (binding : Binding)
    (params_schema : JsMembers Number) : List GateOwnedParam :=
  match binding with
  | .other _ => []
  | .http method path =>
      let fixedQuery := fixedQueryOf casing (queryKeys (queryPart path))
      let found := ((JsValue.keys (declared params_schema)).filter fun name =>
          !(templateParams path).contains name).filterMap fun name =>
        (gateOwnedLocation casing name (paramLocation casing params_schema name)
          (casing.toUpperCase method) fixedQuery INJECTED_HEADER_NAMES).map fun location =>
            ⟨name, location⟩
      found.insertionSort ReportBefore

end

end NextTime.HttpBinding
