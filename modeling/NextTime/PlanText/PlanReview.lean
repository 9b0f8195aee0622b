import NextTime.PlanText.DocumentWalk

/-
The call arguments a plan holds, and the rest of it: how a read shows a plan, and when a
plan as written is refused for what it carries.
-/

namespace NextTime.PlanText

open JsString (js)

variable {Number : Type}

/-! ### The call arguments of a plan -/

/-- Where call arguments are inside a value. -/
inductive Shape
  | params
  | fields (named : List (JsString × Shape))
  | items (each : Shape)
  | kinds (kinds : List JsString) (shape : Shape)

/-- Whether the value's `kind` is one of these. -/
def hasKind (kinds : List JsString) : JsValue Number → Bool
  | .obj members =>
      (members.lookup (js "kind")).any fun kind =>
        match kind with
        | .str text => kinds.contains text
        | _ => false
  | _ => false

def withParams : Shape := .fields [(js "params", .params)]

def observation : Shape :=
  .kinds [js "observe_predicate", js "observe_absent"] (.fields [(js "check", withParams)])

def stepShape : Shape :=
  .fields
    [(js "input", .params),
      (js "reconcile",
        .items (.fields [(js "action", withParams), (js "check", withParams)])),
      (js "acceptance", .items observation)]

/-- A step's `input`, a reconcile declaration's action and check `params`, and every
acceptance observation's `params`. -/
def planShape : Shape :=
  .fields [(js "steps", .items stepShape), (js "acceptance", .items observation)]

def fieldPlace (place key : JsString) : JsString :=
  if place = [] then key else place ++ js "." ++ key

section
variable {State : Type}

/-- Each item mapped at its own place. -/
def mapItems (each : JsString → JsValue Number → State → JsValue Number × State)
    (place : JsString) (index : Nat) : List (JsValue Number) → State →
      List (JsValue Number) × State
  | [], state => ([], state)
  | item :: items, state =>
      let mapped := each (itemPath place index) item state
      let rest := mapItems each place (index + 1) items mapped.2
      (mapped.1 :: rest.1, rest.2)

/-- The field mapped, where there is one. -/
def mapField (each : JsString → JsValue Number → State → JsValue Number × State)
    (key place : JsString) (members : JsMembers Number) (state : State) :
    JsMembers Number × State :=
  match members.lookup key with
  | some inner =>
      let mapped := each (fieldPlace place key) inner state
      (OwnProperties.assign key mapped.1 members, mapped.2)
  | none => (members, state)

variable (map : JsString → JsValue Number → State → JsValue Number × State)

mutual

/-- A value with the call arguments of its shape mapped, one after another. -/
def mapShape : Shape → JsString → JsValue Number → State → JsValue Number × State
  | .params, place, value, state => map place value state
  | .fields named, place, .obj members, state =>
      let mapped := mapFields named place members state
      (.obj mapped.1, mapped.2)
  | .fields _, _, value, state => (value, state)
  | .items each, place, .arr items, state =>
      let mapped := mapItems (mapShape each) place 0 items state
      (.arr mapped.1, mapped.2)
  | .items _, _, value, state => (value, state)
  | .kinds kinds shape, place, value, state =>
      if hasKind kinds value then mapShape shape place value state else (value, state)

def mapFields : List (JsString × Shape) → JsString → JsMembers Number → State →
    JsMembers Number × State
  | [], _, members, state => (members, state)
  | (key, shape) :: named, place, members, state =>
      let mapped := mapField (mapShape shape) key place members state
      mapFields named place mapped.1 mapped.2

end

def mapPlanParams (plan : JsValue Number) (state : State) : JsValue Number × State :=
  mapShape map planShape [] plan state

end

/-! ### Reading a plan -/

section
variable (patterns : List ValuePattern) (isFinite : Number → Bool)
  (namesASecretField : JsString → Bool)

/-- Call arguments as every read shows them, added to what was found before. -/
def paramsAsRead (place : JsString) (params : JsValue Number) (found : Found) :
    JsValue Number × Found :=
  let read := redactSuspectedSecrets patterns isFinite namesASecretField true params
  (read.1,
    { count := found.count + read.2.count
      paths := found.paths ++ read.2.paths.map fun path =>
        if path = [] then place else place ++ js "." ++ path })

def MAX_REFUSAL_PATHS : Nat := 20

/-- The plan with its call arguments as every read shows them, and what was found. -/
def planParamsAsRead (plan : JsValue Number) : JsValue Number × Found :=
  let read := mapPlanParams (paramsAsRead patterns isFinite namesASecretField) plan ⟨0, []⟩
  (read.1, { read.2 with paths := read.2.paths.take MAX_REFUSAL_PATHS })

/-- The plan as every read shows it. -/
def planAsRead (isUnseen : Nat → Bool) (plan : JsValue Number) : JsValue Number :=
  shownFreeTextIn isUnseen patterns isFinite namesASecretField
    (planParamsAsRead patterns isFinite namesASecretField plan).1

/-! ### Refusing a plan as written -/

/-- `[12]` at the start of a path, as `.12`. -/
def dottedIndex (path : JsString) : Option (JsString × JsString) :=
  match path with
  | 0x5B :: rest =>
      let digits := rest.takeWhile JsonText.isDigit
      match digits, rest.drop digits.length with
      | _ :: _, 0x5D :: after => some (0x2E :: digits, after)
      | _, _ => none
  | _ => none

/-- A path with its positions after dots, the fuel being its length. -/
def dotted : Nat → JsString → JsString
  | 0, path => path
  | _ + 1, [] => []
  | fuel + 1, unit :: rest =>
      match dottedIndex (unit :: rest) with
      | some (index, after) => index ++ dotted fuel after
      | none => unit :: dotted fuel rest

def planPlace (path : JsString) : JsString :=
  let place := dotted path.length path
  if place = [] then js "plan" else js "plan." ++ place

inductive PlanRefusal
  | redactedTextSubmitted (field : JsString) (paths : List JsString)
  | textCarriesCredentials (field : JsString) (count : Nat) (paths : List JsString)

/-- The plan with its call arguments left out. -/
def withoutParams (plan : JsValue Number) : JsValue Number :=
  (mapPlanParams (fun _ _ (state : Unit) => (.obj [], state)) plan ()).1

def refusePlanCredentials (plan : JsValue Number) : Except PlanRefusal Unit :=
  let redacted := (redactedPathsIn patterns plan).map planPlace
  match redacted with
  | first :: _ => .error (.redactedTextSubmitted first redacted)
  | [] =>
      let found := (planParamsAsRead patterns isFinite namesASecretField plan).2
      let rest := findSuspectedSecrets patterns isFinite namesASecretField false
        (withoutParams plan)
      let count := found.count + rest.count
      if count = 0 then .ok ()
      else
        let refused := ((found.paths ++ rest.paths).map planPlace).eraseDups.take
          MAX_REFUSAL_PATHS
        .error (.textCarriesCredentials (refused.head?.getD (js "plan")) count refused)

end

end NextTime.PlanText
