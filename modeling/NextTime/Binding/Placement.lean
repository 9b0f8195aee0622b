import NextTime.Output.Meaning
import NextTime.Output.PathNodes

/-
The bindings of a step: what a plan says of them, when it is accepted, and how the input
of an attempt is put together from what the bindings take.
-/

namespace NextTime.Binding

open JsString (js)
open NextTime.Output

/-- One binding: the value at `path` of the output of step `from'` goes to the field `to'`. -/
structure StepBinding where
  to' : JsString
  from' : JsString
  path : JsString

/-- A step of a plan, as far as its bindings go. -/
structure PlanStep where
  key : JsString
  input : Option Output.JsonValue
  dependsOn : Option (List JsString)
  outputSchema : Option OutputSchema
  bindings : Option (List StepBinding)

abbrev Members := List (JsString × Output.JsonValue)

/-- The fields that a dotted target names. -/
def fieldsOf (to' : JsString) : List JsString := to'.splitOn 0x2E

/-! ### Where a value goes -/

/-- The members of an object, none of anything else. -/
def recordOf : Output.JsonValue → Members
  | .obj members => members
  | _ => []

def isRecord : Output.JsonValue → Bool
  | .obj _ => true
  | _ => false

/-- A copy of the object with the field defined, in the order objects have. -/
def define (field : JsString) (value : Output.JsonValue) (target : Members) : Members :=
  JsValue.ownOrder (OwnProperties.assign field value target)

/-- The object with the value at the fields, the objects on the way made or copied. -/
def placeAt (target : Members) : List JsString → Output.JsonValue → Members
  | [], _ => target
  | [field], value => define field value target
  | field :: rest, value =>
      let inner := (target.lookup field).elim [] recordOf
      define field (.obj (placeAt inner rest value)) target

/-! ### The checks of a plan -/

/-- Whether two bindings put their values at the same field, or one inside the other's. -/
def bindingTargetsOverlap (first second : StepBinding) : Bool :=
  first.to' == second.to' || (second.to' ++ js ".").isPrefixOf first.to' ||
    (first.to' ++ js ".").isPrefixOf second.to'

/-- Where an input already has a value that a binding would replace, behind `before`. -/
def writtenIn (before : List JsString) (target : Members) : List JsString → Option JsString
  | [] => none
  | field :: rest =>
      match target.lookup field with
      | none => none
      | some (.obj members) =>
          if rest.isEmpty then some (joined (js ".") (before ++ [field]))
          else writtenIn (before ++ [field]) members rest
      | some _ => some (joined (js ".") (before ++ [field]))

def writtenValueAt (input : Members) (to' : JsString) : Option JsString :=
  writtenIn [] input (fieldsOf to')

def bracketed (index : Nat) : JsString := js "bindings[" ++ js (Nat.repr index) ++ js "]"

section
variable (compilePath : CompilePath) (steps : JsString → Option PlanStep) (step : PlanStep)

def sourceProblems (where' : JsString) (binding : StepBinding) : List JsString :=
  if binding.from' = step.key then
    [where' ++ js ": takes from this step itself \u2014 a binding takes from a step this one " ++
      js "depends on"]
  else
    match steps binding.from' with
    | none =>
        [where' ++ js ": takes from step \"" ++ binding.from' ++ js "\", which is not in the plan"]
    | some upstream =>
        if !(step.dependsOn.getD []).contains binding.from' then
          [where' ++ js ": takes from step \"" ++ binding.from' ++
            js "\", which this step does not depend on \u2014 add it to dependsOn"]
        else if upstream.outputSchema.isNone then
          [where' ++ js ": step \"" ++ binding.from' ++
            js "\" declares no outputSchema \u2014 a binding takes only from a declared output"]
        else []

def pathProblems (where' : JsString) (binding : StepBinding) : List JsString :=
  let problems := bindingPathProblems compilePath binding.path
  problems.map (fun problem => where' ++ js ": " ++ problem) ++
    match (steps binding.from').bind (·.outputSchema) with
    | some schema =>
        if problems.isEmpty then
          (bindingSchemaProblems compilePath binding.path schema .output).map fun problem =>
            where' ++ js ": " ++ problem ++ js " of step \"" ++ binding.from' ++ js "\""
        else []
    | none => []

def overlapProblems (where' : JsString) (before : List StepBinding) (binding : StepBinding) :
    List JsString :=
  match before.findIdx? fun other => bindingTargetsOverlap other binding with
  | none => []
  | some earlier =>
      [where' ++ js ": puts its value at \"" ++ binding.to' ++ js "\", where " ++
        bracketed earlier ++ js " puts its own at \"" ++ (before[earlier]?.elim [] (·.to')) ++
          js "\""]

def writtenProblems (where' : JsString) (binding : StepBinding) : List JsString :=
  match step.input with
  | some (.obj members) =>
      match writtenValueAt members binding.to' with
      | some written =>
          [where' ++ js ": the input already has a value at \"" ++ written ++
            js "\" \u2014 take it out of the input, or bind another field"]
      | none => []
  | _ => []

/-- The problems of the bindings behind those in `before`. -/
def bindingProblemsFrom (before : List StepBinding) : List StepBinding → List JsString
  | [] => []
  | binding :: rest =>
      let where' := js "step \"" ++ step.key ++ js "\": " ++ bracketed before.length
      sourceProblems steps step where' binding ++ pathProblems compilePath steps where' binding ++
        overlapProblems where' before binding ++ writtenProblems step where' binding ++
          bindingProblemsFrom (before ++ [binding]) rest

def inputProblems : List JsString :=
  if step.input.any fun input => !isRecord input then
    [js "step \"" ++ step.key ++ js "\": the input must be an object when the step has " ++
      js "bindings \u2014 a binding fills a field of it"]
  else []

def bindingProblems : List JsString :=
  match step.bindings.getD [] with
  | [] => []
  | bindings => inputProblems step ++ bindingProblemsFrom compilePath steps step [] bindings

def MAX_STEP_BINDINGS : Nat := 16

/-- `StepBindingSchema`'s rule of a target: at most eight fields, none reserved. -/
def isBindingTarget (to' : JsString) : Bool :=
  (fieldsOf to').length ≤ 8 &&
    (fieldsOf to').all fun field =>
      isPlainKey field && field.length ≤ 64 && !RESERVED_FIELDS.contains field

/-- A step that `parsePlan` accepts, as far as its bindings go. -/
structure AcceptedStep : Prop where
  few : ∀ bindings ∈ step.bindings, 1 ≤ bindings.length ∧ bindings.length ≤ MAX_STEP_BINDINGS
  targets : ∀ binding ∈ step.bindings.getD [], isBindingTarget binding.to' = true
  json : ∀ input ∈ step.input, JsValue.Own input
  sound : bindingProblems compilePath steps step = []

end

/-! ### The input of an attempt -/

/-- An input with the value that a binding takes put in. -/
def placeTaken (input : Output.JsonValue) (taken : StepBinding × Output.JsonValue) : Output.JsonValue :=
  .obj (placeAt (recordOf input) (fieldsOf taken.1.to') taken.2)

/-- The input as written, an empty object when there is none. -/
def writtenInput (step : PlanStep) : Output.JsonValue := step.input.getD (.obj [])

/-- What an attempt starts with, or why it cannot start. -/
inductive AssembledInput
  | ready (input : Option Output.JsonValue)
  | blocked (detail : JsString)

section
variable (take : Nat → StepBinding → Except JsString Output.JsonValue)

def assembleFrom (index : Nat) (input : Output.JsonValue) : List StepBinding → AssembledInput
  | [] => .ready (some input)
  | binding :: rest =>
      match take index binding with
      | .error detail => .blocked detail
      | .ok value => assembleFrom (index + 1) (placeTaken input (binding, value)) rest

/-- `take` is what a binding takes of the outputs there are, or why it takes nothing. -/
def assembleStepInput (step : PlanStep) : AssembledInput :=
  match step.bindings.getD [] with
  | [] => .ready step.input
  | bindings =>
      assembleFrom take 0 (.obj (step.input.elim [] recordOf)) bindings

end

end NextTime.Binding
