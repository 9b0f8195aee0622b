import NextTime.Redaction.FieldMask
import Mathlib.Order.Lattice.Nat

/-
The walk over JSON text, or over the start of one, that replaces what lies under a
secret-named key: one pass with an explicit stack of the open objects and arrays.
-/

namespace NextTime.Redaction

open JsonText (parse)

def isJsonWhitespace (code : UInt16) : Bool :=
  code = 0x20 || code = 0x0A || code = 0x0D || code = 0x09

/-- A character of a number or of `true`, `false`, `null`. -/
def isJsonScalarChar (code : UInt16) : Bool :=
  (0x30 ≤ code && code ≤ 0x39) || (0x61 ≤ code && code ≤ 0x7A) ||
    (0x41 ≤ code && code ≤ 0x5A) || code = 0x2B || code = 0x2D || code = 0x2E

inductive JsonExpecting
  | key
  | colon
  | value
  | next
deriving DecidableEq, Repr

/-- An open object or array. -/
structure JsonFrame where
  array : Bool
  secret : Bool
  expecting : JsonExpecting
  keySecret : Bool
deriving DecidableEq, Repr

/-- How far behind an opening quote the closing one stands, or the text ends. -/
def jsonStringEnd : JsString → Nat
  | [] => 0
  | [code] => if code = 0x22 then 0 else 1
  | code :: next :: rest =>
      if code = 0x5C then jsonStringEnd rest + 2
      else if code = 0x22 then 0
      else jsonStringEnd (next :: rest) + 1

/-- A key as its literal decodes; the text between the quotes where it does not. -/
def decodedJsonKey (literal : JsString) : JsString :=
  match parse literal with
  | some (.str decoded) => decoded
  | _ => (literal.drop 1).dropLast

/-- What is copied or replaced so far, what is left of the text, and the frames, the innermost first. -/
structure Walk where
  stack : List JsonFrame
  /-- The outermost value is done. -/
  closed : Bool
  copied : JsString
  rest : JsString
  redactedValues : Nat
deriving DecidableEq, Repr

def atValue : List JsonFrame → Bool
  | [] => true
  | top :: _ => top.expecting = .value

def valueIsSecret : List JsonFrame → Bool
  | [] => false
  | top :: _ => top.secret || (!top.array && top.keySecret)

/-- The innermost frame, expecting something else. -/
def expect (expecting : JsonExpecting) : List JsonFrame → List JsonFrame
  | [] => []
  | top :: stack => { top with expecting } :: stack

def openFrame (array : Bool) (stack : List JsonFrame) : Option (List JsonFrame) :=
  if atValue stack then
    some ({ array, secret := valueIsSecret stack, expecting := if array then .value else .key,
            keySecret := false } :: expect .next stack)
  else none

def closeFrame (array : Bool) : List JsonFrame → Option (List JsonFrame)
  | [] => none
  | top :: stack =>
      if top.array = array ∧
          (top.expecting = .next ∨ top.expecting = if top.array then .value else .key) then
        some stack
      else none

def colonRead : List JsonFrame → Option (List JsonFrame)
  | [] => none
  | top :: stack =>
      if top.expecting = .colon then some ({ top with expecting := .value } :: stack) else none

def commaRead : List JsonFrame → Option (List JsonFrame)
  | [] => none
  | top :: stack =>
      if top.expecting = .next then
        some ({ top with expecting := if top.array then .value else .key, keySecret := false } ::
          stack)
      else none

/-- White space, a bracket, a colon or a comma. -/
def isPunctuation (code : UInt16) : Bool :=
  isJsonWhitespace code || code = 0x7B || code = 0x5B || code = 0x7D || code = 0x5D ||
    code = 0x3A || code = 0x2C

/-- The frames behind a character of that kind; none where the walk breaks off. -/
def punctuated (code : UInt16) (stack : List JsonFrame) : Option (List JsonFrame) :=
  if isJsonWhitespace code then some stack
  else if code = 0x7B then openFrame false stack
  else if code = 0x5B then openFrame true stack
  else if code = 0x7D then closeFrame false stack
  else if code = 0x5D then closeFrame true stack
  else if code = 0x3A then colonRead stack
  else commaRead stack

def isClosing (code : UInt16) : Bool := code = 0x7D || code = 0x5D

def Walk.punctuation (walk : Walk) (code : UInt16) (rest : JsString) : Option Walk :=
  (punctuated code walk.stack).map fun stack =>
    { walk with
      stack
      closed := isClosing code && stack.isEmpty
      copied := walk.copied ++ [code]
      rest }

/-- `"[redacted]"`, as JSON. -/
def MASK : JsString := 0x22 :: REDACTED ++ [0x22]

/-- A token behind which the walk goes on, replaced by the mask or copied. -/
def Walk.pass (walk : Walk) (replaced : Bool) (token rest : JsString) (stack : List JsonFrame) :
    Walk :=
  { walk with
    stack
    copied := walk.copied ++ if replaced then MASK else token
    rest
    redactedValues := walk.redactedValues + if replaced then 1 else 0 }

/-- Neither blank nor already the mask. -/
def isHiddenText (inner : JsString) : Bool :=
  decide (JsString.trim inner ≠ []) && decide (inner ≠ REDACTED)

section
variable (isSecretKey : JsString → Bool)

/-- A string literal, behind its opening quote. -/
def Walk.string (walk : Walk) (top : JsonFrame) (stack : List JsonFrame) (rest : JsString) :
    Option Walk :=
  let stop := jsonStringEnd rest
  let literal := 0x22 :: rest.take (stop + 1)
  match top.expecting with
  | .key =>
      if rest.length ≤ stop then none
      else
        let keySecret := isSecretKey (decodedJsonKey literal)
        some (walk.pass false literal (rest.drop (stop + 1))
          ({ top with keySecret, expecting := .colon } :: stack))
  | .value =>
      let replaced := valueIsSecret walk.stack && isHiddenText (rest.take stop)
      some (walk.pass replaced literal (rest.drop (stop + 1)) (expect .next walk.stack))
  | .colon => none
  | .next => none

def isNumberStart (code : UInt16) : Bool := code = 0x2D || (0x30 ≤ code && code ≤ 0x39)

/-- A number or a literal: a run of the characters they use. -/
def Walk.scalar (walk : Walk) (top : JsonFrame) (code : UInt16) (rest : JsString) :
    Option Walk :=
  let run := (code :: rest).takeWhile isJsonScalarChar
  if top.expecting ≠ .value ∨ run = [] then none
  else
    some (walk.pass (isNumberStart code && valueIsSecret walk.stack) run
      ((code :: rest).dropWhile isJsonScalarChar) (expect .next walk.stack))

/-- One turn of the loop; none where it ends. -/
def Walk.step (walk : Walk) : Option Walk :=
  if walk.closed then none
  else
    match walk.rest with
    | [] => none
    | code :: rest =>
        if isPunctuation code then walk.punctuation code rest
        else
          match walk.stack with
          | [] => none
          | top :: stack =>
              if code = 0x22 then walk.string isSecretKey top stack rest
              else walk.scalar top code rest

def Walk.run : Nat → Walk → Walk
  | 0, walk => walk
  | fuel + 1, walk =>
      match walk.step isSecretKey with
      | none => walk
      | some next => run fuel next

/-- The loop: every turn takes a character of the text or more. -/
def Walk.finish (walk : Walk) : Walk := walk.run isSecretKey walk.rest.length

def Walk.start (text : JsString) : Walk where
  stack := []
  closed := false
  copied := text.takeWhile isJsonWhitespace
  rest := text.dropWhile isJsonWhitespace
  redactedValues := 0

def Walk.output (walk : Walk) : JsString := walk.copied ++ walk.rest

def startsAsJson (text : JsString) : Bool :=
  match text.dropWhile isJsonWhitespace with
  | [] => false
  | first :: _ => first = 0x7B || first = 0x5B

def redactSecretFieldsInJsonText (text : JsString) : Scrubbed JsString :=
  if startsAsJson text then
    let walked := (Walk.start text).finish isSecretKey
    if walked.redactedValues = 0 then { value := text, redactedValues := 0 }
    else { value := walked.output, redactedValues := walked.redactedValues }
  else { value := text, redactedValues := 0 }

end

/-! ### What a turn does -/

section
variable {isSecretKey : JsString → Bool}

/-- A turn takes a token off the text, and copies it unless it counts a replacement. -/
structure StepEffect (walk next : Walk) (token shown : JsString) : Prop where
  nonempty : token ≠ []
  taken : walk.rest = token ++ next.rest
  copied : next.copied = walk.copied ++ shown
  counted : walk.redactedValues ≤ next.redactedValues
  same : next.redactedValues = walk.redactedValues → shown = token

theorem Walk.pass_effect {walk : Walk} {replaced : Bool} {token rest : JsString}
    {stack : List JsonFrame} (nonempty : token ≠ []) (taken : walk.rest = token ++ rest) :
    StepEffect walk (walk.pass replaced token rest stack) token
      (if replaced then MASK else token) := by
  constructor
  · exact nonempty
  · exact taken
  · rfl
  · exact Nat.le_add_right _ _
  · intro same
    cases replaced with
    | false => rfl
    | true => exact absurd same (Nat.succ_ne_self _)

theorem Walk.string_effect {walk next : Walk} {top : JsonFrame} {stack : List JsonFrame}
    {rest : JsString} (text : walk.rest = 0x22 :: rest)
    (stepped : walk.string isSecretKey top stack rest = some next) :
    ∃ token shown, StepEffect walk next token shown := by
  have taken : walk.rest =
      0x22 :: rest.take (jsonStringEnd rest + 1) ++ rest.drop (jsonStringEnd rest + 1) := by
    rw [text, List.cons_append, List.take_append_drop]
  rw [Walk.string] at stepped
  cases expecting : top.expecting with
  | key =>
      rw [expecting] at stepped
      dsimp only at stepped
      split at stepped
      next => cases stepped
      next =>
        rw [← Option.some.inj stepped]
        exact ⟨_, _, Walk.pass_effect (List.cons_ne_nil _ _) taken⟩
  | value =>
      rw [expecting] at stepped
      rw [← Option.some.inj stepped]
      exact ⟨_, _, Walk.pass_effect (List.cons_ne_nil _ _) taken⟩
  | colon =>
      rw [expecting] at stepped
      cases stepped
  | next =>
      rw [expecting] at stepped
      cases stepped

theorem Walk.scalar_effect {walk next : Walk} {top : JsonFrame} {code : UInt16}
    {rest : JsString} (text : walk.rest = code :: rest)
    (stepped : walk.scalar top code rest = some next) :
    ∃ token shown, StepEffect walk next token shown := by
  rw [Walk.scalar] at stepped
  split at stepped
  next => cases stepped
  next reads =>
    rw [← Option.some.inj stepped]
    have taken := List.takeWhile_append_dropWhile (p := isJsonScalarChar) (l := code :: rest)
    exact ⟨_, _, Walk.pass_effect (fun none => reads (.inr none)) (text.trans taken.symm)⟩

theorem Walk.step_effect {walk next : Walk} (stepped : walk.step isSecretKey = some next) :
    ∃ token shown, StepEffect walk next token shown := by
  rw [Walk.step] at stepped
  split at stepped
  next => cases stepped
  next =>
    cases text : walk.rest with
    | nil =>
        rw [text] at stepped
        cases stepped
    | cons code rest =>
        rw [text] at stepped
        dsimp only at stepped
        split at stepped
        next =>
          rw [Walk.punctuation, Option.map_eq_some_iff] at stepped
          obtain ⟨stack, _, isNext⟩ := stepped
          rw [← isNext]
          exact ⟨[code], [code], List.cons_ne_nil _ _, text, rfl, Nat.le_refl _, fun _ => rfl⟩
        next =>
          cases frames : walk.stack with
          | nil =>
              rw [frames] at stepped
              cases stepped
          | cons top stack =>
              rw [frames] at stepped
              dsimp only at stepped
              split at stepped
              next isQuote => exact Walk.string_effect (isQuote ▸ text) stepped
              next => exact Walk.scalar_effect text stepped

theorem Walk.step_shorter {walk next : Walk} (stepped : walk.step isSecretKey = some next) :
    next.rest.length < walk.rest.length := by
  obtain ⟨token, shown, effect⟩ := Walk.step_effect stepped
  rw [effect.taken, List.length_append]
  have := List.length_pos_of_ne_nil effect.nonempty
  omega

/-! ### The loop -/

theorem Walk.step_rest_nil {walk : Walk} (nothing : walk.rest = []) :
    walk.step isSecretKey = none := by
  rw [Walk.step, nothing]
  split
  next => rfl
  next => rfl

theorem Walk.run_succ (fuel : Nat) (walk : Walk) :
    walk.run isSecretKey (fuel + 1) =
      match walk.step isSecretKey with
      | none => walk
      | some next => next.run isSecretKey fuel :=
  rfl

/-- Fuel beyond the length of the text changes nothing. -/
theorem Walk.run_enough {fuel : Nat} {walk : Walk} (enough : walk.rest.length ≤ fuel) :
    walk.run isSecretKey fuel = walk.finish isSecretKey := by
  have stable : ∀ fuel, ∀ walk : Walk, walk.rest.length ≤ fuel →
      walk.run isSecretKey (fuel + 1) = walk.run isSecretKey fuel := by
    intro fuel
    induction fuel with
    | zero =>
        intro walk enough
        have nothing := List.length_eq_zero_iff.mp (Nat.le_zero.mp enough)
        rw [Walk.run_succ, Walk.step_rest_nil nothing]
        rfl
    | succ fuel ih =>
        intro walk enough
        rw [Walk.run_succ, Walk.run_succ]
        cases stepped : walk.step isSecretKey with
        | none => rfl
        | some next =>
            have shorter := Walk.step_shorter stepped
            exact ih next (by omega)
  rw [Walk.finish]
  induction fuel, enough using Nat.le_induction with
  | base => rfl
  | succ fuel enough ih => rw [stable fuel walk enough, ih]

theorem Walk.finish_stop {walk : Walk} (stops : walk.step isSecretKey = none) :
    walk.finish isSecretKey = walk := by
  rw [← Walk.run_enough (Nat.le_succ walk.rest.length), Walk.run_succ, stops]

theorem Walk.finish_step {walk next : Walk} (stepped : walk.step isSecretKey = some next) :
    walk.finish isSecretKey = next.finish isSecretKey := by
  have shorter := Walk.step_shorter stepped
  rw [← Walk.run_enough (Nat.le_succ walk.rest.length), Walk.run_succ, stepped]
  exact Walk.run_enough (Nat.le_of_lt shorter)

/-- What holds of a walk that stops and is carried back over a turn holds of the whole walk. -/
theorem Walk.finish_induction {motive : Walk → Walk → Prop}
    (stop : ∀ walk, motive walk walk)
    (turn : ∀ walk next last, walk.step isSecretKey = some next → motive next last →
      motive walk last) (walk : Walk) : motive walk (walk.finish isSecretKey) := by
  induction bound : walk.rest.length using Nat.strongRecOn generalizing walk with
  | _ length ih =>
      cases stepped : walk.step isSecretKey with
      | none =>
          rw [Walk.finish_stop stepped]
          exact stop walk
      | some next =>
          rw [Walk.finish_step stepped]
          have shorter := Walk.step_shorter stepped
          exact turn walk next _ stepped (ih _ (bound ▸ shorter) next rfl)

/-- What is copied stays. -/
theorem Walk.copied_finish (walk : Walk) :
    walk.copied <+: (walk.finish isSecretKey).copied := by
  apply Walk.finish_induction (motive := fun walk last => walk.copied <+: last.copied)
  · exact fun walk => List.prefix_rfl
  · intro walk next last stepped later
    obtain ⟨token, shown, effect⟩ := Walk.step_effect stepped
    rw [effect.copied] at later
    exact (List.prefix_append _ _).trans later

/-- A walk that replaces nothing shows the text. -/
theorem Walk.output_finish (walk : Walk) :
    walk.redactedValues ≤ (walk.finish isSecretKey).redactedValues ∧
      ((walk.finish isSecretKey).redactedValues = walk.redactedValues →
        (walk.finish isSecretKey).output = walk.output) := by
  apply Walk.finish_induction (motive := fun walk last =>
    walk.redactedValues ≤ last.redactedValues ∧
      (last.redactedValues = walk.redactedValues → last.output = walk.output))
  · exact fun walk => ⟨Nat.le_refl _, fun _ => rfl⟩
  · intro walk next last stepped later
    obtain ⟨token, shown, effect⟩ := Walk.step_effect stepped
    constructor
    · exact Nat.le_trans effect.counted later.1
    · intro same
      have sameNext : next.redactedValues = walk.redactedValues :=
        Nat.le_antisymm (same ▸ later.1) effect.counted
      rw [later.2 (same.trans sameNext.symm), Walk.output, Walk.output, effect.copied,
        effect.same sameNext, effect.taken, List.append_assoc]

theorem output_start (text : JsString) : (Walk.start text).output = text :=
  List.takeWhile_append_dropWhile

/-- Text that starts as JSON: what the loop leaves. -/
theorem redactSecretFieldsInJsonText_walk {text : JsString} (json : startsAsJson text = true) :
    redactSecretFieldsInJsonText isSecretKey text =
      { value := ((Walk.start text).finish isSecretKey).output
        redactedValues := ((Walk.start text).finish isSecretKey).redactedValues } := by
  rw [redactSecretFieldsInJsonText, if_pos json]
  dsimp only
  split
  next nothing =>
    have unchanged := (@Walk.output_finish isSecretKey (Walk.start text)).2 nothing
    rw [unchanged, output_start, nothing]
  next => rfl

end


end NextTime.Redaction
