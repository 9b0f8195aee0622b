import NextTime.Library.JsObject
import NextTime.Library.ShellWords

/-
The command an ssh Operation runs on its target: rendered from a template, each param one
shell word, or taken from the call and matched with the Operation's own pattern.
-/

namespace NextTime.Ssh

open JsString (js)
open ShellWords (Piece)

/-! ### Quoting -/

/-- `[A-Za-z0-9_./:@%+=,-]`. -/
def isSafeUnit (unit : UInt16) : Bool :=
  (0x41 ≤ unit && unit ≤ 0x5A) || (0x61 ≤ unit && unit ≤ 0x7A) || (0x30 ≤ unit && unit ≤ 0x39) ||
    (js "_./:@%+=,-").contains unit

/-- `SHELL_SAFE_WORD`. -/
def isShellSafeWord (value : JsString) : Bool := decide (value ≠ []) && value.all isSafeUnit

/-- A quote as `'\\''`, any other unit as it is. -/
def quoteUnit (unit : UInt16) : JsString :=
  if unit = 0x27 then [0x27, 0x5C, 0x27, 0x27] else [unit]

def shellQuote (value : JsString) : JsString :=
  if isShellSafeWord value then value else 0x27 :: (value.flatMap quoteUnit ++ [0x27])

/-! ### Templates -/

/-- A template behind the part of a placeholder's name read so far: `{` and as many units as
there are before the next `}`, one at least. -/
def piecesFrom : Option JsString → JsString → List (Piece JsString)
  | none, [] => []
  | none, unit :: rest =>
      if unit = 0x7B then piecesFrom (some []) rest else .unit unit :: piecesFrom none rest
  | some name, [] => .unit 0x7B :: name.map .unit
  | some name, unit :: rest =>
      if unit = 0x7D then
        if name = [] then .unit 0x7B :: .unit 0x7D :: piecesFrom none rest
        else .hole name :: piecesFrom none rest
      else piecesFrom (some (name ++ [unit])) rest

/-- The matches of `/\\{([^}]+)\\}/g` and the text between them. -/
def templatePieces (template : JsString) : List (Piece JsString) := piecesFrom none template

/-! ### Resolving -/

inductive Binding
  | ssh (command_template command_pattern : Option JsString)
  | other (kind : JsString)

inductive SshProblem
  | bindingKindMismatch (kind : JsString)
  | missingParam (name : JsString)
  | notAText (name : JsString)
  | commandRequired
  | invalidPattern
  | commandRejected
deriving DecidableEq, Repr

/-- A call's params: its own, and the text of what every object inherits under a name. -/
structure Bag (Number : Type) where
  members : JsMembers Number
  inherited : JsString → Option JsString

section
variable {Number : Type} (numbers : JsNumbers Number) (bag : Bag Number)

/-- `String(bag[name])`. -/
def Bag.text (name : JsString) : Except SshProblem JsString :=
  match bag.members.lookup name with
  | some value =>
      match JsValue.string numbers value with
      | some text => .ok text
      | none => .error (.notAText name)
  | none =>
      match bag.inherited name with
      | some text => .ok text
      | none => .error (.missingParam name)

def renderPieces : List (Piece JsString) → Except SshProblem JsString
  | [] => .ok []
  | .unit unit :: rest => do
      let rendered ← renderPieces rest
      .ok (unit :: rendered)
  | .hole name :: rest => do
      let value ← bag.text numbers name
      let rendered ← renderPieces rest
      .ok (shellQuote value ++ rendered)

variable (compiles : JsString → Bool) (matches' : JsString → JsString → Bool)

/-- The command from the call, for an Operation without a template. -/
def commandOfParams (command_pattern : Option JsString) : Except SshProblem JsString :=
  match bag.members.lookup (js "command") with
  | some (.str command) =>
      if command = [] then .error .commandRequired
      else
        match command_pattern with
        | none => .ok command
        | some pattern =>
            if pattern = [] then .ok command
            else if compiles pattern = false then .error .invalidPattern
            else if matches' pattern command then .ok command
            else .error .commandRejected
  | _ => .error .commandRequired

def resolveCommand : Binding → Except SshProblem JsString
  | .other kind => .error (.bindingKindMismatch kind)
  | .ssh command_template command_pattern =>
      match command_template with
      | some (first :: rest) => renderPieces numbers bag (templatePieces (first :: rest))
      | _ => commandOfParams bag compiles matches' command_pattern

/-! ### The command as a line -/

/-- The text of a param, where it has one. -/
def Bag.value (name : JsString) : JsString := ((bag.text numbers name).toOption).getD []

/-- A template with every placeholder as a quoted text. -/
def quotedLine (value : JsString → JsString) (pieces : List (Piece JsString)) : JsString :=
  pieces.flatMap fun piece =>
    match piece with
    | .unit unit => [unit]
    | .hole name => shellQuote (value name)

theorem renderPieces_eq {pieces : List (Piece JsString)} {command : JsString}
    (rendered : renderPieces numbers bag pieces = .ok command) :
    command = quotedLine (bag.value numbers) pieces := by
  induction pieces generalizing command with
  | nil =>
      cases rendered
      rfl
  | cons piece rest ih =>
      cases piece with
      | unit unit =>
          rw [renderPieces] at rendered
          cases renderedRest : renderPieces numbers bag rest with
          | error problem =>
              rw [renderedRest] at rendered
              cases rendered
          | ok text =>
              rw [renderedRest] at rendered
              cases rendered
              rw [quotedLine, List.flatMap_cons]
              exact congrArg (unit :: ·) (ih renderedRest)
      | hole name =>
          rw [renderPieces] at rendered
          cases found : bag.text numbers name with
          | error problem =>
              rw [found] at rendered
              cases rendered
          | ok value =>
              rw [found] at rendered
              cases renderedRest : renderPieces numbers bag rest with
              | error problem =>
                  rw [renderedRest] at rendered
                  cases rendered
              | ok text =>
                  rw [renderedRest] at rendered
                  cases rendered
                  have isValue : bag.value numbers name = value := by
                    rw [Bag.value, found]
                    rfl
                  rw [quotedLine, List.flatMap_cons, ih renderedRest]
                  simp only [isValue]
                  rfl

end

end NextTime.Ssh
