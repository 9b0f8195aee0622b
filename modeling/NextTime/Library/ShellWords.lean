import NextTime.Library.JsString

/-
How a POSIX shell cuts a command line into words and operators, before any expansion, one
unit after another. A line may have holes: a hole is a part of a word that stands for a
text. Nothing here names a particular program.
-/

namespace ShellWords

open JsString (js)

/-- What becomes of the units of a line, in order. `char` is a unit of a word that stands for
itself, quoted or not; `active` one that a later expansion reads; `expansion` the unit that
makes a `$` before it an expansion. -/
inductive Mark (Hole : Type)
  | char (unit : UInt16)
  | active (unit : UInt16)
  | expansion (unit : UInt16)
  | hole (name : Hole)
  | wordEnd
  | number
  | operator (continues : Bool) (unit : UInt16)
deriving DecidableEq, Repr

/-- Where a closing parenthesis leads back to. -/
inductive Frame
  | group
  | word
  | double
deriving DecidableEq, Repr

inductive Mode
  | plain
  | escape (behind : Mode)
  | single
  | double
  | doubleEscape
  | dollar
  | doubleDollar
  | parameter
  | doubleParameter
  | tilde
  | dollarSingle
  | dollarSingleEscape
  | substitution
  | arithmetic (depth : Nat) (quoted : Bool)
  | backquote (quoted : Bool)
  | backquoteEscape (quoted : Bool)
  | comment
  | hereDocument
deriving DecidableEq, Repr

/-- Whether a unit that comes next is an unquoted one. -/
def Mode.isUnquoted : Mode → Bool
  | plain => true
  | substitution => true
  | dollar => true
  | parameter => true
  | tilde => true
  | _ => false

/-- Where the shell is in a line: `operator` is the operator right before, `here` tells that
the next line is a here-document. -/
structure Scan where
  mode : Mode
  inWord : Bool
  operator : JsString
  nest : List Frame
  here : Bool
deriving DecidableEq, Repr

def Scan.start : Scan := ⟨.plain, false, [], [], false⟩

/-- The operators that go on behind a first unit. -/
def OPERATORS : List JsString :=
  [js "&&", js "||", js ";;", js "<<", js ">>", js "<&", js ">&", js "<>", js "<<-", js ">|"]

def isBlank (unit : UInt16) : Bool := unit == 0x20 || unit == 0x09

/-- `&`, `|`, `;`, `<`, `>`, `(`, `)` and a line's end. -/
def isOperator (unit : UInt16) : Bool :=
  unit == 0x26 || unit == 0x7C || unit == 0x3B || unit == 0x3C || unit == 0x3E || unit == 0x28 ||
    unit == 0x29 || unit == 0x0A

def isRedirect (unit : UInt16) : Bool := unit == 0x3C || unit == 0x3E

def isDigit (unit : UInt16) : Bool := 0x30 ≤ unit && unit ≤ 0x39

def isNameUnit (unit : UInt16) : Bool :=
  isDigit unit || (0x41 ≤ unit && unit ≤ 0x5A) || (0x61 ≤ unit && unit ≤ 0x7A) || unit == 0x5F

/-- What makes a `$` before it the start of a parameter: a name, a digit, `@`, `*`, `#`, `?`,
`-`, `$`, `!` or a brace. -/
def isParameter (unit : UInt16) : Bool :=
  isNameUnit unit || unit == 0x40 || unit == 0x2A || unit == 0x23 || unit == 0x3F ||
    unit == 0x2D || unit == 0x24 || unit == 0x21 || unit == 0x7B

/-- What the name of a parameter starts with that goes on behind its first unit. -/
def isNameStart (unit : UInt16) : Bool := isNameUnit unit && !isDigit unit

/-- `*`, `?` and `[`. -/
def isPattern (unit : UInt16) : Bool := unit == 0x2A || unit == 0x3F || unit == 0x5B

/-- What goes on with the login name behind a tilde: no slash, and nothing that quotes, expands
or ends the word. -/
def isLogin (unit : UInt16) : Bool :=
  !(unit == 0x2F || unit == 0x27 || unit == 0x22 || unit == 0x24 || unit == 0x60 || isBlank unit ||
    isOperator unit)

/-- What a tilde-prefix goes on with, or the slash that makes an expansion of it. -/
def isTilde (unit : UInt16) : Bool := isLogin unit || unit == 0x2F

section
variable {Hole : Type}

/-- The end of the word before, if there is one; `digits` tells that it is an unquoted
number. -/
def wordEnd (scan : Scan) (digits : Bool) (unit : UInt16) : List (Mark Hole) :=
  if scan.inWord then [if digits && isRedirect unit then .number else .wordEnd] else []

/-! ### An unquoted unit -/

def Scan.continues (scan : Scan) (unit : UInt16) : Bool :=
  OPERATORS.contains (scan.operator ++ [unit])

def plainMarks (scan : Scan) (digits : Bool) (unit : UInt16) : List (Mark Hole) :=
  if scan.continues unit then [.operator true unit]
  else if unit == 0x27 || unit == 0x22 || unit == 0x24 then []
  else if unit == 0x60 then [.active unit]
  else if isBlank unit then wordEnd scan digits unit
  else if isOperator unit then wordEnd scan digits unit ++ [.operator false unit]
  else if unit == 0x23 && !scan.inWord then []
  else if isPattern unit || (unit == 0x7E && !scan.inWord) then [.active unit]
  else [.char unit]

/-- Behind an operator that goes on no further. -/
def Scan.afterOperator (scan : Scan) (unit : UInt16) : Scan :=
  let behind := { scan with inWord := false, operator := [unit] }
  if unit == 0x28 then { behind with operator := [], nest := .group :: scan.nest }
  else if unit == 0x29 then
    match scan.nest with
    | [] => { behind with operator := [] }
    | .group :: nest => { behind with operator := [], nest := nest }
    | .word :: nest => { behind with inWord := true, operator := [], nest := nest }
    | .double :: nest =>
        { behind with mode := .double, inWord := true, operator := [], nest := nest }
  else if unit == 0x0A then
    { behind with operator := [], mode := if scan.here then .hereDocument else .plain }
  else behind

def Scan.plainNext (scan : Scan) (unit : UInt16) : Scan :=
  let inside := { scan with inWord := true, operator := [] }
  if scan.continues unit then
    let operator := scan.operator ++ [unit]
    { scan with operator := operator, here := scan.here || operator == js "<<" }
  else if unit == 0x27 then { inside with mode := .single }
  else if unit == 0x22 then { inside with mode := .double }
  else if unit == 0x24 then { inside with mode := .dollar }
  else if unit == 0x60 then { inside with mode := .backquote false }
  else if isBlank unit then { scan with inWord := false, operator := [] }
  else if isOperator unit then scan.afterOperator unit
  else if unit == 0x23 && !scan.inWord then { scan with mode := .comment, operator := [] }
  else if unit == 0x7E && !scan.inWord then { inside with mode := .tilde }
  else inside

/-! ### Any unit -/

/-- What a unit becomes of `$` and itself. -/
def dollarMarks (scan : Scan) (unit : UInt16) : List (Mark Hole) :=
  if unit == 0x28 || unit == 0x27 || isParameter unit then [.expansion unit]
  else .char 0x24 :: plainMarks scan false unit

def doubleMarks (unit : UInt16) : List (Mark Hole) :=
  if unit == 0x22 || unit == 0x5C || unit == 0x24 then []
  else if unit == 0x60 then [.active unit]
  else [.char unit]

def Scan.doubleNext (scan : Scan) (unit : UInt16) : Scan :=
  if unit == 0x22 then { scan with mode := .plain }
  else if unit == 0x5C then { scan with mode := .doubleEscape }
  else if unit == 0x24 then { scan with mode := .doubleDollar }
  else if unit == 0x60 then { scan with mode := .backquote true }
  else { scan with mode := .double }

def backTo (quoted : Bool) : Mode := if quoted then .double else .plain

def openMarks (scan : Scan) (digits : Bool) (unit : UInt16) : List (Mark Hole) :=
  let word := { scan with mode := .plain, operator := [] }
  match scan.mode with
  | .plain => plainMarks scan digits unit
  | .escape behind =>
      if unit == 0x0A then []
      else if behind == .dollar then [.char 0x24, .char unit]
      else [.char unit]
  | .single => if unit == 0x27 then [] else [.char unit]
  | .double => doubleMarks unit
  | .doubleEscape =>
      if unit == 0x0A then []
      else if unit == 0x24 || unit == 0x60 || unit == 0x22 || unit == 0x5C then [.char unit]
      else [.char 0x5C, .char unit]
  | .dollar => dollarMarks word unit
  | .doubleDollar =>
      if unit == 0x28 || isParameter unit then [.expansion unit]
      else .char 0x24 :: doubleMarks unit
  | .parameter => if isNameUnit unit then [.active unit] else plainMarks word false unit
  | .doubleParameter => if isNameUnit unit then [.active unit] else doubleMarks unit
  | .tilde => if isTilde unit then [.active unit] else plainMarks word false unit
  | .dollarSingle => if unit == 0x27 || unit == 0x5C then [] else [.char unit]
  | .dollarSingleEscape => [.active unit]
  | .substitution =>
      if unit == 0x28 then [.expansion unit] else plainMarks word false unit
  | .arithmetic _ _ => [.active unit]
  | .backquote _ => [.active unit]
  | .backquoteEscape _ => [.active unit]
  | .comment => if unit == 0x0A then [.operator false unit] else []
  | .hereDocument => [.active unit]

/-- A backslash tells nothing before the unit behind it is known. -/
def marks (scan : Scan) (digits : Bool) (unit : UInt16) : List (Mark Hole) :=
  if scan.mode.isUnquoted && unit == 0x5C then [] else openMarks scan digits unit

def Scan.openNext (scan : Scan) (unit : UInt16) : Scan :=
  let plain := { scan with mode := .plain, operator := [] }
  match scan.mode with
  | .plain => scan.plainNext unit
  | .escape behind =>
      if unit == 0x0A then { scan with mode := behind } else { plain with inWord := true }
  | .single => if unit == 0x27 then plain else scan
  | .double => scan.doubleNext unit
  | .doubleEscape => { scan with mode := .double }
  | .dollar =>
      if unit == 0x28 then
        { plain with mode := .substitution, inWord := false, nest := .word :: scan.nest }
      else if unit == 0x27 then { plain with mode := .dollarSingle }
      else if isNameStart unit then { plain with mode := .parameter }
      else if isParameter unit then plain
      else plain.plainNext unit
  | .doubleDollar =>
      if unit == 0x28 then
        { plain with mode := .substitution, inWord := false, nest := .double :: scan.nest }
      else if isNameStart unit then { scan with mode := .doubleParameter }
      else if isParameter unit then { scan with mode := .double }
      else scan.doubleNext unit
  | .parameter => if isNameUnit unit then scan else plain.plainNext unit
  | .doubleParameter => if isNameUnit unit then scan else scan.doubleNext unit
  | .tilde => if isLogin unit then scan else plain.plainNext unit
  | .dollarSingle =>
      if unit == 0x27 then plain
      else if unit == 0x5C then { scan with mode := .dollarSingleEscape } else scan
  | .dollarSingleEscape => { scan with mode := .dollarSingle }
  | .substitution =>
      if unit == 0x28 then
        { scan with
          mode := .arithmetic 2 (scan.nest.head? == some .double)
          inWord := true
          nest := scan.nest.tail }
      else plain.plainNext unit
  | .arithmetic depth quoted =>
      if unit == 0x28 then { scan with mode := .arithmetic (depth + 1) quoted }
      else if unit == 0x29 then
        { scan with mode := if depth ≤ 1 then backTo quoted else .arithmetic (depth - 1) quoted }
      else scan
  | .backquote quoted =>
      if unit == 0x60 then { scan with mode := backTo quoted }
      else if unit == 0x5C then { scan with mode := .backquoteEscape quoted } else scan
  | .backquoteEscape quoted => { scan with mode := .backquote quoted }
  | .comment => if unit == 0x0A then plain.afterOperator unit else scan
  | .hereDocument => scan

/-- Behind a backslash a newline is as if neither were there. -/
def Scan.next (scan : Scan) (unit : UInt16) : Scan :=
  if scan.mode.isUnquoted && unit == 0x5C then { scan with mode := .escape scan.mode }
  else scan.openNext unit

def Scan.countsDigits (scan : Scan) : Bool := scan.mode == .plain || scan.mode == .substitution

/-- Whether the word goes on as an unquoted number. -/
def digitsNext (scan : Scan) (digits : Bool) (unit : UInt16) : Bool :=
  if scan.mode.isUnquoted && unit == 0x5C then digits
  else
    match scan.mode with
    | .escape _ => digits && unit == 0x0A
    | _ => scan.countsDigits && (!scan.inWord || digits) && isDigit unit

/-- What is left at the end of a line. -/
def finish (scan : Scan) : List (Mark Hole) :=
  if scan.mode == .dollar || scan.mode == .escape .dollar then [.char 0x24, .wordEnd]
  else if scan.inWord then [.wordEnd]
  else []

/-- The words and operators of a line. -/
def lex (scan : Scan) (digits : Bool) : JsString → List (Mark Hole)
  | [] => finish scan
  | unit :: rest =>
      marks scan digits unit ++ lex (scan.next unit) (digitsNext scan digits unit) rest

/-! ### Lines with holes -/

inductive Piece (Hole : Type)
  | unit (unit : UInt16)
  | hole (name : Hole)
deriving DecidableEq, Repr

/-- Nothing quotes what comes next. -/
def Scan.Unquoted (scan : Scan) : Prop := scan.mode.isUnquoted = true

instance (scan : Scan) : Decidable scan.Unquoted := inferInstanceAs (Decidable (_ = _))

/-- A hole is part of no name: a `$` before it stands for itself, and what is read as a name
ends there. -/
def holeMarks (scan : Scan) (name : Hole) : List (Mark Hole) :=
  (if scan.mode = .dollar then [.char 0x24] else []) ++ [.hole name]

def Scan.afterHole (scan : Scan) : Scan :=
  { scan with mode := .plain, inWord := true, operator := [] }

/-- The words and operators of a line with holes. -/
def lexPieces (scan : Scan) (digits : Bool) : List (Piece Hole) → List (Mark Hole)
  | [] => finish scan
  | .unit unit :: rest =>
      marks scan digits unit ++ lexPieces (scan.next unit) (digitsNext scan digits unit) rest
  | .hole name :: rest => holeMarks scan name ++ lexPieces scan.afterHole false rest

/-- No hole is quoted. -/
def HolesUnquoted (scan : Scan) : List (Piece Hole) → Prop
  | [] => True
  | .unit unit :: rest => HolesUnquoted (scan.next unit) rest
  | .hole _ :: rest => scan.Unquoted ∧ HolesUnquoted scan.afterHole rest

instance decidableHolesUnquoted : ∀ (scan : Scan) (pieces : List (Piece Hole)),
    Decidable (HolesUnquoted scan pieces)
  | _, [] => .isTrue trivial
  | scan, .unit unit :: rest => decidableHolesUnquoted (scan.next unit) rest
  | scan, .hole _ :: rest =>
      have := decidableHolesUnquoted scan.afterHole rest
      inferInstanceAs (Decidable (_ ∧ _))

/-- The marks with a text in the place of every hole. -/
def fill (text : Hole → JsString) (marks : List (Mark Hole)) : List (Mark Hole) :=
  marks.flatMap fun mark =>
    match mark with
    | .hole name => (text name).map .char
    | mark => [mark]

theorem fill_append (text : Hole → JsString) (front back : List (Mark Hole)) :
    fill text (front ++ back) = fill text front ++ fill text back :=
  List.flatMap_append

/-! ### A line has no holes -/

variable (text : Hole → JsString)

theorem fill_wordEnd (scan : Scan) (digits : Bool) (unit : UInt16) :
    fill text (wordEnd scan digits unit) = wordEnd scan digits unit := by
  unfold wordEnd
  split_ifs <;> rfl

theorem fill_plainMarks (scan : Scan) (digits : Bool) (unit : UInt16) :
    fill text (plainMarks scan digits unit) = plainMarks scan digits unit := by
  unfold plainMarks
  split_ifs with _ _ _ blank operator
  · rfl
  · rfl
  · rfl
  · exact fill_wordEnd text scan digits unit
  · rw [fill_append, fill_wordEnd]
    rfl
  · rfl
  · rfl
  · rfl

theorem fill_dollarMarks (scan : Scan) (unit : UInt16) :
    fill text (dollarMarks scan unit) = dollarMarks scan unit := by
  unfold dollarMarks
  split
  next => rfl
  next => exact congrArg (.char 0x24 :: ·) (fill_plainMarks text scan false unit)

theorem fill_doubleMarks (unit : UInt16) :
    fill text (doubleMarks unit) = doubleMarks unit := by
  unfold doubleMarks
  split_ifs <;> rfl

theorem fill_openMarks (scan : Scan) (digits : Bool) (unit : UInt16) :
    fill text (openMarks scan digits unit) = openMarks scan digits unit := by
  unfold openMarks
  split
  · exact fill_plainMarks text scan digits unit
  · split_ifs <;> rfl
  · split_ifs <;> rfl
  · exact fill_doubleMarks text unit
  · split_ifs <;> rfl
  · exact fill_dollarMarks text _ unit
  · split
    next => rfl
    next => exact congrArg (.char 0x24 :: ·) (fill_doubleMarks text unit)
  · split
    next => rfl
    next => exact fill_plainMarks text _ false unit
  · split
    next => rfl
    next => exact fill_doubleMarks text unit
  · split
    next => rfl
    next => exact fill_plainMarks text _ false unit
  · split_ifs <;> rfl
  · rfl
  · split
    next => rfl
    next => exact fill_plainMarks text _ false unit
  · rfl
  · rfl
  · rfl
  · split_ifs <;> rfl
  · rfl

theorem fill_marks (scan : Scan) (digits : Bool) (unit : UInt16) :
    fill text (marks scan digits unit) = marks scan digits unit := by
  unfold marks
  split
  next => rfl
  next => exact fill_openMarks text scan digits unit

theorem fill_finish (scan : Scan) : fill text (finish scan) = finish scan := by
  unfold finish
  split_ifs <;> rfl

theorem fill_holeMarks (scan : Scan) (name : Hole) : fill text (holeMarks scan name) =
    (if scan.mode = .dollar then [.char 0x24] else []) ++ (text name).map .char := by
  have itself : fill text [Mark.hole name] = (text name).map .char := List.append_nil _
  unfold holeMarks
  rw [fill_append, itself]
  split
  next => rfl
  next => rfl

/-! ### Units that are no backslash -/

section
variable {unit : UInt16} (other : (unit == 0x5C) = false)
include other

theorem marks_of_ne (scan : Scan) (digits : Bool) :
    (marks scan digits unit : List (Mark Hole)) = openMarks scan digits unit := by
  rw [marks, other, Bool.and_false, if_neg Bool.false_ne_true]

theorem next_of_ne (scan : Scan) : scan.next unit = scan.openNext unit := by
  rw [Scan.next, other, Bool.and_false, if_neg Bool.false_ne_true]

theorem digitsNext_of_ne {scan : Scan} (unquoted : scan.Unquoted) (digits : Bool) :
    digitsNext scan digits unit =
      (scan.countsDigits && (!scan.inWord || digits) && isDigit unit) := by
  rw [digitsNext, other, Bool.and_false, if_neg Bool.false_ne_true]
  split
  next escape =>
    rw [Scan.Unquoted, escape] at unquoted
    cases unquoted
  next => rfl

end

theorem isNameStart_of_isParameter {unit : UInt16} (other : isParameter unit = false) :
    isNameStart unit = false := by
  unfold isParameter at other
  simp only [Bool.or_eq_false_iff] at other
  rw [isNameStart, other.1.1.1.1.1.1.1.1, Bool.false_and]

/-! ### Numbers before a redirection -/

variable {text}

/-- What the template writes as a number is one with the values in it. -/
theorem digitsNext_mono (scan : Scan) (digits : Bool) (unit : UInt16)
    (own : digitsNext scan false unit = true) : digitsNext scan digits unit = true := by
  unfold digitsNext at own ⊢
  split at own
  next => cases own
  next goesOn =>
    rw [if_neg goesOn]
    split at own
    next => cases own
    next =>
      rw [Bool.or_false] at own
      rw [Bool.and_eq_true, Bool.and_eq_true] at own ⊢
      exact ⟨⟨own.1.1, Bool.or_eq_true_iff.mpr (.inl own.1.2)⟩, own.2⟩

/-- Whether a word is a number shows at a redirection, and nowhere else. -/
theorem marks_number {scan : Scan} {unit : UInt16} (plain : scan.mode = .plain)
    (inWord : scan.inWord = true) (stops : scan.continues unit = false)
    (redirect : isRedirect unit = true) (digits : Bool) :
    (marks scan digits unit : List (Mark Hole)) =
      [if digits then .number else .wordEnd, .operator false unit] := by
  have isUnit : unit = 0x3C ∨ unit = 0x3E := by
    rwa [isRedirect, Bool.or_eq_true, beq_iff_eq, beq_iff_eq] at redirect
  have other : (unit == 0x5C) = false := by
    rcases isUnit with same | same
    · rw [same]
      decide
    · rw [same]
      decide
  simp only [marks_of_ne other, openMarks, plain, plainMarks, stops, wordEnd, inWord, redirect,
    Bool.and_true]
  rcases isUnit with same | same
  · rw [same]
    rfl
  · rw [same]
    rfl

theorem marks_digits {scan : Scan} {unit : UInt16} {digits : Bool} (own : Bool)
    (elsewhere : ¬(scan.mode = .plain ∧ scan.inWord = true ∧ scan.continues unit = false ∧
      isRedirect unit = true)) :
    (marks scan digits unit : List (Mark Hole)) = marks scan own unit := by
  unfold marks
  congr 1
  unfold openMarks
  split
  next plain =>
    unfold plainMarks wordEnd
    by_cases inWord : scan.inWord = true
    · by_cases goesOn : scan.continues unit = true
      · rw [if_pos goesOn, if_pos goesOn]
      · have notRedirect : isRedirect unit = false := by
          by_contra redirect
          rw [Bool.not_eq_false] at redirect
          exact elsewhere ⟨plain, inWord, Bool.eq_false_iff.mpr goesOn, redirect⟩
        simp only [notRedirect, Bool.and_false]
    · simp only [inWord]
      rfl
  all_goals rfl

end

end ShellWords
