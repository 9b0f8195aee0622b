import NextTime.Ssh.CommandTemplate

/-
One param is one part of one shell word: the rendered command is cut as the template is,
with the param's value in the place of its placeholder. It is not where the template's own
text makes something else of the value's first unit, or of a number.
-/

namespace NextTime.Ssh

open JsString (js)
open ShellWords

/-! ### Safe units -/

theorem ne_of_safe {unit other : UInt16} (safe : isSafeUnit unit = true)
    (notSafe : isSafeUnit other = false) : (unit == other) = false := by
  rw [beq_eq_false_iff_ne]
  intro same
  rw [same, notSafe] at safe
  cases safe

/-- A safe unit is a unit of a word and nothing else. -/
theorem plain_safe {Hole : Type} {unit : UInt16} (safe : isSafeUnit unit = true) {scan : Scan}
    (goesOn : scan.continues unit = false) (digits : Bool) :
    (plainMarks scan digits unit : List (Mark Hole)) = [.char unit] ∧
      scan.plainNext unit = { scan with inWord := true, operator := [] } := by
  have blank : isBlank unit = false := by
    rw [isBlank, ne_of_safe safe (by decide), ne_of_safe safe (by decide)]
    rfl
  have operator : isOperator unit = false := by
    rw [isOperator, ne_of_safe safe (by decide), ne_of_safe safe (by decide),
      ne_of_safe safe (by decide), ne_of_safe safe (by decide), ne_of_safe safe (by decide),
      ne_of_safe safe (by decide), ne_of_safe safe (by decide), ne_of_safe safe (by decide)]
    rfl
  have pattern : isPattern unit = false := by
    rw [isPattern, ne_of_safe safe (by decide), ne_of_safe safe (by decide),
      ne_of_safe safe (by decide)]
    rfl
  have tilde := @ne_of_safe _ 0x7E safe (by decide)
  have quote := @ne_of_safe _ 0x27 safe (by decide)
  have doubleQuote := @ne_of_safe _ 0x22 safe (by decide)
  have dollar := @ne_of_safe _ 0x24 safe (by decide)
  have backquote := @ne_of_safe _ 0x60 safe (by decide)
  have hash := @ne_of_safe _ 0x23 safe (by decide)
  constructor
  · simp [plainMarks, goesOn, quote, doubleQuote, dollar, backquote, blank, operator, hash, pattern,
      tilde]
  · simp [Scan.plainNext, goesOn, quote, doubleQuote, dollar, backquote, blank, operator, hash,
      tilde]

theorem continues_of_word {scan : Scan} (word : scan.operator = []) (unit : UInt16) :
    scan.continues unit = false := by
  rw [Scan.continues, word, List.nil_append, Bool.eq_false_iff]
  intro isOperator
  have long : OPERATORS.all (fun operator => 2 ≤ operator.length) = true := by decide
  have atLeast := List.all_eq_true.mp long [unit] (List.contains_iff_mem.mp isOperator)
  rw [List.length_singleton] at atLeast
  cases atLeast

/-! ### A quoted value -/

section
variable {Hole : Type}

/-- Safe units go on with the word they stand in. -/
theorem lex_safe {value : JsString} (safe : value.all isSafeUnit = true) (scan : Scan)
    (digits : Bool) (rest : JsString) :
    (lex scan.afterHole digits (value ++ rest) : List (Mark Hole)) =
      value.map .char ++ lex scan.afterHole (digits && value.all isDigit) rest := by
  induction value generalizing digits with
  | nil => rw [List.all_nil, Bool.and_true]; rfl
  | cons unit value ih =>
      rw [List.all_cons, Bool.and_eq_true] at safe
      have kept := @plain_safe Hole unit safe.1 scan.afterHole
        (continues_of_word rfl unit) digits
      have other := @ne_of_safe _ 0x5C safe.1 (by decide)
      have isMark : (marks scan.afterHole digits unit : List (Mark Hole)) = [.char unit] :=
        (marks_of_ne other _ digits).trans kept.1
      have isNext : scan.afterHole.next unit = scan.afterHole := (next_of_ne other _).trans kept.2
      have goesOn : digitsNext scan.afterHole digits unit = (digits && isDigit unit) :=
        @digitsNext_of_ne _ other scan.afterHole rfl digits
      rw [List.cons_append, lex, isMark, isNext, goesOn, ih safe.2, List.all_cons, Bool.and_assoc]
      rfl

/-- Inside quotes every unit is itself, a quote by way of leaving them. -/
theorem lex_quoted (value : JsString) (scan : Scan) (digits : Bool) (rest : JsString) :
    (lex { scan.afterHole with mode := .single } digits
        (value.flatMap quoteUnit ++ 0x27 :: rest) : List (Mark Hole)) =
      value.map .char ++ lex scan.afterHole false rest := by
  induction value generalizing digits with
  | nil => rfl
  | cons unit value ih =>
      rw [List.flatMap_cons, List.append_assoc, quoteUnit]
      by_cases quote : unit = 0x27
      · rw [if_pos quote, quote]
        -- Out of the quotes, a quote behind a backslash, and back into them.
        have out : (lex { scan.afterHole with mode := .single } digits
            ([0x27, 0x5C, 0x27, 0x27] ++ (value.flatMap quoteUnit ++ 0x27 :: rest)) :
              List (Mark Hole)) =
              .char 0x27 :: lex { scan.afterHole with mode := .single } false
                (value.flatMap quoteUnit ++ 0x27 :: rest) := rfl
        rw [out, ih]
        rfl
      · rw [if_neg quote]
        have isMark : (marks { scan.afterHole with mode := .single } digits unit :
            List (Mark Hole)) = [.char unit] := by
          change (if unit == 0x27 then [] else [Mark.char unit]) = _
          exact if_neg (by simpa using quote)
        have isNext : Scan.next { scan.afterHole with mode := .single } unit =
            { scan.afterHole with mode := .single } := by
          change (if unit == 0x27 then _ else _) = _
          exact if_neg (by simpa using quote)
        rw [List.singleton_append, lex, isMark, isNext, ih]
        rfl

/-- The first unit of a value as it stands in the command. -/
def firstUnit (value : JsString) : UInt16 := (shellQuote value).headD 0x27

theorem all_isSafeUnit_of_isDigit {value : JsString} (digits : value.all isDigit = true) :
    value.all isSafeUnit = true := by
  rw [List.all_eq_true] at digits ⊢
  intro unit isIn
  have range : 0x30 ≤ unit ∧ unit ≤ 0x39 := by simpa [isDigit] using digits unit isIn
  simp [isSafeUnit, range]

/-- The unit goes on with what is right before it: an operator, a parameter that a `$` starts,
the name of one, a tilde-prefix. -/
def joins (scan : Scan) (unit : UInt16) : Bool :=
  match scan.mode with
  | .plain => scan.continues unit
  | .dollar => unit == 0x27 || isParameter unit
  | .parameter => isNameUnit unit
  | .tilde => isTilde unit
  | _ => false

/-- Whether the word goes on as an unquoted number behind a value. -/
def digitsBehind (scan : Scan) (digits : Bool) (value : JsString) : Bool :=
  scan.countsDigits && (!scan.inWord || digits) && decide (value ≠ []) && value.all isDigit

theorem shellQuote_head (value : JsString) :
    (∃ rest, shellQuote value = firstUnit value :: rest) := by
  unfold firstUnit shellQuote
  split
  next safe =>
    cases value with
    | nil => cases safe
    | cons unit rest => exact ⟨rest, rfl⟩
  next => exact ⟨_, rfl⟩

theorem firstUnit_ne (value : JsString) {other : UInt16} (notSafe : isSafeUnit other = false)
    (notQuote : (0x27 == other) = false) : (firstUnit value == other) = false := by
  unfold firstUnit shellQuote
  split
  next safe =>
    cases value with
    | nil => exact notQuote
    | cons unit value =>
        rw [isShellSafeWord, List.all_cons, Bool.and_eq_true, Bool.and_eq_true] at safe
        exact ne_of_safe safe.2.1 notSafe
  next => exact notQuote

/-- Where the scan is for a unit that is not part of what comes before it. -/
def settled (scan : Scan) : Scan :=
  if scan.mode = .plain then scan else { scan with mode := .plain, operator := [] }

theorem continues_settled {scan : Scan} {unit : UInt16} (apart : joins scan unit = false) :
    (settled scan).continues unit = false := by
  unfold settled
  split
  next plain =>
    rw [joins, plain] at apart
    exact apart
  next => exact continues_of_word rfl unit

theorem settled_inWord (scan : Scan) :
    { settled scan with inWord := true, operator := [] } = scan.afterHole := by
  unfold settled
  split
  next plain => rw [Scan.afterHole, ← plain]
  next => rfl

/-- The marks of the unit that a value starts with, whatever unquoted place it stands in. -/
theorem lex_first {scan : Scan} (unquoted : scan.Unquoted) {unit : UInt16}
    (apart : joins scan unit = false) (notParenthesis : (unit == 0x28) = false)
    (notBackslash : (unit == 0x5C) = false) (digits : Bool) (rest : JsString) :
    (lex scan digits (unit :: rest) : List (Mark Hole)) =
      (if scan.mode = .dollar then [.char 0x24] else []) ++
        (plainMarks (settled scan) (decide (scan.mode = .plain) && digits) unit ++
          lex ((settled scan).plainNext unit)
            (scan.countsDigits && (!scan.inWord || digits) && isDigit unit) rest) := by
  rw [lex, marks_of_ne notBackslash, next_of_ne notBackslash,
    digitsNext_of_ne notBackslash unquoted]
  obtain ⟨mode, inWord, operator, nest, here⟩ := scan
  cases mode with
  | plain => rfl
  | substitution =>
      simp only [openMarks, Scan.openNext, notParenthesis]
      rfl
  | dollar =>
      obtain ⟨noQuote, notParameter⟩ := Bool.or_eq_false_iff.mp apart
      have noName := isNameStart_of_isParameter notParameter
      simp only [openMarks, Scan.openNext, dollarMarks, notParenthesis, noQuote, notParameter,
        noName]
      rfl
  | parameter =>
      have noName : isNameUnit unit = false := apart
      simp only [openMarks, Scan.openNext, noName]
      rfl
  | tilde =>
      have notTilde : isTilde unit = false := apart
      have noLogin := (Bool.or_eq_false_iff.mp notTilde).1
      simp only [openMarks, Scan.openNext, notTilde, noLogin]
      rfl
  | _ => cases unquoted

/-- A value in an unquoted place is a part of the word there, whatever it holds. -/
theorem lex_shellQuote {scan : Scan} (unquoted : scan.Unquoted) {value : JsString}
    (apart : joins scan (firstUnit value) = false) (digits : Bool) (rest : JsString) :
    (lex scan digits (shellQuote value ++ rest) : List (Mark Hole)) =
      (if scan.mode = .dollar then [.char 0x24] else []) ++
        (value.map .char ++ lex scan.afterHole (digitsBehind scan digits value) rest) := by
  unfold firstUnit shellQuote at apart
  unfold shellQuote
  split
  next safe =>
    rw [if_pos safe] at apart
    cases value with
    | nil => cases safe
    | cons unit value =>
        rw [List.headD_cons] at apart
        rw [isShellSafeWord, List.all_cons, Bool.and_eq_true, Bool.and_eq_true] at safe
        have notParenthesis := @ne_of_safe _ 0x28 safe.2.1 (by decide)
        have notBackslash := @ne_of_safe _ 0x5C safe.2.1 (by decide)
        obtain ⟨isMark, isNext⟩ :=
          @plain_safe Hole _ safe.2.1 _ (continues_settled apart)
            (decide (scan.mode = .plain) && digits)
        rw [settled_inWord] at isNext
        have behind : digitsBehind scan digits (unit :: value) =
            ((scan.countsDigits && (!scan.inWord || digits) && isDigit unit) &&
              value.all isDigit) := by
          rw [digitsBehind, decide_eq_true (List.cons_ne_nil unit value), Bool.and_true,
            List.all_cons]
          simp only [Bool.and_assoc]
        rw [List.cons_append, lex_first unquoted apart notParenthesis notBackslash, isMark, isNext,
          lex_safe safe.2.2, behind]
        rfl
  next notSafe =>
    rw [if_neg notSafe, List.headD_cons] at apart
    -- The quote opens; what is inside stands for itself.
    have goesOn := continues_settled apart
    have isMark (digits : Bool) :
        (plainMarks (settled scan) digits 0x27 : List (Mark Hole)) = [] := by
      rw [plainMarks, goesOn]
      rfl
    have isNext : (settled scan).plainNext 0x27 = { scan.afterHole with mode := .single } := by
      rw [← settled_inWord, Scan.plainNext, goesOn]
      rfl
    have notDigits : digitsBehind scan digits value = false := by
      rw [Bool.eq_false_iff]
      intro areDigits
      simp only [digitsBehind, Bool.and_eq_true] at areDigits
      apply notSafe
      rw [isShellSafeWord, Bool.and_eq_true]
      exact ⟨areDigits.1.2, all_isSafeUnit_of_isDigit areDigits.2⟩
    rw [List.cons_append, List.append_assoc, List.singleton_append,
      lex_first unquoted apart (by decide) (by decide), isMark, isNext, List.nil_append, lex_quoted,
      notDigits]

/-- No operator goes on with a quote. -/
theorem continues_quote (scan : Scan) : scan.continues 0x27 = false := by
  rw [Scan.continues, Bool.eq_false_iff]
  intro isOperator
  have ends : OPERATORS.all (fun operator => operator.getLast? != some 0x27) = true := by decide
  have last := List.all_eq_true.mp ends _ (List.contains_iff_mem.mp isOperator)
  rw [List.getLast?_concat] at last
  cases last

/-- A value that goes on with what is before it is no part of the word. -/
theorem lex_shellQuote_ne {scan : Scan} {value : JsString}
    (joined : joins scan (firstUnit value) = true) (digits : Bool) (rest : JsString)
    (tail : List (Mark Hole)) :
    lex scan digits (shellQuote value ++ rest) ≠
      (if scan.mode = .dollar then [.char 0x24] else []) ++ (value.map .char ++ tail) := by
  obtain ⟨behind, same⟩ := shellQuote_head value
  have notParenthesis := @firstUnit_ne value 0x28 (by decide) (by decide)
  have notBackslash := @firstUnit_ne value 0x5C (by decide) (by decide)
  -- An empty value is written as quotes, which go on with nothing but a `$`.
  have placed {mark : Mark Hole} {marks : List (Mark Hole)} (quote : firstUnit value ≠ 0x27)
      (notChar : ∀ unit, mark ≠ .char unit) : mark :: marks ≠ value.map .char ++ tail := by
    intro first
    cases held : value with
    | nil => exact quote (held ▸ rfl)
    | cons unit units =>
        rw [held] at first
        exact notChar unit (List.cons.inj first).1
  rw [same, List.cons_append, lex, marks_of_ne notBackslash]
  obtain ⟨mode, inWord, operator, nest, here⟩ := scan
  cases mode with
  | plain =>
      have goesOn : Scan.continues _ (firstUnit value) = true := joined
      simp only [openMarks, plainMarks, goesOn, if_true]
      apply placed
      · intro quote
        rw [quote, continues_quote] at goesOn
        cases goesOn
      · intro unit isChar
        cases isChar
  | dollar =>
      have starts : (firstUnit value == 0x27 || isParameter (firstUnit value)) = true := joined
      simp only [openMarks, dollarMarks, notParenthesis, Bool.false_or, starts, if_true]
      intro first
      cases (List.cons.inj first).1
  | parameter =>
      have goesOn : isNameUnit (firstUnit value) = true := joined
      simp only [openMarks, goesOn, if_true]
      apply placed
      · intro quote
        rw [quote] at goesOn
        cases goesOn
      · intro unit isChar
        cases isChar
  | tilde =>
      have goesOn : isTilde (firstUnit value) = true := joined
      simp only [openMarks, goesOn, if_true]
      apply placed
      · intro quote
        rw [quote] at goesOn
        cases goesOn
      · intro unit isChar
        cases isChar
  | _ => cases joined

/-! ### A whole line -/

/-- No value goes on with what the template has right before it, and none makes a number of
the word that a redirection follows. `digits` and `own` tell whether the word so far is an
unquoted number with the values in it, and as the template writes it. -/
def Inert (value : Hole → JsString) (scan : Scan) (digits own : Bool) :
    List (Piece Hole) → Prop
  | [] => True
  | .unit unit :: rest =>
      (scan.mode = .plain ∧ scan.inWord = true ∧ scan.continues unit = false ∧
          isRedirect unit = true → digits = own) ∧
        Inert value (scan.next unit) (digitsNext scan digits unit) (digitsNext scan own unit) rest
  | .hole name :: rest =>
      joins scan (firstUnit (value name)) = false ∧
        Inert value scan.afterHole (digitsBehind scan digits (value name)) false rest

/-- The command is cut as the template is, each value a part of the word its placeholder is
in, exactly when every value is inert where it stands. -/
theorem lex_quotedLine_iff (value : JsString → JsString) (pieces : List (Piece JsString)) :
    ∀ (scan : Scan) (digits own : Bool), HolesUnquoted scan pieces → (own = true → digits = true) →
      (lex scan digits (quotedLine value pieces) = fill value (lexPieces scan own pieces) ↔
        Inert value scan digits own pieces) := by
  induction pieces with
  | nil =>
      intro scan digits own _ _
      exact iff_of_true (fill_finish value scan).symm trivial
  | cons piece rest ih =>
      intro scan digits own unquoted fewer
      cases piece with
      | unit unit =>
          have later : digitsNext scan own unit = true → digitsNext scan digits unit = true := by
            cases own with
            | true => rw [fewer rfl]; exact id
            | false => exact digitsNext_mono scan digits unit
          have inner := ih (scan.next unit) (digitsNext scan digits unit)
            (digitsNext scan own unit) unquoted later
          change marks scan digits unit ++ lex _ _ (quotedLine value rest) =
            fill value (marks scan own unit ++ lexPieces _ _ rest) ↔ _
          rw [fill_append, fill_marks, Inert, ← inner]
          by_cases hazard : scan.mode = .plain ∧ scan.inWord = true ∧ scan.continues unit = false ∧
              isRedirect unit = true
          · rw [marks_number hazard.1 hazard.2.1 hazard.2.2.1 hazard.2.2.2,
              marks_number hazard.1 hazard.2.1 hazard.2.2.1 hazard.2.2.2]
            cases own with
            | true => simp [fewer rfl]
            | false =>
                cases digits with
                | true => simp [hazard]
                | false => simp
          · rw [marks_digits own hazard, List.append_cancel_left_eq]
            tauto
      | hole name =>
          have inner := ih scan.afterHole (digitsBehind scan digits (value name)) false unquoted.2
            (fun never => nomatch never)
          change lex scan digits (shellQuote (value name) ++ quotedLine value rest) =
            fill value (holeMarks scan name ++ lexPieces scan.afterHole false rest) ↔ _
          rw [fill_append, fill_holeMarks, Inert, ← inner]
          cases joined : joins scan (firstUnit (value name)) with
          | false =>
              rw [lex_shellQuote unquoted.1 joined, List.append_assoc, List.append_cancel_left_eq,
                List.append_cancel_left_eq]
              exact (and_iff_right rfl).symm
          | true =>
              apply iff_of_false
              · rw [List.append_assoc]
                exact lex_shellQuote_ne joined digits _ _
              · exact fun inert => Bool.false_ne_true inert.1.symm

end

/-! ### The resolved command -/

section
variable {Number : Type} {numbers : JsNumbers Number} {bag : Bag Number}
  {compiles : JsString → Bool} {matches' : JsString → JsString → Bool}

/-- The words and operators of a command are the template's, each param exactly where its
placeholder is, and no more. -/
def OneWordEach (numbers : JsNumbers Number) (bag : Bag Number) (template command : JsString) :
    Prop :=
  lex .start false command =
    fill (bag.value numbers) (lexPieces .start false (templatePieces template))

instance (numbers : JsNumbers Number) (bag : Bag Number) (template command : JsString) :
    Decidable (OneWordEach numbers bag template command) :=
  inferInstanceAs (Decidable (_ = _))

/-- The values of a template are inert: see `Inert`. -/
def InertIn (numbers : JsNumbers Number) (bag : Bag Number) (template : JsString) : Prop :=
  Inert (bag.value numbers) .start false false (templatePieces template)

/-- `ls -l {path}` with a command behind a semicolon for its path. -/
def listPath : JsString := js "ls -l " ++ [0x7B] ++ js "path" ++ [0x7D]

def reloadBag : Bag JsonText.NumberText where
  members := [(js "path", .str (js "eth0; reload"))]
  inherited _ := none

/-- `echo ${name}` with `HOME` for its name. -/
def echoName : JsString := js "echo $" ++ [0x7B] ++ js "name" ++ [0x7D]

def homeBag : Bag JsonText.NumberText where
  members := [(js "name", .str (js "HOME"))]
  inherited _ := none

end

end NextTime.Ssh
