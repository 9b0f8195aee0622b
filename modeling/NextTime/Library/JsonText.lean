import NextTime.Library.JsString

/-
The text of JSON: what is read of a text, with the members of an object in the
order they stand in and a repeated key kept, and how a value is written, on one
line or indented. Nothing here names a particular program.
-/

namespace JsonText

open JsString (js)

/-! ### Numbers -/

def isDigit (unit : UInt16) : Bool := 0x30 ≤ unit && unit ≤ 0x39

/-- A character of a number. -/
def isNumberUnit (unit : UInt16) : Bool :=
  isDigit unit || unit = 0x2B || unit = 0x2D || unit = 0x2E || unit = 0x45 || unit = 0x65

/-- What follows one digit or more. -/
def afterDigits : JsString → Option JsString
  | [] => none
  | first :: rest => if isDigit first then some (rest.dropWhile isDigit) else none

def afterSign : JsString → JsString
  | 0x2D :: rest => rest
  | text => text

/-- A zero, or digits that begin with another one. -/
def afterInteger : JsString → Option JsString
  | 0x30 :: rest => some rest
  | text => afterDigits text

def afterFraction : JsString → Option JsString
  | 0x2E :: rest => afterDigits rest
  | text => some text

def afterExponentSign : JsString → JsString
  | 0x2B :: rest => rest
  | 0x2D :: rest => rest
  | text => text

def afterExponent : JsString → Option JsString
  | 0x45 :: rest => afterDigits (afterExponentSign rest)
  | 0x65 :: rest => afterDigits (afterExponentSign rest)
  | text => some text

def isNumberText (text : JsString) : Bool :=
  decide ((((afterInteger (afterSign text)).bind afterFraction).bind afterExponent) = some [])

def NumberText : Type := { text : JsString // isNumberText text = true }

instance : DecidableEq NumberText := 
  inferInstanceAs (DecidableEq { text : JsString // isNumberText text = true })

/-! ### Values -/

inductive Json
  | null
  | bool (value : Bool)
  | num (text : NumberText)
  | str (value : JsString)
  | arr (items : List Json)
  | obj (members : List (JsString × Json))

/-! ### Strings -/

def isLeadSurrogate (unit : UInt16) : Bool := 0xD800 ≤ unit && unit ≤ 0xDBFF

def isTrailSurrogate (unit : UInt16) : Bool := 0xDC00 ≤ unit && unit ≤ 0xDFFF

def hexDigit (digit : Nat) : UInt16 :=
  if digit < 10 then UInt16.ofNat (0x30 + digit) else UInt16.ofNat (0x57 + digit)

def unicodeEscape (unit : UInt16) : JsString :=
  [0x5C, 0x75, hexDigit (unit.toNat / 4096 % 16), hexDigit (unit.toNat / 256 % 16),
    hexDigit (unit.toNat / 16 % 16), hexDigit (unit.toNat % 16)]

/-- A code unit that is no part of a pair. -/
def escapeUnit (unit : UInt16) : JsString :=
  if unit = 0x22 then [0x5C, 0x22]
  else if unit = 0x5C then [0x5C, 0x5C]
  else if unit = 0x08 then [0x5C, 0x62]
  else if unit = 0x0C then [0x5C, 0x66]
  else if unit = 0x0A then [0x5C, 0x6E]
  else if unit = 0x0D then [0x5C, 0x72]
  else if unit = 0x09 then [0x5C, 0x74]
  else if unit < 0x20 || isLeadSurrogate unit || isTrailSurrogate unit then unicodeEscape unit
  else [unit]

/-- The content of a string literal: a surrogate is escaped unless it is one of a pair. -/
def escape : JsString → JsString
  | [] => []
  | [unit] => escapeUnit unit
  | first :: second :: rest =>
      if isLeadSurrogate first && isTrailSurrogate second then first :: second :: escape rest
      else escapeUnit first ++ escape (second :: rest)

def quote (text : JsString) : JsString := 0x22 :: escape text ++ [0x22]

def hexValue (unit : UInt16) : Option Nat :=
  if isDigit unit then some (unit.toNat - 0x30)
  else if 0x61 ≤ unit && unit ≤ 0x66 then some (unit.toNat - 0x57)
  else if 0x41 ≤ unit && unit ≤ 0x46 then some (unit.toNat - 0x37)
  else none

/-- The code unit of four hexadecimal digits. -/
def hexUnit (first second third fourth : UInt16) : Option UInt16 :=
  match hexValue first, hexValue second, hexValue third, hexValue fourth with
  | some a, some b, some c, some d => some (UInt16.ofNat (a * 4096 + b * 256 + c * 16 + d))
  | _, _, _, _ => none

/-- The code unit of an escape of one letter. -/
def letterUnit (letter : UInt16) : Option UInt16 :=
  if letter = 0x22 then some 0x22
  else if letter = 0x5C then some 0x5C
  else if letter = 0x2F then some 0x2F
  else if letter = 0x62 then some 0x08
  else if letter = 0x66 then some 0x0C
  else if letter = 0x6E then some 0x0A
  else if letter = 0x72 then some 0x0D
  else if letter = 0x74 then some 0x09
  else none

/-- Of a text behind an opening quote: the string up to the closing one, and the rest. -/
def parseString : JsString → Option (JsString × JsString)
  | [] => none
  | 0x22 :: rest => some ([], rest)
  | 0x5C :: 0x75 :: a :: b :: c :: d :: rest =>
      match hexUnit a b c d with
      | none => none
      | some unit => (parseString rest).map fun read => (unit :: read.1, read.2)
  | 0x5C :: letter :: rest =>
      match letterUnit letter with
      | none => none
      | some unit => (parseString rest).map fun read => (unit :: read.1, read.2)
  | unit :: rest =>
      if unit < 0x20 || unit = 0x5C then none
      else (parseString rest).map fun read => (unit :: read.1, read.2)

/-! ### Reading -/

def isSpace (unit : UInt16) : Bool := unit = 0x20 || unit = 0x0A || unit = 0x0D || unit = 0x09

def skipSpace (text : JsString) : JsString := text.dropWhile isSpace

def parseLiteral (text : JsString) : Option (Json × JsString) :=
  if (js "true").isPrefixOf text then some (.bool true, text.drop 4)
  else if (js "false").isPrefixOf text then some (.bool false, text.drop 5)
  else if (js "null").isPrefixOf text then some (.null, text.drop 4)
  else
    let number := text.takeWhile isNumberUnit
    if valid : isNumberText number = true then
      some (.num ⟨number, valid⟩, text.dropWhile isNumberUnit)
    else none

mutual

/-- A value, behind white space. -/
def parseValue : Nat → JsString → Option (Json × JsString)
  | 0, _ => none
  | fuel + 1, text =>
      match skipSpace text with
      | 0x7B :: rest =>
          match skipSpace rest with
          | 0x7D :: rest => some (.obj [], rest)
          | rest => (parseMembers fuel rest).map fun read => (.obj read.1, read.2)
      | 0x5B :: rest =>
          match skipSpace rest with
          | 0x5D :: rest => some (.arr [], rest)
          | rest => (parseItems fuel rest).map fun read => (.arr read.1, read.2)
      | 0x22 :: rest => (parseString rest).map fun read => (.str read.1, read.2)
      | rest => parseLiteral rest

/-- The items up to the closing bracket. -/
def parseItems : Nat → JsString → Option (List Json × JsString)
  | 0, _ => none
  | fuel + 1, text =>
      match parseValue fuel text with
      | none => none
      | some (item, rest) =>
          match skipSpace rest with
          | 0x5D :: rest => some ([item], rest)
          | 0x2C :: rest => (parseItems fuel rest).map fun read => (item :: read.1, read.2)
          | _ => none

/-- The members up to the closing brace. -/
def parseMembers : Nat → JsString → Option (List (JsString × Json) × JsString)
  | 0, _ => none
  | fuel + 1, text =>
      match skipSpace text with
      | 0x22 :: rest =>
          match parseString rest with
          | none => none
          | some (key, rest) =>
              match skipSpace rest with
              | 0x3A :: rest =>
                  match parseValue fuel rest with
                  | none => none
                  | some (value, rest) =>
                      match skipSpace rest with
                      | 0x7D :: rest => some ([(key, value)], rest)
                      | 0x2C :: rest =>
                          (parseMembers fuel rest).map fun read => ((key, value) :: read.1, read.2)
                      | _ => none
              | _ => none
      | _ => none

end

/-- A text that is one value and white space; none where it is not JSON. -/
def parse (text : JsString) : Option Json :=
  match parseValue (2 * text.length + 2) text with
  | none => none
  | some (value, rest) => if skipSpace rest = [] then some value else none

/-! ### Writing -/

/-- Between two items: nothing where there is no gap, else a line feed and the indentation. -/
def newline (gap indent : JsString) : JsString := if gap = [] then [] else 0x0A :: indent

def colon (gap : JsString) : JsString := if gap = [] then [0x3A] else [0x3A, 0x20]

mutual

/-- `JSON.stringify(value, null, gap)`, at an indentation. -/
def stringify (gap indent : JsString) : Json → JsString
  | .null => js "null"
  | .bool true => js "true"
  | .bool false => js "false"
  | .num text => text.1
  | .str value => quote value
  | .arr [] => [0x5B, 0x5D]
  | .arr (item :: items) =>
      0x5B :: (newline gap (indent ++ gap) ++ stringify gap (indent ++ gap) item ++
        stringifyItems gap (indent ++ gap) items ++ newline gap indent ++ [0x5D])
  | .obj [] => [0x7B, 0x7D]
  | .obj ((key, value) :: members) =>
      0x7B :: (newline gap (indent ++ gap) ++ quote key ++ colon gap ++
        stringify gap (indent ++ gap) value ++ stringifyMembers gap (indent ++ gap) members ++
        newline gap indent ++ [0x7D])

/-- The items behind a first one. -/
def stringifyItems (gap indent : JsString) : List Json → JsString
  | [] => []
  | item :: items =>
      0x2C :: (newline gap indent ++ stringify gap indent item ++ stringifyItems gap indent items)

/-- The members behind a first one. -/
def stringifyMembers (gap indent : JsString) : List (JsString × Json) → JsString
  | [] => []
  | (key, value) :: members =>
      0x2C :: (newline gap indent ++ quote key ++ colon gap ++ stringify gap indent value ++
        stringifyMembers gap indent members)

end

/-! ### What is written is read back -/

theorem hexValue_hexDigit {digit : Nat} (small : digit < 16) :
    hexValue (hexDigit digit) = some digit := by
  have all : ∀ digit < 16, hexValue (hexDigit digit) = some digit := by decide
  exact all digit small

theorem hexUnit_digits (unit : UInt16) :
    hexUnit (hexDigit (unit.toNat / 4096 % 16)) (hexDigit (unit.toNat / 256 % 16))
      (hexDigit (unit.toNat / 16 % 16)) (hexDigit (unit.toNat % 16)) = some unit := by
  have small : ∀ number : Nat, number % 16 < 16 := fun number => Nat.mod_lt number (by decide)
  rw [hexUnit, hexValue_hexDigit (small _), hexValue_hexDigit (small _),
    hexValue_hexDigit (small _), hexValue_hexDigit (small _)]
  have bound : unit.toNat < 65536 := unit.toNat_lt
  have whole : unit.toNat / 4096 % 16 * 4096 + unit.toNat / 256 % 16 * 256 +
      unit.toNat / 16 % 16 * 16 + unit.toNat % 16 = unit.toNat := by
    omega
  dsimp only
  rw [whole, UInt16.ofNat_toNat]

/-- A character that stands for itself in a string literal. -/
structure Plain (unit : UInt16) : Prop where
  notQuote : unit ≠ 0x22
  notEscape : unit ≠ 0x5C
  notControl : ¬ unit < 0x20

theorem plain_of_ge {unit : UInt16} (high : 0xD800 ≤ unit) : Plain unit := by
  rw [UInt16.le_iff_toNat_le] at high
  constructor
  · intro same
    rw [same] at high
    exact absurd high (by decide)
  · intro same
    rw [same] at high
    exact absurd high (by decide)
  · intro low
    rw [UInt16.lt_iff_toNat_lt] at low
    have highNat : 55296 ≤ unit.toNat := high
    have lowNat : unit.toNat < 32 := low
    omega

theorem parseString_plain {unit : UInt16} (plain : Plain unit) (text : JsString) :
    parseString (unit :: text) = (parseString text).map fun read => (unit :: read.1, read.2) := by
  have readable : ¬ ((unit < 0x20 || unit = 0x5C) = true) := by
    rw [Bool.or_eq_true, decide_eq_true_eq, decide_eq_true_eq]
    intro either
    cases either with
    | inl low => exact plain.notControl low
    | inr same => exact plain.notEscape same
  rw [parseString.eq_def]
  split
  next => contradiction
  next same =>
    obtain ⟨isQuote, _⟩ := List.cons.inj same
    exact absurd isQuote plain.notQuote
  next same =>
    obtain ⟨isEscape, _⟩ := List.cons.inj same
    exact absurd isEscape plain.notEscape
  next same =>
    obtain ⟨isEscape, _⟩ := List.cons.inj same
    exact absurd isEscape plain.notEscape
  next same =>
    obtain ⟨sameUnit, sameRest⟩ := List.cons.inj same
    subst sameUnit sameRest
    rw [if_neg readable]

/-- A code unit as it is written: itself, an escape of one letter, or one of four digits. -/
inductive Written (unit : UInt16) : JsString → Prop
  | plain (isPlain : Plain unit) : Written unit [unit]
  | letter {letter : UInt16} (read : letterUnit letter = some unit)
      (escaped : unit = 0x22 ∨ unit = 0x5C ∨ unit < 0x20) : Written unit [0x5C, letter]
  | unicode (escaped : unit < 0x20 ∨ isLeadSurrogate unit = true ∨ isTrailSurrogate unit = true) :
      Written unit (unicodeEscape unit)

theorem written_escapeUnit (unit : UInt16) : Written unit (escapeUnit unit) := by
  rw [escapeUnit]
  split
  next same => rw [same]; exact .letter (by decide) (by decide)
  next notQuote =>
    split
    next same => rw [same]; exact .letter (by decide) (by decide)
    next notEscape =>
      split
      next same => rw [same]; exact .letter (by decide) (by decide)
      next =>
        split
        next same => rw [same]; exact .letter (by decide) (by decide)
        next =>
          split
          next same => rw [same]; exact .letter (by decide) (by decide)
          next =>
            split
            next same => rw [same]; exact .letter (by decide) (by decide)
            next =>
              split
              next same => rw [same]; exact .letter (by decide) (by decide)
              next =>
                split
                next escaped =>
                  rw [Bool.or_eq_true, Bool.or_eq_true, decide_eq_true_eq, or_assoc] at escaped
                  exact .unicode escaped
                next plain =>
                  simp only [Bool.or_eq_true, decide_eq_true_eq, not_or] at plain
                  exact .plain ⟨notQuote, notEscape, plain.1.1⟩

theorem parseString_letter {letter unit : UInt16} (read : letterUnit letter = some unit)
    (text : JsString) :
    parseString (0x5C :: letter :: text) =
      (parseString text).map fun read => (unit :: read.1, read.2) := by
  have notUnicode : letter ≠ 0x75 := by
    intro same
    have unread : letterUnit 0x75 = none := by decide
    rw [same, unread] at read
    cases read
  rw [parseString.eq_def]
  split
  next same => cases same
  next same => exact absurd (List.cons.inj same).1 (by decide)
  next same => exact absurd (List.cons.inj (List.cons.inj same).2).1 notUnicode
  next same =>
    obtain ⟨sameLetter, sameRest⟩ := List.cons.inj (List.cons.inj same).2
    rw [← sameLetter, ← sameRest, read]
  next distinct same =>
    obtain ⟨isEscape, sameRest⟩ := List.cons.inj same
    exact (distinct letter text isEscape.symm sameRest.symm).elim

theorem parseString_escapeUnit (unit : UInt16) (text : JsString) :
    parseString (escapeUnit unit ++ text) =
      (parseString text).map fun read => (unit :: read.1, read.2) := by
  have shape := written_escapeUnit unit
  generalize escapeUnit unit = written at shape ⊢
  cases shape with
  | plain isPlain => exact parseString_plain isPlain text
  | letter read escaped => exact parseString_letter read text
  | unicode escaped =>
      rw [unicodeEscape]
      simp only [List.cons_append, List.nil_append, parseString, hexUnit_digits]

theorem parseString_escape (value rest : JsString) :
    parseString (escape value ++ 0x22 :: rest) = some (value, rest) := by
  induction value using escape.induct with
  | case1 => rfl
  | case2 unit => rw [escape, parseString_escapeUnit]; rfl
  | case3 first second others pair ih =>
      rw [Bool.and_eq_true] at pair
      have lead := (Bool.and_eq_true_iff.mp pair.1).1
      have trail := (Bool.and_eq_true_iff.mp pair.2).1
      have trailHigh : (0xD800 : UInt16) ≤ second :=
        UInt16.le_trans (by decide) (of_decide_eq_true trail)
      rw [escape, if_pos (Bool.and_eq_true_iff.mpr pair), List.cons_append, List.cons_append,
        parseString_plain (plain_of_ge (of_decide_eq_true lead)),
        parseString_plain (plain_of_ge trailHigh), ih]
      rfl
  | case4 first second others apart ih =>
      rw [escape, if_neg apart, List.append_assoc, parseString_escapeUnit, ih]
      rfl

/-! ### Numbers are read back -/

theorem isNumberUnit_of_isDigit {unit : UInt16} (digit : isDigit unit = true) :
    isNumberUnit unit = true := by
  simp only [isNumberUnit, digit, Bool.true_or]

theorem afterDigits_some {text rest : JsString} (after : afterDigits text = some rest) :
    ∃ front, text = front ++ rest ∧ front ≠ [] ∧ ∀ unit ∈ front, isNumberUnit unit = true := by
  cases text with
  | nil => cases after
  | cons first text =>
      rw [afterDigits] at after
      split at after
      next digit =>
        rw [← Option.some.inj after]
        refine ⟨first :: text.takeWhile isDigit, ?_, List.cons_ne_nil _ _, ?_⟩
        · rw [List.cons_append, List.takeWhile_append_dropWhile]
        · intro unit member
          cases List.mem_cons.mp member with
          | inl same => exact same ▸ isNumberUnit_of_isDigit digit
          | inr later => exact isNumberUnit_of_isDigit (List.mem_takeWhile_imp later)
      next => cases after

theorem afterInteger_some {text rest : JsString} (after : afterInteger text = some rest) :
    ∃ front, text = front ++ rest ∧ front ≠ [] ∧ ∀ unit ∈ front, isNumberUnit unit = true := by
  rw [afterInteger.eq_def] at after
  split at after
  next =>
    refine ⟨[0x30], ?_, List.cons_ne_nil _ _, List.forall_mem_singleton.mpr (by decide)⟩
    rw [← Option.some.inj after]
    rfl
  next => exact afterDigits_some after

theorem afterFraction_some {text rest : JsString} (after : afterFraction text = some rest) :
    ∃ front, text = front ++ rest ∧ ∀ unit ∈ front, isNumberUnit unit = true := by
  rw [afterFraction.eq_def] at after
  split at after
  next =>
    obtain ⟨front, split, _, units⟩ := afterDigits_some after
    refine ⟨0x2E :: front, by rw [split, List.cons_append], ?_⟩
    intro unit member
    cases List.mem_cons.mp member with
    | inl same => rw [same]; decide
    | inr later => exact units unit later
  next => exact ⟨[], Option.some.inj after, fun _ member => nomatch member⟩

theorem afterExponentSign_split (text : JsString) :
    ∃ front, text = front ++ afterExponentSign text ∧
      ∀ unit ∈ front, isNumberUnit unit = true := by
  rw [afterExponentSign.eq_def]
  split
  next => exact ⟨[0x2B], rfl, List.forall_mem_singleton.mpr (by decide)⟩
  next => exact ⟨[0x2D], rfl, List.forall_mem_singleton.mpr (by decide)⟩
  next => exact ⟨[], rfl, fun _ member => nomatch member⟩

/-- The mark of an exponent, and the digits behind it. -/
theorem exponent_units {mark : UInt16} (isMark : isNumberUnit mark = true)
    {text rest : JsString} (after : afterDigits (afterExponentSign text) = some rest) :
    ∃ front, mark :: text = front ++ rest ∧ ∀ unit ∈ front, isNumberUnit unit = true := by
  obtain ⟨sign, splitSign, signUnits⟩ := afterExponentSign_split text
  obtain ⟨digits, splitDigits, _, digitUnits⟩ := afterDigits_some after
  refine ⟨mark :: (sign ++ digits), ?_, ?_⟩
  · rw [splitSign, splitDigits, List.cons_append, List.append_assoc]
  · intro unit member
    cases List.mem_cons.mp member with
    | inl same => exact same ▸ isMark
    | inr later =>
        cases List.mem_append.mp later with
        | inl inSign => exact signUnits unit inSign
        | inr inDigits => exact digitUnits unit inDigits

theorem afterExponent_some {text rest : JsString} (after : afterExponent text = some rest) :
    ∃ front, text = front ++ rest ∧ ∀ unit ∈ front, isNumberUnit unit = true := by
  rw [afterExponent.eq_def] at after
  split at after
  next => exact exponent_units (by decide) after
  next => exact exponent_units (by decide) after
  next => exact ⟨[], Option.some.inj after, fun _ member => nomatch member⟩

theorem afterSign_split (text : JsString) :
    ∃ front, text = front ++ afterSign text ∧ ∀ unit ∈ front, isNumberUnit unit = true := by
  rw [afterSign.eq_def]
  split
  next => exact ⟨[0x2D], rfl, List.forall_mem_singleton.mpr (by decide)⟩
  next => exact ⟨[], rfl, fun _ member => nomatch member⟩

/-- A number is a run of its characters, and not empty. -/
theorem NumberText.units (number : NumberText) :
    number.1 ≠ [] ∧ ∀ unit ∈ number.1, isNumberUnit unit = true := by
  have valid := of_decide_eq_true number.2
  obtain ⟨afterF, boundF, restE⟩ := Option.bind_eq_some_iff.mp valid
  obtain ⟨afterI, boundI, restF⟩ := Option.bind_eq_some_iff.mp boundF
  obtain ⟨sign, splitSign, signUnits⟩ := afterSign_split number.1
  obtain ⟨integer, splitI, filled, integerUnits⟩ := afterInteger_some boundI
  obtain ⟨fraction, splitF, fractionUnits⟩ := afterFraction_some restF
  obtain ⟨exponent, splitE, exponentUnits⟩ := afterExponent_some restE
  have whole : number.1 = sign ++ (integer ++ (fraction ++ exponent)) := by
    rw [splitSign, splitI, splitF, splitE, List.append_nil]
  rw [whole]
  constructor
  · exact List.append_ne_nil_of_right_ne_nil _ (List.append_ne_nil_of_left_ne_nil filled _)
  · intro unit member
    simp only [List.mem_append] at member
    cases member with
    | inl inSign => exact signUnits unit inSign
    | inr later =>
        cases later with
        | inl inInteger => exact integerUnits unit inInteger
        | inr last =>
            cases last with
            | inl inFraction => exact fractionUnits unit inFraction
            | inr inExponent => exact exponentUnits unit inExponent

/-- The first character of a number is a digit or the minus sign. -/
theorem NumberText.first (number : NumberText) :
    ∃ first rest, number.1 = first :: rest ∧ (first = 0x2D ∨ isDigit first = true) := by
  have valid := of_decide_eq_true number.2
  obtain ⟨afterF, boundF, _⟩ := Option.bind_eq_some_iff.mp valid
  obtain ⟨afterI, boundI, _⟩ := Option.bind_eq_some_iff.mp boundF
  cases text : number.1 with
  | nil => exact absurd text number.units.1
  | cons first rest =>
      refine ⟨first, rest, rfl, ?_⟩
      by_cases minus : first = 0x2D
      · exact .inl minus
      · have unsigned : afterSign number.1 = first :: rest := by
          rw [text, afterSign.eq_def]
          split
          next same => exact absurd (List.cons.inj same).1 minus
          next => rfl
        rw [unsigned, afterInteger.eq_def] at boundI
        split at boundI
        next same =>
          rw [(List.cons.inj same).1]
          exact .inr (by decide)
        next =>
          rw [afterDigits] at boundI
          split at boundI
          next digit => exact .inr digit
          next => cases boundI

/-- What follows a value in a text: a comma, a closing bracket or a line feed. -/
def endsValue (unit : UInt16) : Bool :=
  unit = 0x2C || unit = 0x5D || unit = 0x7D || unit = 0x0A

theorem isNumberUnit_of_endsValue {unit : UInt16} (ends : endsValue unit = true) :
    isNumberUnit unit = false := by
  simp only [endsValue, Bool.or_eq_true, decide_eq_true_eq] at ends
  rcases ends with ((comma | bracket) | brace) | lineFeed
  · rw [comma]; decide
  · rw [bracket]; decide
  · rw [brace]; decide
  · rw [lineFeed]; decide

/-- What follows, if anything, ends a value. -/
def Ends (rest : JsString) : Prop := ∀ unit ∈ rest.head?, endsValue unit = true

/-- A run of characters up to the end of a value. -/
theorem takeRun {continues : UInt16 → Bool}
    (apart : ∀ unit, endsValue unit = true → continues unit = false) {front rest : JsString}
    (units : ∀ unit ∈ front, continues unit = true) (ends : Ends rest) :
    (front ++ rest).takeWhile continues = front ∧ (front ++ rest).dropWhile continues = rest := by
  have stops : rest.takeWhile continues = [] ∧ rest.dropWhile continues = rest := by
    cases rest with
    | nil => exact ⟨rfl, rfl⟩
    | cons unit rest =>
        have other : continues unit = false := apart unit (ends unit rfl)
        rw [List.takeWhile_cons, List.dropWhile_cons, other]
        exact ⟨rfl, rfl⟩
  rw [List.takeWhile_append_of_pos units, List.dropWhile_append_of_pos units, stops.1, stops.2,
    List.append_nil]
  exact ⟨rfl, rfl⟩

/-! ### Values are read back -/

def Spaces (text : JsString) : Prop := ∀ unit ∈ text, isSpace unit = true

theorem Spaces.append {first second : JsString} (firstSpaces : Spaces first)
    (secondSpaces : Spaces second) : Spaces (first ++ second) := by
  intro unit member
  cases List.mem_append.mp member with
  | inl inFirst => exact firstSpaces unit inFirst
  | inr inSecond => exact secondSpaces unit inSecond

theorem spaces_nil : Spaces [] := fun _ member => nomatch member

theorem spaces_singleton : Spaces [0x20] := by
  intro unit member
  rw [List.mem_singleton.mp member]
  decide

theorem spaces_newline (gap : JsString) {indent : JsString} (spaces : Spaces indent) :
    Spaces (newline gap indent) := by
  rw [newline]
  split
  next => exact fun _ member => nomatch member
  next =>
    intro unit member
    cases List.mem_cons.mp member with
    | inl same => rw [same]; decide
    | inr inIndent => exact spaces unit inIndent

theorem skipSpace_append {space : JsString} (spaces : Spaces space) (text : JsString) :
    skipSpace (space ++ text) = skipSpace text :=
  List.dropWhile_append_of_pos spaces

theorem skipSpace_cons {unit : UInt16} (solid : isSpace unit = false) (text : JsString) :
    skipSpace (unit :: text) = unit :: text :=
  List.dropWhile_cons_of_neg (Bool.eq_false_iff.mp solid)

theorem parseValue_space {space : JsString} (spaces : Spaces space) (fuel : Nat)
    (text : JsString) : parseValue fuel (space ++ text) = parseValue fuel text := by
  cases fuel with
  | zero => rw [parseValue, parseValue]
  | succ fuel => rw [parseValue, parseValue, skipSpace_append spaces]

theorem parseLiteral_number (number : NumberText) {rest : JsString} (ends : Ends rest) :
    parseLiteral (number.1 ++ rest) = some (.num number, rest) := by
  obtain ⟨first, others, text, isFirst⟩ := number.first
  have taken := takeRun (fun _ => isNumberUnit_of_endsValue) number.units.2 ends
  have apart : ∀ letter word, first ≠ letter →
      (letter :: word : JsString).isPrefixOf (number.1 ++ rest) = false := by
    intro letter word other
    rw [text, List.cons_append, List.isPrefixOf_cons_cons, beq_false_of_ne other.symm,
      Bool.false_and]
  have notLetter : ∀ letter : UInt16, letter ≠ 0x2D → isDigit letter = false →
      first ≠ letter := by
    intro letter notMinus notDigit same
    cases isFirst with
    | inl minus => exact notMinus (same.symm.trans minus)
    | inr digit =>
        rw [same, notDigit] at digit
        cases digit
  have notTrue : (js "true").isPrefixOf (number.1 ++ rest) = false :=
    apart 0x74 _ (notLetter _ (by decide) (by decide))
  have notFalse : (js "false").isPrefixOf (number.1 ++ rest) = false :=
    apart 0x66 _ (notLetter _ (by decide) (by decide))
  have notNull : (js "null").isPrefixOf (number.1 ++ rest) = false :=
    apart 0x6E _ (notLetter _ (by decide) (by decide))
  have valid : isNumberText ((number.1 ++ rest).takeWhile isNumberUnit) = true := by
    rw [taken.1]
    exact number.2
  rw [parseLiteral, notTrue, notFalse, notNull, if_neg Bool.false_ne_true,
    if_neg Bool.false_ne_true, if_neg Bool.false_ne_true]
  dsimp only
  rw [dif_pos valid, taken.2]
  simp only [taken.1]
  rfl

/-- A number's text begins with no white space. -/
theorem NumberText.solid (number : NumberText) {first : UInt16} {others : JsString}
    (text : number.1 = first :: others) : isSpace first = false := by
  obtain ⟨unit, rest, same, isFirst⟩ := number.first
  have sameUnit : first = unit := (List.cons.inj (text.symm.trans same)).1
  subst sameUnit
  cases isFirst with
  | inl minus => rw [minus]; decide
  | inr digit =>
      rw [isDigit, Bool.and_eq_true, decide_eq_true_eq, decide_eq_true_eq] at digit
      simp only [isSpace, Bool.or_eq_false_iff, decide_eq_false_iff_not]
      refine ⟨⟨⟨?_, ?_⟩, ?_⟩, ?_⟩
      all_goals
        intro same
        rw [same] at digit
        exact absurd digit (by decide)

theorem parseValue_number (number : NumberText) {rest : JsString} (ends : Ends rest)
    (fuel : Nat) : parseValue (fuel + 1) (number.1 ++ rest) = some (.num number, rest) := by
  obtain ⟨first, others, text, isFirst⟩ := number.first
  have solid : isSpace first = false := number.solid text
  have other : ∀ unit : UInt16, unit ≠ 0x2D → isDigit unit = false → first ≠ unit := by
    intro unit notMinus notDigit same
    cases isFirst with
    | inl minus => exact notMinus (same.symm.trans minus)
    | inr digit =>
        rw [same, notDigit] at digit
        cases digit
  have literal := parseLiteral_number number ends
  rw [text, List.cons_append] at literal ⊢
  rw [parseValue, skipSpace_cons solid]
  split
  next same => exact absurd (List.cons.inj same).1 (other _ (by decide) (by decide))
  next same => exact absurd (List.cons.inj same).1 (other _ (by decide) (by decide))
  next same => exact absurd (List.cons.inj same).1 (other _ (by decide) (by decide))
  next => exact literal

/-- A value is read back from its text, before whatever does not continue a number. -/
def Reads (value : Json) : Prop :=
  ∀ gap indent rest fuel, Spaces gap → Spaces indent → Ends rest →
    2 * (stringify gap indent value).length ≤ fuel →
      parseValue fuel (stringify gap indent value ++ rest) = some (value, rest)

theorem ends_cons {unit : UInt16} (other : endsValue unit = true) (rest : JsString) :
    Ends (unit :: rest) := by
  intro first isFirst
  rw [List.head?_cons, Option.mem_some] at isFirst
  exact isFirst ▸ other

theorem ends_newline {gap indent rest : JsString} (ends : Ends rest) :
    Ends (newline gap indent ++ rest) := by
  rw [newline]
  split
  next => exact ends
  next => exact ends_cons (by decide) _

theorem ends_items {gap indent : JsString} (items : List Json) {rest : JsString}
    (ends : Ends rest) : Ends (stringifyItems gap indent items ++ rest) := by
  cases items with
  | nil =>
      rw [stringifyItems]
      exact ends
  | cons item items =>
      rw [stringifyItems]
      exact ends_cons (by decide) _

theorem ends_members {gap indent : JsString} (members : List (JsString × Json))
    {rest : JsString} (ends : Ends rest) : Ends (stringifyMembers gap indent members ++ rest) := by
  cases members with
  | nil =>
      rw [stringifyMembers]
      exact ends
  | cons member members =>
      rw [stringifyMembers]
      exact ends_cons (by decide) _

theorem parseItems_space {space : JsString} (spaces : Spaces space) (fuel : Nat)
    (text : JsString) : parseItems fuel (space ++ text) = parseItems fuel text := by
  cases fuel with
  | zero => rw [parseItems, parseItems]
  | succ fuel => rw [parseItems, parseItems, parseValue_space spaces]

theorem parseMembers_space {space : JsString} (spaces : Spaces space) (fuel : Nat)
    (text : JsString) : parseMembers fuel (space ++ text) = parseMembers fuel text := by
  cases fuel with
  | zero => rw [parseMembers, parseMembers]
  | succ fuel => rw [parseMembers, parseMembers, skipSpace_append spaces]

theorem parseMembers_quote (fuel : Nat) (text : JsString) :
    parseMembers (fuel + 1) (0x22 :: text) =
      match parseString text with
      | none => none
      | some (key, rest) =>
          match skipSpace rest with
          | 0x3A :: rest =>
              match parseValue fuel rest with
              | none => none
              | some (value, rest) =>
                  match skipSpace rest with
                  | 0x7D :: rest => some ([(key, value)], rest)
                  | 0x2C :: rest =>
                      (parseMembers fuel rest).map fun read => ((key, value) :: read.1, read.2)
                  | _ => none
          | _ => none :=
  rfl

/-- A member's key and colon, before its value. -/
theorem parseMembers_key (gap key text rest : JsString) (fuel : Nat) :
    parseMembers (fuel + 1) (quote key ++ colon gap ++ text ++ rest) =
      match parseValue fuel (text ++ rest) with
      | none => none
      | some (value, rest) =>
          match skipSpace rest with
          | 0x7D :: rest => some ([(key, value)], rest)
          | 0x2C :: rest =>
              (parseMembers fuel rest).map fun read => ((key, value) :: read.1, read.2)
          | _ => none := by
  have written : quote key ++ colon gap ++ text ++ rest =
      0x22 :: (escape key ++ 0x22 :: (colon gap ++ (text ++ rest))) := by
    simp only [quote, List.cons_append, List.append_assoc, List.nil_append]
  rw [written, parseMembers_quote, parseString_escape]
  dsimp only
  have colonRead : ∃ space, colon gap ++ (text ++ rest) = 0x3A :: (space ++ (text ++ rest)) ∧
      Spaces space := by
    rw [colon]
    split
    next => exact ⟨[], rfl, spaces_nil⟩
    next => exact ⟨[0x20], rfl, spaces_singleton⟩
  obtain ⟨space, isColon, spaces⟩ := colonRead
  rw [isColon, skipSpace_cons (by decide), ← parseValue_space spaces]
  rfl

/-- Items behind a first one, up to the closing bracket. -/
theorem parseItems_stringify {gap indent close rest : JsString} (gapSpaces : Spaces gap)
    (indentSpaces : Spaces indent) (closeSpaces : Spaces close) (closeEnds : ∀ tail, Ends tail →
      Ends (close ++ tail)) {first : Json} {items : List Json}
    (readsFirst : Reads first) (reads : ∀ item ∈ items, Reads item) {fuel : Nat}
    (enough : 2 * (stringify gap indent first ++ stringifyItems gap indent items).length + 1 ≤
      fuel) :
    parseItems fuel (stringify gap indent first ++ (stringifyItems gap indent items ++
      (close ++ 0x5D :: rest))) = some (first :: items, rest) := by
  induction items generalizing first fuel with
  | nil =>
      cases fuel with
      | zero => cases enough
      | succ fuel =>
          rw [stringifyItems, List.append_nil] at enough
          have ends : Ends (stringifyItems gap indent [] ++ (close ++ 0x5D :: rest)) :=
            ends_items [] (closeEnds _ (ends_cons (by decide) _))
          rw [parseItems, readsFirst gap indent _ fuel gapSpaces indentSpaces ends (by omega)]
          dsimp only
          rw [stringifyItems, List.nil_append, skipSpace_append closeSpaces,
            skipSpace_cons (by decide)]
          rfl
  | cons item items ih =>
      cases fuel with
      | zero => cases enough
      | succ fuel =>
          have ends : Ends (stringifyItems gap indent (item :: items) ++
              (close ++ 0x5D :: rest)) :=
            ends_items _ (closeEnds _ (ends_cons (by decide) _))
          rw [List.length_append, stringifyItems, List.length_cons, List.length_append,
            List.length_append] at enough
          have later := @ih item (reads item List.mem_cons_self)
            (fun other member => reads other (List.mem_cons_of_mem _ member)) fuel (by
              rw [List.length_append]
              omega)
          rw [parseItems, readsFirst gap indent _ fuel gapSpaces indentSpaces ends (by omega)]
          dsimp only
          rw [stringifyItems, List.cons_append, skipSpace_cons (by decide)]
          change (parseItems fuel _).map _ = _
          rw [List.append_assoc, List.append_assoc,
            parseItems_space (spaces_newline gap indentSpaces), later]
          rfl

/-- Members behind a first one, up to the closing brace. -/
theorem parseMembers_stringify {gap indent close rest : JsString} (gapSpaces : Spaces gap)
    (indentSpaces : Spaces indent) (closeSpaces : Spaces close) (closeEnds : ∀ tail, Ends tail →
      Ends (close ++ tail)) {key : JsString} {value : Json} {members : List (JsString × Json)}
    (readsFirst : Reads value) (reads : ∀ member ∈ members, Reads member.2) {fuel : Nat}
    (enough : 2 * (quote key ++ colon gap ++ stringify gap indent value ++
      stringifyMembers gap indent members).length + 1 ≤ fuel) :
    parseMembers fuel (quote key ++ colon gap ++ stringify gap indent value ++
      (stringifyMembers gap indent members ++ (close ++ 0x7D :: rest))) =
        some ((key, value) :: members, rest) := by
  induction members generalizing key value fuel with
  | nil =>
      cases fuel with
      | zero => cases enough
      | succ fuel =>
          rw [List.length_append, List.length_append] at enough
          have ends : Ends (stringifyMembers gap indent [] ++ (close ++ 0x7D :: rest)) :=
            ends_members [] (closeEnds _ (ends_cons (by decide) _))
          have short : 2 * (stringify gap indent value).length ≤ fuel := by omega
          have valueRead := readsFirst gap indent _ fuel gapSpaces indentSpaces ends short
          rw [parseMembers_key, valueRead]
          dsimp only
          rw [stringifyMembers, List.nil_append, skipSpace_append closeSpaces,
            skipSpace_cons (by decide)]
          rfl
  | cons member members ih =>
      cases fuel with
      | zero => cases enough
      | succ fuel =>
          have ends : Ends (stringifyMembers gap indent (member :: members) ++
              (close ++ 0x7D :: rest)) :=
            ends_members _ (closeEnds _ (ends_cons (by decide) _))
          rw [stringifyMembers] at enough
          simp only [List.length_append, List.length_cons] at enough
          have short : 2 * (stringify gap indent value).length ≤ fuel := by omega
          have valueRead := readsFirst gap indent _ fuel gapSpaces indentSpaces ends short
          have later := @ih member.1 member.2 (reads member List.mem_cons_self)
            (fun other isMember => reads other (List.mem_cons_of_mem _ isMember)) fuel (by
              simp only [List.length_append]
              omega)
          rw [parseMembers_key, valueRead]
          dsimp only
          rw [stringifyMembers, List.cons_append, skipSpace_cons (by decide)]
          change (parseMembers fuel _).map _ = _
          have regroup : newline gap indent ++ quote member.1 ++ colon gap ++
              stringify gap indent member.2 ++ stringifyMembers gap indent members ++
                (close ++ 0x7D :: rest) =
              newline gap indent ++ (quote member.1 ++ colon gap ++
                stringify gap indent member.2 ++ (stringifyMembers gap indent members ++
                  (close ++ 0x7D :: rest))) := by
            simp only [List.append_assoc]
          rw [regroup, parseMembers_space (spaces_newline gap indentSpaces), later]
          rfl

/-- A value's text begins with a character that is no white space and no closing bracket. -/
theorem stringify_first (gap indent : JsString) (value : Json) :
    ∃ first rest, stringify gap indent value = first :: rest ∧ isSpace first = false ∧
      first ≠ 0x5D := by
  cases value with
  | null => exact ⟨_, _, rfl, by decide, by decide⟩
  | bool value =>
      cases value with
      | true => exact ⟨_, _, rfl, by decide, by decide⟩
      | false => exact ⟨_, _, rfl, by decide, by decide⟩
  | str value => exact ⟨_, _, rfl, by decide, by decide⟩
  | num number =>
      obtain ⟨first, others, text, isFirst⟩ := number.first
      rw [stringify, text]
      refine ⟨first, others, rfl, number.solid text, ?_⟩
      intro same
      rw [same] at isFirst
      cases isFirst with
      | inl minus => cases minus
      | inr digit => cases digit
  | arr items =>
      cases items with
      | nil => exact ⟨_, _, rfl, by decide, by decide⟩
      | cons item items => exact ⟨_, _, rfl, by decide, by decide⟩
  | obj members =>
      cases members with
      | nil => exact ⟨_, _, rfl, by decide, by decide⟩
      | cons member members => exact ⟨_, _, rfl, by decide, by decide⟩

theorem parseValue_items {space : JsString} (spaces : Spaces space) {first : UInt16}
    (solid : isSpace first = false) (notClose : first ≠ 0x5D) (tail : JsString) (fuel : Nat) :
    parseValue (fuel + 1) (0x5B :: (space ++ first :: tail)) =
      (parseItems fuel (first :: tail)).map fun read => (.arr read.1, read.2) := by
  rw [parseValue, skipSpace_cons (by decide)]
  change (match skipSpace (space ++ first :: tail) with
    | 0x5D :: rest => some (Json.arr [], rest)
    | rest => (parseItems fuel rest).map
        fun read : List Json × JsString => (Json.arr read.1, read.2)) = _
  rw [skipSpace_append spaces, skipSpace_cons solid]
  split
  next same => exact absurd (List.cons.inj same).1 notClose
  next => rfl

theorem parseValue_members {space : JsString} (spaces : Spaces space) (tail : JsString)
    (fuel : Nat) :
    parseValue (fuel + 1) (0x7B :: (space ++ 0x22 :: tail)) =
      (parseMembers fuel (0x22 :: tail)).map fun read => (.obj read.1, read.2) := by
  rw [parseValue, skipSpace_cons (by decide)]
  change (match skipSpace (space ++ 0x22 :: tail) with
    | 0x7D :: rest => some (Json.obj [], rest)
    | rest => (parseMembers fuel rest).map
        fun read : List (JsString × Json) × JsString => (Json.obj read.1, read.2)) = _
  rw [skipSpace_append spaces, skipSpace_cons (by decide)]
  rfl

mutual

theorem reads : ∀ value, Reads value
  | .null => by
      intro gap indent rest fuel _ _ _ enough
      cases fuel with
      | zero => cases enough
      | succ fuel => rfl
  | .bool true => by
      intro gap indent rest fuel _ _ _ enough
      cases fuel with
      | zero => cases enough
      | succ fuel => rfl
  | .bool false => by
      intro gap indent rest fuel _ _ _ enough
      cases fuel with
      | zero => cases enough
      | succ fuel => rfl
  | .num number => by
      intro gap indent rest fuel _ _ ends enough
      cases fuel with
      | zero =>
          rw [stringify, Nat.le_zero, Nat.mul_eq_zero, List.length_eq_zero_iff] at enough
          cases enough with
          | inl two => cases two
          | inr empty => exact absurd empty number.units.1
      | succ fuel =>
          rw [stringify]
          exact parseValue_number number ends fuel
  | .str value => by
      intro gap indent rest fuel _ _ _ enough
      cases fuel with
      | zero => cases enough
      | succ fuel =>
          have read := parseString_escape value rest
          rw [stringify, quote, List.cons_append, List.cons_append, List.append_assoc]
          change (parseString (escape value ++ 0x22 :: rest)).map _ = _
          rw [read]
          rfl
  | .arr [] => by
      intro gap indent rest fuel _ _ _ enough
      cases fuel with
      | zero => cases enough
      | succ fuel => rfl
  | .arr (item :: items) => by
      intro gap indent rest fuel gapSpaces indentSpaces _ enough
      have inner := indentSpaces.append gapSpaces
      cases fuel with
      | zero => cases enough
      | succ fuel =>
          rw [stringify] at enough
          simp only [List.length_append, List.length_cons] at enough
          have inside := @parseItems_stringify gap (indent ++ gap) (newline gap indent) rest
            gapSpaces inner (spaces_newline gap indentSpaces) (fun _ => ends_newline) item items
            (reads item) (readsItems items) fuel (by
              simp only [List.length_append]
              omega)
          obtain ⟨first, others, text, solid, notClose⟩ :=
            stringify_first gap (indent ++ gap) item
          have regroup : stringify gap indent (.arr (item :: items)) ++ rest =
              0x5B :: (newline gap (indent ++ gap) ++ (stringify gap (indent ++ gap) item ++
                (stringifyItems gap (indent ++ gap) items ++
                  (newline gap indent ++ 0x5D :: rest)))) := by
            simp only [stringify, List.cons_append, List.append_assoc, List.nil_append]
          rw [text, List.cons_append] at inside
          rw [regroup, text, List.cons_append,
            parseValue_items (spaces_newline gap inner) solid notClose, inside]
          rfl
  | .obj [] => by
      intro gap indent rest fuel _ _ _ enough
      cases fuel with
      | zero => cases enough
      | succ fuel => rfl
  | .obj ((key, value) :: members) => by
      intro gap indent rest fuel gapSpaces indentSpaces _ enough
      have inner := indentSpaces.append gapSpaces
      cases fuel with
      | zero => cases enough
      | succ fuel =>
          rw [stringify] at enough
          simp only [List.length_append, List.length_cons] at enough
          have inside := @parseMembers_stringify gap (indent ++ gap) (newline gap indent) rest
            gapSpaces inner (spaces_newline gap indentSpaces) (fun _ => ends_newline) key value
            members (reads value) (readsMembers members) fuel (by
              simp only [List.length_append]
              omega)
          have regroup : stringify gap indent (.obj ((key, value) :: members)) ++ rest =
              0x7B :: (newline gap (indent ++ gap) ++ (quote key ++ colon gap ++
                stringify gap (indent ++ gap) value ++
                (stringifyMembers gap (indent ++ gap) members ++
                  (newline gap indent ++ 0x7D :: rest)))) := by
            simp only [stringify, List.cons_append, List.append_assoc, List.nil_append]
          have begins : quote key ++ colon gap ++ stringify gap (indent ++ gap) value ++
              (stringifyMembers gap (indent ++ gap) members ++
                (newline gap indent ++ 0x7D :: rest)) =
              0x22 :: (escape key ++ [0x22] ++ colon gap ++
                stringify gap (indent ++ gap) value ++
                (stringifyMembers gap (indent ++ gap) members ++
                  (newline gap indent ++ 0x7D :: rest))) :=
            rfl
          rw [begins] at inside
          rw [regroup, begins, parseValue_members (spaces_newline gap inner), inside]
          rfl

theorem readsItems : ∀ items : List Json, ∀ item ∈ items, Reads item
  | [] => fun _ member => nomatch member
  | first :: items => by
      intro item member
      cases List.mem_cons.mp member with
      | inl same => exact same ▸ reads first
      | inr later => exact readsItems items item later

theorem readsMembers : ∀ members : List (JsString × Json), ∀ member ∈ members, Reads member.2
  | [] => fun _ member => nomatch member
  | (key, value) :: members => by
      intro member isMember
      cases List.mem_cons.mp isMember with
      | inl same => exact same ▸ reads value
      | inr later => exact readsMembers members member later

end

/-- What is written is read back, whatever the indentation. -/
theorem parse_stringify {gap : JsString} (gapSpaces : Spaces gap) (value : Json) :
    parse (stringify gap [] value) = some value := by
  have read := reads value gap [] [] (2 * (stringify gap [] value).length + 2) gapSpaces spaces_nil
    (fun _ isHead => nomatch isHead) (by omega)
  rw [List.append_nil] at read
  rw [parse, read]
  rfl

/-! ### What is written has no lone surrogate -/

def isSingle (unit : UInt16) : Bool := !isLeadSurrogate unit && !isTrailSurrogate unit

/-- A text whose surrogates stand in pairs. -/
inductive WellFormed : JsString → Prop
  | nil : WellFormed []
  | unit {unit : UInt16} {rest : JsString} (single : isSingle unit = true)
      (behind : WellFormed rest) : WellFormed (unit :: rest)
  | pair {lead trail : UInt16} {rest : JsString} (isLead : isLeadSurrogate lead = true)
      (isTrail : isTrailSurrogate trail = true) (behind : WellFormed rest) :
      WellFormed (lead :: trail :: rest)

theorem WellFormed.append {front back : JsString} (first : WellFormed front)
    (second : WellFormed back) : WellFormed (front ++ back) := by
  induction first with
  | nil => exact second
  | unit single _ ih => exact .unit single ih
  | pair isLead isTrail _ ih => exact .pair isLead isTrail ih

theorem wellFormed_of_single {text : JsString} (single : text.all isSingle = true) :
    WellFormed text := by
  induction text with
  | nil => exact .nil
  | cons unit text ih =>
      rw [List.all_cons, Bool.and_eq_true] at single
      exact .unit single.1 (ih single.2)

theorem isSingle_hexDigit {digit : Nat} (small : digit < 16) : isSingle (hexDigit digit) = true := by
  have each : ∀ digit : Fin 16, isSingle (hexDigit digit) = true := by decide
  exact each ⟨digit, small⟩

theorem single_escapeUnit (unit : UInt16) : (escapeUnit unit).all isSingle = true := by
  unfold escapeUnit
  repeat' split
  next => decide
  next => decide
  next => decide
  next => decide
  next => decide
  next => decide
  next => decide
  next =>
    simp only [unicodeEscape, List.all_cons, List.all_nil, Bool.and_true]
    rw [isSingle_hexDigit (by omega), isSingle_hexDigit (by omega), isSingle_hexDigit (by omega),
      isSingle_hexDigit (by omega)]
    decide
  next other =>
    simp only [Bool.or_eq_true, decide_eq_true_eq, not_or, Bool.not_eq_true] at other
    rw [List.all_cons, List.all_nil, isSingle, other.1.2, other.2]
    rfl

theorem wellFormed_escape (text : JsString) : WellFormed (escape text) := by
  induction text using escape.induct with
  | case1 => exact .nil
  | case2 unit => exact wellFormed_of_single (single_escapeUnit unit)
  | case3 first second rest pair ih =>
      rw [escape, if_pos pair]
      rw [Bool.and_eq_true] at pair
      exact .pair pair.1 pair.2 ih
  | case4 first second rest apart ih =>
      rw [escape, if_neg apart]
      exact (wellFormed_of_single (single_escapeUnit first)).append ih

theorem wellFormed_quote (text : JsString) : WellFormed (quote text) :=
  .unit (by decide) ((wellFormed_escape text).append (.unit (by decide) .nil))

theorem NumberText.wellFormed (number : NumberText) : WellFormed number.1 := by
  apply wellFormed_of_single
  rw [List.all_eq_true]
  intro unit isIn
  have isUnit := number.units.2 unit isIn
  simp only [isNumberUnit, isDigit, Bool.or_eq_true, Bool.and_eq_true, decide_eq_true_eq,
    UInt16.le_iff_toNat_le] at isUnit
  simp only [isSingle, isLeadSurrogate, isTrailSurrogate, Bool.and_eq_true, Bool.not_eq_true',
    Bool.and_eq_false_iff, decide_eq_false_iff_not, UInt16.le_iff_toNat_le]
  have low : unit.toNat < 0xD800 := by
    rcases isUnit with ((((digit | same) | same) | same) | same) | same
    · exact lt_of_le_of_lt digit.2 (by decide)
    all_goals
      rw [same]
      decide
  constructor
  · exact .inl (not_le.mpr low)
  · exact .inl (not_le.mpr (lt_trans low (by decide)))

mutual

theorem wellFormed_stringify : ∀ value : Json, WellFormed (stringify [] [] value)
  | .null => wellFormed_of_single (by decide)
  | .bool true => wellFormed_of_single (by decide)
  | .bool false => wellFormed_of_single (by decide)
  | .num number => number.wellFormed
  | .str text => wellFormed_quote text
  | .arr [] => wellFormed_of_single (by decide)
  | .arr (item :: items) =>
      .unit (by decide) ((((wellFormed_stringify item).append (wellFormed_items items)).append
        .nil).append (.unit (by decide) .nil))
  | .obj [] => wellFormed_of_single (by decide)
  | .obj ((key, value) :: members) =>
      .unit (by decide) ((((((wellFormed_quote key).append (.unit (by decide) .nil)).append
        (wellFormed_stringify value)).append (wellFormed_members members)).append .nil).append
          (.unit (by decide) .nil))

theorem wellFormed_items : ∀ items : List Json, WellFormed (stringifyItems [] [] items)
  | [] => .nil
  | item :: items =>
      .unit (by decide) ((wellFormed_stringify item).append (wellFormed_items items))

theorem wellFormed_members : ∀ members : List (JsString × Json),
    WellFormed (stringifyMembers [] [] members)
  | [] => .nil
  | (key, value) :: members =>
      .unit (by decide) ((((wellFormed_quote key).append (.unit (by decide) .nil)).append
        (wellFormed_stringify value)).append (wellFormed_members members))

end

end JsonText
