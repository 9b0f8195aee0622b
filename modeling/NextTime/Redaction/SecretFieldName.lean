import NextTime.Library.JsString
import Mathlib.Data.List.Infix

/-
The names of fields that hold a secret. The case of a letter is Unicode's, and a
parameter here.
-/

namespace NextTime.Redaction

open JsString (js)

/-- `toLowerCase` and `toUpperCase` of one code unit. -/
structure LetterCase where
  lower : UInt16 → JsString
  upper : UInt16 → JsString

/-- How a case-insensitive pattern compares a code unit. -/
def LetterCase.canonicalize (letters : LetterCase) (unit : UInt16) : UInt16 :=
  match letters.upper unit with
  | [upper] => if 128 ≤ unit && upper < 128 then unit else upper
  | _ => unit

/-- The alternatives of the pattern, each optional separator written out. -/
def SECRET_WORD : List JsString :=
  [js "password", js "passwd", js "passphrase", js "secret", js "credential", js "authorisation",
    js "authorization", js "apikey", js "api_key", js "api-key", js "privatekey",
    js "private_key", js "private-key", js "accesskey", js "access_key", js "access-key"]

def LetterCase.matchesSecretWord (letters : LetterCase) (name : JsString) : Bool :=
  SECRET_WORD.any fun word =>
    (name.map letters.canonicalize).tails.any (word.map letters.canonicalize).isPrefixOf

def TOKEN_COUNT_BEFORE : List JsString :=
  [js "max", js "min", js "num", js "total", js "input", js "output", js "prompt",
    js "completion", js "cached", js "reasoning", js "per"]

def TOKEN_COUNT_AFTER : List JsString :=
  [js "count", js "counts", js "limit", js "limits", js "usage", js "budget", js "budgets",
    js "length", js "len", js "size", js "type", js "estimate", js "total", js "index"]

def MAX_NAME_CHARS : Nat := 256

/-- The word read so far, unless it is empty. -/
def finished (word : JsString) : List JsString := if word = [] then [] else [word]

def LetterCase.isLower (letters : LetterCase) (char : UInt16) : Bool :=
  decide ([char] ≠ letters.upper char)

/-- The words of what is left of a name, behind the character `prev` and part of a word. -/
def LetterCase.wordsBehind (letters : LetterCase) (prev : Option UInt16) (word : JsString) :
    JsString → List JsString
  | [] => finished word
  | char :: rest =>
      if letters.lower char = letters.upper char then
        finished word ++ letters.wordsBehind (some char) [] rest
      else
        let splits := !letters.isLower char && decide (word ≠ []) &&
          (prev.any letters.isLower || rest.head?.any letters.isLower)
        if splits then word :: letters.wordsBehind (some char) (letters.lower char) rest
        else letters.wordsBehind (some char) (word ++ letters.lower char) rest

def LetterCase.words (letters : LetterCase) (name : JsString) : List JsString :=
  letters.wordsBehind none [] name

def endsInToken (word : JsString) : Bool :=
  (js "token").isSuffixOf word || (js "tokens").isSuffixOf word

/-- A word that ends in `token` and is no count of them, behind the word `before`. -/
def namesAToken (before : JsString) : List JsString → Bool
  | [] => false
  | word :: rest =>
      endsInToken word && !TOKEN_COUNT_BEFORE.contains before &&
          !TOKEN_COUNT_AFTER.contains (rest.head?.getD []) ||
        namesAToken word rest

def LetterCase.namesASecretField (letters : LetterCase) (name : JsString) : Bool :=
  let judged := name.take MAX_NAME_CHARS
  let split := letters.words judged
  let lastWord := split.getLast?
  letters.matchesSecretWord judged || namesAToken [] split ||
    decide (lastWord = some (js "cookie") ∨ lastWord = some (js "bearer")) ||
    decide (split.length = 1 ∧ lastWord = some (js "handle")) ||
    decide (lastWord = some (js "handle") ∧ split.dropLast.getLast? = some (js "capability"))

/-- The letters of ASCII. -/
def asciiLetters : LetterCase where
  lower unit := if 0x41 ≤ unit && unit ≤ 0x5A then [unit + 0x20] else [unit]
  upper unit := if 0x61 ≤ unit && unit ≤ 0x7A then [unit - 0x20] else [unit]

example : asciiLetters.words (js "HTTPHeader_api2") = [js "http", js "header", js "api"] := by
  decide

/-! ### Names in ASCII -/

/-- The case of an ASCII letter is the same in every table. -/
def LetterCase.OfAscii (letters : LetterCase) : Prop :=
  ∀ unit < 0x80, letters.lower unit = asciiLetters.lower unit ∧
    letters.upper unit = asciiLetters.upper unit

def isAsciiName (name : JsString) : Bool := name.all (· < 0x80)

section
variable {letters : LetterCase}

theorem map_canonicalize_ofAscii (ofAscii : letters.OfAscii) {name : JsString}
    (ascii : isAsciiName name = true) :
    name.map letters.canonicalize = name.map asciiLetters.canonicalize := by
  apply List.map_congr_left
  intro unit isIn
  have upper := (ofAscii unit (of_decide_eq_true (List.all_eq_true.mp ascii unit isIn))).2
  rw [LetterCase.canonicalize, LetterCase.canonicalize, upper]

theorem isAsciiName_secretWord : SECRET_WORD.all isAsciiName = true := by decide

theorem matchesSecretWord_ofAscii (ofAscii : letters.OfAscii) {name : JsString}
    (ascii : isAsciiName name = true) :
    letters.matchesSecretWord name = asciiLetters.matchesSecretWord name := by
  unfold LetterCase.matchesSecretWord
  rw [map_canonicalize_ofAscii ofAscii ascii]
  apply Bool.eq_iff_iff.mpr
  rw [List.any_eq_true, List.any_eq_true]
  apply exists_congr
  intro word
  apply and_congr_right
  intro isWord
  rw [map_canonicalize_ofAscii ofAscii (List.all_eq_true.mp isAsciiName_secretWord word isWord)]

theorem isLower_ofAscii (ofAscii : letters.OfAscii) {char : UInt16} (ascii : char < 0x80) :
    letters.isLower char = asciiLetters.isLower char := by
  rw [LetterCase.isLower, LetterCase.isLower, (ofAscii char ascii).2]

theorem wordsBehind_ofAscii (ofAscii : letters.OfAscii) {name : JsString} :
    ∀ (prev : Option UInt16) (word : JsString), prev.all (· < 0x80) = true →
      isAsciiName name = true →
        letters.wordsBehind prev word name = asciiLetters.wordsBehind prev word name := by
  induction name with
  | nil => exact fun _ _ _ _ => rfl
  | cons char rest ih =>
      intro prev word asciiPrev ascii
      rw [isAsciiName, List.all_cons, Bool.and_eq_true, decide_eq_true_eq] at ascii
      have behindPrev : prev.any letters.isLower = prev.any asciiLetters.isLower := by
        cases prev with
        | none => rfl
        | some before => exact isLower_ofAscii ofAscii (of_decide_eq_true asciiPrev)
      have beforeNext : rest.head?.any letters.isLower = rest.head?.any asciiLetters.isLower := by
        cases rest with
        | nil => rfl
        | cons next rest =>
            have asciiNext := List.all_eq_true.mp ascii.2 next List.mem_cons_self
            exact isLower_ofAscii ofAscii (of_decide_eq_true asciiNext)
      rw [LetterCase.wordsBehind, LetterCase.wordsBehind, behindPrev, beforeNext,
        isLower_ofAscii ofAscii ascii.1, (ofAscii char ascii.1).1, (ofAscii char ascii.1).2]
      have ahead (word : JsString) :
          letters.wordsBehind (some char) word rest =
            asciiLetters.wordsBehind (some char) word rest :=
        ih (some char) word (decide_eq_true ascii.1) ascii.2
      simp only [ahead]

/-- Whether a name in ASCII names a secret is the same in every table. -/
theorem namesASecretField_ofAscii (ofAscii : letters.OfAscii) {name : JsString}
    (ascii : isAsciiName name = true) :
    letters.namesASecretField name = asciiLetters.namesASecretField name := by
  have judged : isAsciiName (name.take MAX_NAME_CHARS) = true := by
    apply List.all_eq_true.mpr
    intro unit isIn
    exact List.all_eq_true.mp ascii unit (List.mem_of_mem_take isIn)
  unfold LetterCase.namesASecretField LetterCase.words
  simp only
  rw [matchesSecretWord_ofAscii ofAscii judged, wordsBehind_ofAscii ofAscii none [] rfl judged]

end

end NextTime.Redaction
