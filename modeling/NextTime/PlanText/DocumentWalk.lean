import NextTime.Library.JsObject
import NextTime.Redaction.FieldMask
import NextTime.Redaction.SecretFieldName

/-
The redactor's walk over a stored document or a call's arguments: what it replaces, how
many values and where, and the text of a document as a read shows it. The value patterns
are any patterns, each given by its matches in a text.
-/

namespace NextTime.PlanText

open JsString (js)
open NextTime.Redaction (REDACTED)

/-! ### Texts -/

/-- Where a match starts and ends, and what replaces it, if anything does. -/
structure SecretMatch where
  start : Nat
  finish : Nat
  replacement : Option JsString

/-- A pattern of secret values: its matches in a text, left to right. -/
abbrev ValuePattern := JsString → List SecretMatch

/-- The text before `index` is scrubbed already, into `scrubbed`. -/
structure Scrubbing where
  scrubbed : JsString
  index : Nat
  count : Nat

def replaceMatch (text : JsString) (state : Scrubbing) (found : SecretMatch) : Scrubbing :=
  match found.replacement with
  | none => state
  | some replacement =>
      { scrubbed := state.scrubbed ++ (text.take found.start).drop state.index ++ replacement
        index := found.finish
        count := state.count + 1 }

/-- One pattern over a text, and how many values it replaced. -/
def scrubOnce (pattern : ValuePattern) (text : JsString) : JsString × Nat :=
  let state := (pattern text).foldl (replaceMatch text) ⟨[], 0, 0⟩
  (if 0 < state.index then state.scrubbed ++ text.drop state.index else text, state.count)

/-- The patterns in order, each over what the one before left. -/
def scrubInto : List ValuePattern → JsString → JsString × Nat
  | [], text => (text, 0)
  | pattern :: patterns, text =>
      let once := scrubOnce pattern text
      let rest := scrubInto patterns once.1
      (rest.1, once.2 + rest.2)

/-! ### The walk -/

/-- How many values were replaced, and where. -/
structure Found where
  count : Nat
  paths : List JsString

def MAX_PATHS : Nat := 20
def MAX_SEGMENT_CHARS : Nat := 64

/-- So many more values, replaced at a path. -/
def Found.noted (found : Found) (path : JsString) (more : Nat) : Found where
  count := found.count + more
  paths :=
    if 0 < more && found.paths.length < MAX_PATHS && !found.paths.contains path then
      found.paths ++ [path]
    else found.paths

inductive Within
  | plain
  | property
  | field
  deriving DecidableEq

def SCHEMA_VALUE_KEYWORDS : List JsString :=
  [js "default", js "const", js "enum", js "examples", js "example"]

section
variable {Number : Type} (patterns : List ValuePattern) (isFinite : Number → Bool)
  (namesASecretField : JsString → Bool)

/-- A non-blank string or a finite number. -/
def isSecretFieldValue : JsValue Number → Bool
  | .str text => decide (JsString.trim text ≠ [])
  | .num number => isFinite number
  | _ => false

/-- A field name as a path shows it. -/
def segment (key : JsString) : JsString :=
  let scrubbed := (scrubInto patterns key).1
  if MAX_SEGMENT_CHARS < scrubbed.length then scrubbed.take MAX_SEGMENT_CHARS ++ [0x2026]
  else scrubbed

def childPath (path key : JsString) : JsString :=
  if path = [] then segment patterns key else path ++ js "." ++ segment patterns key

def itemPath (path : JsString) (index : Nat) : JsString :=
  path ++ js "[" ++ js (Nat.repr index) ++ js "]"

/-- Where the walk is under a key. `secretFields` is the rule of a call's arguments, which
fill fields; without it, that of a document, which declares them. -/
def innerWithin (secretFields : Bool) (within : Within) (key : JsString) : Within :=
  if within = .field || (secretFields && namesASecretField key) then .field
  else if within = .property && SCHEMA_VALUE_KEYWORDS.contains key then .field
  else if namesASecretField key then .property
  else .plain

def itemWithin (within : Within) : Within := if within = .field then .field else .plain

mutual

def redactInto (secretFields : Bool) (within : Within) (path : JsString) (found : Found) :
    JsValue Number → JsValue Number × Found
  | .str text =>
      if within = .field && isSecretFieldValue isFinite (.str text) then
        (.str REDACTED, found.noted path 1)
      else
        let scrubbed := scrubInto patterns text
        (.str scrubbed.1, found.noted path scrubbed.2)
  | .num number =>
      if within = .field && isSecretFieldValue isFinite (.num number) then
        (.str REDACTED, found.noted path 1)
      else (.num number, found)
  | .arr items =>
      let walked := redactItems secretFields (itemWithin within) path 0 found items
      (.arr walked.1, walked.2)
  | .obj members =>
      let walked := redactMembers secretFields within path found members
      (.obj walked.1, walked.2)
  | value => (value, found)

def redactItems (secretFields : Bool) (within : Within) (path : JsString) (index : Nat)
    (found : Found) : List (JsValue Number) → List (JsValue Number) × Found
  | [] => ([], found)
  | item :: items =>
      let walked := redactInto secretFields within (itemPath path index) found item
      let rest := redactItems secretFields within path (index + 1) walked.2 items
      (walked.1 :: rest.1, rest.2)

def redactMembers (secretFields : Bool) (within : Within) (path : JsString) (found : Found) :
    List (JsString × JsValue Number) → List (JsString × JsValue Number) × Found
  | [] => ([], found)
  | (key, inner) :: members =>
      let walked := redactInto secretFields
        (innerWithin namesASecretField secretFields within key) (childPath patterns path key)
        found inner
      let rest := redactMembers secretFields within path walked.2 members
      ((key, walked.1) :: rest.1, rest.2)

end

/-- A value with every suspected secret replaced, and what was found. -/
def redactSuspectedSecrets (secretFields : Bool) (value : JsValue Number) :
    JsValue Number × Found :=
  redactInto patterns isFinite namesASecretField secretFields .plain [] ⟨0, []⟩ value

def findSuspectedSecrets (secretFields : Bool) (value : JsValue Number) : Found :=
  (redactSuspectedSecrets patterns isFinite namesASecretField secretFields value).2

end

/-! ### Marks of a read -/

def containsMark (text : JsString) : Bool := text.tails.any REDACTED.isPrefixOf

section
variable {Number : Type} (patterns : List ValuePattern)

def notePath (path : JsString) (paths : List JsString) : List JsString :=
  if paths.length < MAX_PATHS then paths ++ [path] else paths

mutual

/-- The places that hold the mark, behind those found so far. -/
def markedPaths (path : JsString) (paths : List JsString) : JsValue Number → List JsString
  | .str text =>
      if containsMark text then
        notePath (if path = [] then js "(the value)" else path) paths
      else paths
  | .arr items => markedItems path 0 paths items
  | .obj members => markedMembers path paths members
  | _ => paths

def markedItems (path : JsString) (index : Nat) (paths : List JsString) :
    List (JsValue Number) → List JsString
  | [] => paths
  | item :: items =>
      markedItems path (index + 1) (markedPaths (itemPath path index) paths item) items

def markedMembers (path : JsString) (paths : List JsString) :
    List (JsString × JsValue Number) → List JsString
  | [] => paths
  | (key, inner) :: members =>
      let at' := childPath patterns path key
      let named := if containsMark key then notePath at' paths else paths
      markedMembers path (markedPaths at' named inner) members

end

def redactedPathsIn (value : JsValue Number) : List JsString := markedPaths patterns [] [] value

end

/-! ### Texts as a read shows them -/

section
variable (isUnseen : Nat → Bool)

/-- `\u{XXXX}`. -/
def escapeCodePoint (point : Nat) : JsString :=
  let digits := (Nat.toDigits 16 point).map fun digit => UInt16.ofNat digit.toUpper.toNat
  js "\\u" ++ [0x7B] ++ digits ++ [0x7D]

def codePoint (lead trail : UInt16) : Nat :=
  0x10000 + (lead.toNat - 0xD800) * 0x400 + (trail.toNat - 0xDC00)

def isLineText (unit : UInt16) (rest : JsString) : Bool :=
  unit == 0x0A || unit == 0x09 || (unit == 0x0D && rest.head? == some 0x0A)

def visibleUnit (unit : UInt16) (rest : JsString) : JsString :=
  if isUnseen unit.toNat && !isLineText unit rest then escapeCodePoint unit.toNat else [unit]

/-- Every character that is not seen spelled out, but for line breaks and tabs. -/
def visibleLines : JsString → JsString
  | lead :: trail :: rest =>
      if JsonText.isLeadSurrogate lead && JsonText.isTrailSurrogate trail then
        (if isUnseen (codePoint lead trail) then escapeCodePoint (codePoint lead trail)
          else [lead, trail]) ++ visibleLines rest
      else visibleUnit isUnseen lead (trail :: rest) ++ visibleLines (trail :: rest)
  | [unit] => visibleUnit isUnseen unit []
  | [] => []

variable {Number : Type}

mutual

def visibleStrings : JsValue Number → JsValue Number
  | .str text => .str (visibleLines isUnseen text)
  | .arr items => .arr (visibleItems items)
  | .obj members => .obj (visibleMembers members)
  | value => value

def visibleItems : List (JsValue Number) → List (JsValue Number)
  | [] => []
  | item :: items => visibleStrings item :: visibleItems items

def visibleMembers : List (JsString × JsValue Number) → List (JsString × JsValue Number)
  | [] => []
  | (key, inner) :: members => (key, visibleStrings inner) :: visibleMembers members

end

variable (patterns : List ValuePattern) (isFinite : Number → Bool)
  (namesASecretField : JsString → Bool)

/-- A stored value as a read shows it, under the rule of a document. -/
def shownFreeTextIn (value : JsValue Number) : JsValue Number :=
  visibleStrings isUnseen
    (redactSuspectedSecrets patterns isFinite namesASecretField false value).1

end

end NextTime.PlanText
