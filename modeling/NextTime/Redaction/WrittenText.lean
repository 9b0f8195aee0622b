import NextTime.Redaction.JsonCuts

/-
The text walk on the text of a value, on one line or indented: it masks the leaves its own
rule hides and nothing else, and counts them.
-/

namespace NextTime.Redaction

open JsonText
open JsString (js)

/-- The rule of the text walk: it judges a string as it is written. -/
def isHiddenAsWritten : Json → Bool
  | .str text => isHiddenText (escape text)
  | .num _ => true
  | _ => false

section
variable {isSecretKey : JsString → Bool}

/-! ### Punctuation -/

theorem finish_punctuation {code : UInt16} {stack behind : List JsonFrame}
    (punctuation : isPunctuation code = true) (read : punctuated code stack = some behind)
    (copied rest : JsString) (count : Nat) :
    (Walk.mk stack false copied (code :: rest) count).finish isSecretKey =
      (Walk.mk behind (isClosing code && behind.isEmpty) (copied ++ [code]) rest count).finish
        isSecretKey := by
  apply Walk.finish_step
  rw [Walk.step_punctuation rfl rfl punctuation, Walk.punctuation, read]
  rfl

theorem finish_spaces {space : JsString} (spaces : Spaces space) (stack : List JsonFrame)
    (copied rest : JsString) (count : Nat) :
    (Walk.mk stack false copied (space ++ rest) count).finish isSecretKey =
      (Walk.mk stack false (copied ++ space) rest count).finish isSecretKey := by
  induction space generalizing copied with
  | nil => rw [List.nil_append, List.append_nil]
  | cons code space ih =>
      have isSpace : isJsonWhitespace code = true := spaces code List.mem_cons_self
      have punctuation : isPunctuation code = true := by
        simp only [isPunctuation, isSpace, Bool.true_or]
      have read : punctuated code stack = some stack := by
        rw [punctuated, isSpace, if_pos rfl]
      have notClosing : isClosing code = false := by
        simp only [isJsonWhitespace, Bool.or_eq_true, decide_eq_true_eq] at isSpace
        rcases isSpace with ((blank | lineFeed) | carriage) | tab
        · rw [blank]; decide
        · rw [lineFeed]; decide
        · rw [carriage]; decide
        · rw [tab]; decide
      rw [List.cons_append, finish_punctuation punctuation read, notClosing, Bool.false_and,
        ih (fun unit member => spaces unit (List.mem_cons_of_mem _ member)), List.append_assoc,
        List.singleton_append]

/-! ### Strings -/

theorem jsonStringEnd_plain {unit : UInt16} (plain : Plain unit) (text : JsString) :
    jsonStringEnd (unit :: text) = jsonStringEnd text + 1 := by
  cases text with
  | nil => exact if_neg plain.notQuote
  | cons next text => rw [jsonStringEnd, if_neg plain.notEscape, if_neg plain.notQuote]

theorem plain_hexDigit {digit : Nat} (small : digit < 16) : Plain (hexDigit digit) := by
  have all : ∀ digit < 16, hexDigit digit ≠ 0x22 ∧ hexDigit digit ≠ 0x5C ∧
      ¬ hexDigit digit < 0x20 := by decide
  exact ⟨(all digit small).1, (all digit small).2.1, (all digit small).2.2⟩

theorem jsonStringEnd_unicodeEscape (unit : UInt16) (text : JsString) :
    jsonStringEnd (unicodeEscape unit ++ text) = jsonStringEnd text + 6 := by
  have small : ∀ number : Nat, number % 16 < 16 := fun number => Nat.mod_lt number (by decide)
  rw [unicodeEscape]
  simp only [List.cons_append, List.nil_append]
  rw [jsonStringEnd, if_pos rfl, jsonStringEnd_plain (plain_hexDigit (small _)),
    jsonStringEnd_plain (plain_hexDigit (small _)), jsonStringEnd_plain (plain_hexDigit (small _)),
    jsonStringEnd_plain (plain_hexDigit (small _))]

theorem jsonStringEnd_escapeUnit (unit : UInt16) (text : JsString) :
    jsonStringEnd (escapeUnit unit ++ text) =
      jsonStringEnd text + (escapeUnit unit).length := by
  have shape := written_escapeUnit unit
  generalize escapeUnit unit = written at shape ⊢
  cases shape with
  | plain isPlain => exact jsonStringEnd_plain isPlain text
  | letter read escaped => 
      rw [List.cons_append, List.cons_append, jsonStringEnd, if_pos rfl]
      rfl
  | unicode escaped => exact jsonStringEnd_unicodeEscape unit text

theorem jsonStringEnd_escape (text rest : JsString) :
    jsonStringEnd (escape text ++ 0x22 :: rest) = (escape text).length := by
  induction text using escape.induct with
  | case1 => 
      cases rest with
      | nil => rfl
      | cons next rest => rfl
  | case2 unit =>
      rw [escape, jsonStringEnd_escapeUnit]
      cases rest with
      | nil => exact Nat.zero_add _
      | cons next rest => exact Nat.zero_add _
  | case3 first second others pair ih =>
      have both := pair
      rw [Bool.and_eq_true] at both
      have lead := of_decide_eq_true (Bool.and_eq_true_iff.mp both.1).1
      have trail := of_decide_eq_true (Bool.and_eq_true_iff.mp both.2).1
      have trailHigh : (0xD800 : UInt16) ≤ second := UInt16.le_trans (by decide) trail
      rw [escape, if_pos pair, List.cons_append, List.cons_append,
        jsonStringEnd_plain (plain_of_ge lead), jsonStringEnd_plain (plain_of_ge trailHigh), ih]
      rfl
  | case4 first second others apart ih =>
      rw [escape, if_neg apart, List.append_assoc, jsonStringEnd_escapeUnit, ih,
        List.length_append, Nat.add_comm]

/-- The literal of a string, cut out of a text. -/
theorem literal_escape (text rest : JsString) :
    0x22 :: (escape text ++ 0x22 :: rest).take (jsonStringEnd (escape text ++ 0x22 :: rest) + 1) =
        quote text ∧
      (escape text ++ 0x22 :: rest).drop (jsonStringEnd (escape text ++ 0x22 :: rest) + 1) =
        rest ∧
      (escape text ++ 0x22 :: rest).take (jsonStringEnd (escape text ++ 0x22 :: rest)) =
        escape text := by
  have regroup : escape text ++ 0x22 :: rest = (escape text ++ [0x22]) ++ rest := by
    rw [List.append_assoc, List.singleton_append]
  have length : (escape text).length + 1 = (escape text ++ [0x22]).length := by
    rw [List.length_append, List.length_singleton]
  rw [jsonStringEnd_escape]
  constructor
  · rw [regroup, length, List.take_left]
    rfl
  · constructor
    · rw [regroup, length, List.drop_left]
    · exact List.take_left

theorem decodedJsonKey_quote (key : JsString) : decodedJsonKey (quote key) = key := by
  have read : parse (quote key) = some (.str key) := by
    have written : stringify [] [] (.str key) = quote key := by rw [stringify]
    rw [← written]
    exact parse_stringify spaces_nil (.str key)
  rw [decodedJsonKey, read]

theorem quote_append (text rest : JsString) :
    quote text ++ rest = 0x22 :: (escape text ++ 0x22 :: rest) := by
  rw [quote, List.cons_append, List.cons_append, List.append_assoc, List.singleton_append]

/-- A key and its colon. -/
theorem finish_key {gap key : JsString} {secret keySecret : Bool} (stack : List JsonFrame)
    (copied rest : JsString) (count : Nat) :
    (Walk.mk (⟨false, secret, .key, keySecret⟩ :: stack) false copied
        (quote key ++ colon gap ++ rest) count).finish isSecretKey =
      (Walk.mk (⟨false, secret, .value, isSecretKey key⟩ :: stack) false
        (copied ++ quote key ++ colon gap) rest count).finish isSecretKey := by
  have cut := literal_escape key (colon gap ++ rest)
  have inside : ¬ (escape key ++ 0x22 :: (colon gap ++ rest)).length ≤
      jsonStringEnd (escape key ++ 0x22 :: (colon gap ++ rest)) := by
    rw [jsonStringEnd_escape, List.length_append, List.length_cons]
    omega
  have keyStep : (Walk.mk (⟨false, secret, .key, keySecret⟩ :: stack) false copied
        (0x22 :: (escape key ++ 0x22 :: (colon gap ++ rest))) count).step isSecretKey =
      some (Walk.mk (⟨false, secret, .colon, isSecretKey key⟩ :: stack) false
        (copied ++ quote key) (colon gap ++ rest) count) := by
    rw [Walk.step_string rfl rfl rfl, Walk.string]
    dsimp only
    rw [if_neg inside, cut.1, cut.2.1, decodedJsonKey_quote]
    rfl
  rw [List.append_assoc, quote_append, Walk.finish_step keyStep]
  have colonRead : ∃ space, colon gap = 0x3A :: space ∧ Spaces space := by
    rw [colon]
    split
    next => exact ⟨[], rfl, spaces_nil⟩
    next => exact ⟨[0x20], rfl, spaces_singleton⟩
  obtain ⟨space, isColon, spaces⟩ := colonRead
  rw [isColon, List.cons_append, finish_punctuation (by decide) rfl]
  change (Walk.mk _ false _ _ _).finish isSecretKey = _
  rw [finish_spaces spaces, List.append_assoc _ [0x3A], List.singleton_append]

/-- A string, as a value. -/
theorem finish_string {text : JsString} {top : JsonFrame} (expecting : top.expecting = .value)
    (stack : List JsonFrame) (copied rest : JsString) (count : Nat) :
    (Walk.mk (top :: stack) false copied (quote text ++ rest) count).finish isSecretKey =
      (Walk.mk (expect .next (top :: stack)) false
        (copied ++ if valueIsSecret (top :: stack) && isHiddenText (escape text) then MASK
          else quote text) rest
        (count + if valueIsSecret (top :: stack) && isHiddenText (escape text) then 1
          else 0)).finish isSecretKey := by
  have cut := literal_escape text rest
  rw [quote_append]
  apply Walk.finish_step
  rw [Walk.step_string rfl rfl rfl, Walk.string, expecting]
  dsimp only
  rw [cut.1, cut.2.1, cut.2.2]
  rfl

theorem isJsonScalarChar_of_isPunctuation {code : UInt16}
    (punctuation : isPunctuation code = true) : isJsonScalarChar code = false := by
  have others : [0x20, 0x0A, 0x0D, 0x09, 0x7B, 0x5B, 0x7D, 0x5D, 0x3A, 0x2C].all
      (fun other => !isJsonScalarChar other) = true := by decide
  apply Bool.not_eq_true' _ |>.mp
  apply List.all_eq_true.mp others
  simp only [isPunctuation, isJsonWhitespace, Bool.or_eq_true, decide_eq_true_eq, or_assoc]
    at punctuation
  simp only [List.mem_cons, List.not_mem_nil, or_false]
  exact punctuation

theorem isJsonScalarChar_of_endsValue {code : UInt16} (ends : endsValue code = true) :
    isJsonScalarChar code = false := by
  have others : [0x2C, 0x5D, 0x7D, 0x0A].all (fun other => !isJsonScalarChar other) = true := by
    decide
  apply Bool.not_eq_true' _ |>.mp
  apply List.all_eq_true.mp others
  simp only [endsValue, Bool.or_eq_true, decide_eq_true_eq, or_assoc] at ends
  simp only [List.mem_cons, List.not_mem_nil, or_false]
  exact ends

/-- A run of scalar characters, as a value. -/
theorem finish_scalar {code : UInt16} {word rest : JsString} {top : JsonFrame}
    (expecting : top.expecting = .value)
    (units : ∀ unit ∈ code :: word, isJsonScalarChar unit = true) (ends : Ends rest)
    (stack : List JsonFrame) (copied : JsString) (count : Nat) :
    (Walk.mk (top :: stack) false copied (code :: word ++ rest) count).finish isSecretKey =
      (Walk.mk (expect .next (top :: stack)) false
        (copied ++ if isNumberStart code && valueIsSecret (top :: stack) then MASK
          else code :: word) rest
        (count + if isNumberStart code && valueIsSecret (top :: stack) then 1
          else 0)).finish isSecretKey := by
  have scalar : isJsonScalarChar code = true := units code List.mem_cons_self
  have notPunctuation : isPunctuation code = false := by
    apply Bool.eq_false_iff.mpr
    intro punctuation
    rw [isJsonScalarChar_of_isPunctuation punctuation] at scalar
    cases scalar
  have notQuote : code ≠ 0x22 := by
    intro same
    rw [same] at scalar
    exact absurd scalar (by decide)
  have taken : (code :: word ++ rest).takeWhile isJsonScalarChar = code :: word ∧
      (code :: word ++ rest).dropWhile isJsonScalarChar = rest :=
    takeRun (fun _ => isJsonScalarChar_of_endsValue) units ends
  rw [List.cons_append] at taken ⊢
  apply Walk.finish_step
  rw [Walk.step_scalar rfl rfl rfl notPunctuation notQuote, Walk.scalar, taken.1, taken.2, if_neg]
  · rfl
  · intro either
    cases either with
    | inl other => exact other expecting
    | inr nothing => cases nothing

/-! ### Leaves -/

theorem stringify_mask : stringify [] [] (.str REDACTED) = MASK := by decide

theorem mask_leaf (hides : Json → Bool) (secret : Bool) {leaf : Json} (isLeaf : IsLeaf leaf) :
    mask isSecretKey hides secret leaf = if secret && hides leaf then .str REDACTED else leaf := by
  have shown : mask isSecretKey hides secret leaf = if secret then maskLeaf hides leaf else leaf := by
    cases leaf with
    | arr items => exact isLeaf.elim
    | obj members => exact isLeaf.elim
    | null => rfl
    | bool value => rfl
    | num text => rfl
    | str text => rfl
  rw [shown]
  cases secret with
  | false => rfl
  | true => rfl

theorem stringify_mask_leaf (gap indent : JsString) (hides : Json → Bool) (secret : Bool)
    {leaf : Json} (isLeaf : IsLeaf leaf) :
    stringify gap indent (mask isSecretKey hides secret leaf) =
      if secret && hides leaf then MASK else stringify gap indent leaf := by
  rw [mask_leaf hides secret isLeaf]
  split
  next =>
    rw [stringify, ← stringify_mask, stringify]
  next => rfl

theorem hiddenCount_leaf (hides : Json → Bool) (secret : Bool) {leaf : Json}
    (isLeaf : IsLeaf leaf) :
    hiddenCount isSecretKey hides secret leaf = if secret && hides leaf then 1 else 0 := by
  have leaves : secretLeaves isSecretKey secret leaf = if secret then [leaf] else [] := by
    cases leaf with
    | arr items => exact isLeaf.elim
    | obj members => exact isLeaf.elim
    | null => rfl
    | bool value => rfl
    | num text => rfl
    | str text => rfl
  rw [hiddenCount, leaves]
  cases secret with
  | false => rfl
  | true => exact List.countP_singleton

/-! ### Values -/

/-- The walk over the text of a value masks what its rule hides, and counts it. -/
def Walks (isSecretKey : JsString → Bool) (value : Json) : Prop :=
  ∀ (gap indent : JsString) (stack : List JsonFrame) (copied tail : JsString) (count : Nat),
    Spaces gap → Spaces indent → atValue stack = true → (stack = [] → ¬ IsLeaf value) →
      Ends tail →
      (Walk.mk stack false copied (stringify gap indent value ++ tail) count).finish isSecretKey =
        (Walk.mk (expect .next stack) stack.isEmpty
          (copied ++ stringify gap indent
            (mask isSecretKey isHiddenAsWritten (valueIsSecret stack) value)) tail
          (count + hiddenCount isSecretKey isHiddenAsWritten (valueIsSecret stack) value)).finish
            isSecretKey

/-- A leaf is one token, in a frame. -/
theorem walks_leaf {leaf : Json} (isLeaf : IsLeaf leaf)
    (token : ∀ (gap indent : JsString) (top : JsonFrame) (stack : List JsonFrame)
      (copied tail : JsString) (count : Nat), top.expecting = .value → Ends tail →
      (Walk.mk (top :: stack) false copied (stringify gap indent leaf ++ tail) count).finish
          isSecretKey =
        (Walk.mk (expect .next (top :: stack)) false
          (copied ++ if valueIsSecret (top :: stack) && isHiddenAsWritten leaf then MASK
            else stringify gap indent leaf) tail
          (count + if valueIsSecret (top :: stack) && isHiddenAsWritten leaf then 1
            else 0)).finish isSecretKey) : Walks isSecretKey leaf := by
  intro gap indent stack copied tail count _ _ value structured ends
  cases stack with
  | nil => exact absurd isLeaf (structured rfl)
  | cons top others =>
      rw [stringify_mask_leaf gap indent _ _ isLeaf, hiddenCount_leaf _ _ isLeaf]
      exact token gap indent top others copied tail count (of_decide_eq_true value) ends

theorem walks_string (text : JsString) : Walks isSecretKey (.str text) := by
  have isLeaf : IsLeaf (.str text) := trivial
  apply walks_leaf isLeaf
  intro gap indent top stack copied tail count expecting _
  rw [stringify]
  exact finish_string expecting stack copied tail count

/-- `true`, `false` and `null` show. -/
theorem walks_word {leaf : Json} {code : UInt16} {word : JsString} (isLeaf : IsLeaf leaf)
    (written : ∀ gap indent, stringify gap indent leaf = code :: word)
    (units : (code :: word).all isJsonScalarChar = true)
    (notNumber : isNumberStart code = false) (shows : isHiddenAsWritten leaf = false) :
    Walks isSecretKey leaf := by
  apply walks_leaf isLeaf
  intro gap indent top stack copied tail count expecting ends
  rw [written, finish_scalar expecting (List.all_eq_true.mp units) ends, notNumber, shows,
    Bool.false_and, Bool.and_false]

theorem isJsonScalarChar_of_isNumberUnit {unit : UInt16} (number : isNumberUnit unit = true) :
    isJsonScalarChar unit = true := by
  simp only [isNumberUnit, isDigit, Bool.or_eq_true, decide_eq_true_eq, or_assoc] at number
  rcases number with digit | plus | minus | point | upper | lower
  · simp only [isJsonScalarChar, digit, Bool.true_or]
  · rw [plus]; decide
  · rw [minus]; decide
  · rw [point]; decide
  · rw [upper]; decide
  · rw [lower]; decide

theorem walks_number (number : NumberText) : Walks isSecretKey (.num number) := by
  have isLeaf : IsLeaf (.num number) := trivial
  apply walks_leaf isLeaf
  intro gap indent top stack copied tail count expecting ends
  obtain ⟨first, others, text, isFirst⟩ := number.first
  have units : ∀ unit ∈ first :: others, isJsonScalarChar unit = true := by
    intro unit member
    exact isJsonScalarChar_of_isNumberUnit (number.units.2 unit (text ▸ member))
  have start : isNumberStart first = true := by
    rw [isNumberStart, Bool.or_eq_true, decide_eq_true_eq]
    exact isFirst
  rw [stringify, text, finish_scalar expecting units ends, start, Bool.true_and,
    show isHiddenAsWritten (.num number) = true from rfl, Bool.and_true]

/-- Items behind a first one. -/
theorem finish_items {gap indent : JsString} (gapSpaces : Spaces gap)
    (indentSpaces : Spaces indent) {secret : Bool} (stack : List JsonFrame) {tail : JsString}
    (ends : Ends tail) {items : List Json} (walks : ∀ item ∈ items, Walks isSecretKey item)
    (copied : JsString) (count : Nat) :
    (Walk.mk (⟨true, secret, .next, false⟩ :: stack) false copied
        (stringifyItems gap indent items ++ tail) count).finish isSecretKey =
      (Walk.mk (⟨true, secret, .next, false⟩ :: stack) false
        (copied ++ stringifyItems gap indent
          (maskItems isSecretKey isHiddenAsWritten secret items)) tail
        (count + (secretLeavesOfItems isSecretKey secret items).countP
          isHiddenAsWritten)).finish isSecretKey := by
  induction items generalizing copied count with
  | nil =>
      rw [maskItems, stringifyItems, secretLeavesOfItems, List.countP_nil, List.append_nil]
      rfl
  | cons item items ih =>
      have itemWalk := walks item List.mem_cons_self gap indent
        (⟨true, secret, .value, false⟩ :: stack) (copied ++ 0x2C :: newline gap indent)
        (stringifyItems gap indent items ++ tail) count gapSpaces indentSpaces rfl
        (fun none => by cases none) (ends_items items ends)
      have sameSecret : valueIsSecret (⟨true, secret, .value, false⟩ :: stack) = secret :=
        Bool.or_false secret
      rw [sameSecret] at itemWalk
      rw [stringifyItems, maskItems, stringifyItems, secretLeavesOfItems, List.countP_append]
      rw [List.cons_append, List.append_assoc, List.append_assoc,
        finish_punctuation (by decide) rfl]
      change (Walk.mk (⟨true, secret, .value, false⟩ :: stack) false _ _ _).finish _ = _
      rw [finish_spaces (spaces_newline gap indentSpaces), List.append_assoc _ [0x2C],
        List.singleton_append, itemWalk]
      change (Walk.mk (⟨true, secret, .next, false⟩ :: stack) false _ _ _).finish _ = _
      rw [ih (fun other member => walks other (List.mem_cons_of_mem _ member))]
      simp only [hiddenCount, List.append_assoc, List.cons_append, Nat.add_assoc]

/-- Members behind a first one; what the frame holds of the last key plays no part. -/
theorem finish_members {gap indent : JsString} (gapSpaces : Spaces gap)
    (indentSpaces : Spaces indent) {secret : Bool} (stack : List JsonFrame) {tail : JsString}
    (ends : Ends tail) {members : List (JsString × Json)}
    (walks : ∀ member ∈ members, Walks isSecretKey member.2) (keySecret : Bool)
    (copied : JsString) (count : Nat) :
    ∃ lastSecret, (Walk.mk (⟨false, secret, .next, keySecret⟩ :: stack) false copied
        (stringifyMembers gap indent members ++ tail) count).finish isSecretKey =
      (Walk.mk (⟨false, secret, .next, lastSecret⟩ :: stack) false
        (copied ++ stringifyMembers gap indent
          (maskMembers isSecretKey isHiddenAsWritten secret members)) tail
        (count + (secretLeavesOfMembers isSecretKey secret members).countP
          isHiddenAsWritten)).finish isSecretKey := by
  induction members generalizing keySecret copied count with
  | nil =>
      rw [maskMembers, stringifyMembers, secretLeavesOfMembers, List.countP_nil,
        List.append_nil]
      exact ⟨keySecret, rfl⟩
  | cons member members ih =>
      obtain ⟨key, value⟩ := member
      have valueWalk := walks (key, value) List.mem_cons_self gap indent
        (⟨false, secret, .value, isSecretKey key⟩ :: stack)
        (copied ++ [0x2C] ++ newline gap indent ++ quote key ++ colon gap)
        (stringifyMembers gap indent members ++ tail) count gapSpaces indentSpaces rfl
        (fun none => by cases none) (ends_members members ends)
      have sameSecret : valueIsSecret (⟨false, secret, .value, isSecretKey key⟩ :: stack) =
          (secret || isSecretKey key) := rfl
      rw [sameSecret] at valueWalk
      obtain ⟨lastSecret, later⟩ := ih
        (fun other isMember => walks other (List.mem_cons_of_mem _ isMember)) (isSecretKey key)
        (copied ++ [0x2C] ++ newline gap indent ++ quote key ++ colon gap ++
          stringify gap indent
            (mask isSecretKey isHiddenAsWritten (secret || isSecretKey key) value))
        (count + hiddenCount isSecretKey isHiddenAsWritten (secret || isSecretKey key) value)
      refine ⟨lastSecret, ?_⟩
      have regroup : stringifyMembers gap indent ((key, value) :: members) ++ tail =
          0x2C :: (newline gap indent ++ (quote key ++ colon gap ++
            (stringify gap indent value ++ (stringifyMembers gap indent members ++ tail)))) := by
        simp only [stringifyMembers, List.cons_append, List.append_assoc]
      rw [regroup, finish_punctuation (by decide) rfl]
      change (Walk.mk (⟨false, secret, .key, false⟩ :: stack) false _ _ _).finish _ = _
      rw [finish_spaces (spaces_newline gap indentSpaces), finish_key]
      rw [valueWalk]
      change (Walk.mk (⟨false, secret, .next, isSecretKey key⟩ :: stack) false _ _ _).finish _ = _
      rw [later, maskMembers, stringifyMembers, secretLeavesOfMembers, List.countP_append]
      simp only [hiddenCount, List.append_assoc, List.cons_append, List.nil_append, Nat.add_assoc]

theorem isEmpty_expect (expecting : JsonExpecting) (stack : List JsonFrame) :
    (expect expecting stack).isEmpty = stack.isEmpty := by
  cases stack with
  | nil => rfl
  | cons top stack => rfl

/-- The close of an array, empty or behind an item. -/
theorem finish_closeArray {frame : JsonFrame} (array : frame.array = true)
    (ends : frame.expecting = .next ∨ frame.expecting = .value) (stack : List JsonFrame)
    (copied tail : JsString) (count : Nat) :
    (Walk.mk (frame :: stack) false copied (0x5D :: tail) count).finish isSecretKey =
      (Walk.mk stack stack.isEmpty (copied ++ [0x5D]) tail count).finish isSecretKey := by
  have closes : punctuated 0x5D (frame :: stack) = some stack := by
    change closeFrame true (frame :: stack) = some stack
    rw [closeFrame, array, if_pos]
    exact ⟨rfl, ends⟩
  rw [finish_punctuation (by decide) closes]
  rfl

/-- The close of an object, empty or behind a member. -/
theorem finish_closeObject {frame : JsonFrame} (object : frame.array = false)
    (ends : frame.expecting = .next ∨ frame.expecting = .key) (stack : List JsonFrame)
    (copied tail : JsString) (count : Nat) :
    (Walk.mk (frame :: stack) false copied (0x7D :: tail) count).finish isSecretKey =
      (Walk.mk stack stack.isEmpty (copied ++ [0x7D]) tail count).finish isSecretKey := by
  have closes : punctuated 0x7D (frame :: stack) = some stack := by
    change closeFrame false (frame :: stack) = some stack
    rw [closeFrame, object, if_pos]
    exact ⟨rfl, ends⟩
  rw [finish_punctuation (by decide) closes]
  rfl

/-- The open of an array or object, where a value is expected. -/
theorem openFrame_value (array : Bool) {stack : List JsonFrame} (value : atValue stack = true) :
    openFrame array stack =
      some (⟨array, valueIsSecret stack, if array then .value else .key, false⟩ ::
        expect .next stack) := by
  rw [openFrame, if_pos value]

theorem finish_openArray {stack : List JsonFrame} (value : atValue stack = true)
    (copied tail : JsString) (count : Nat) :
    (Walk.mk stack false copied (0x5B :: tail) count).finish isSecretKey =
      (Walk.mk (⟨true, valueIsSecret stack, .value, false⟩ :: expect .next stack) false
        (copied ++ [0x5B]) tail count).finish isSecretKey := by
  have opens : punctuated 0x5B stack = _ := openFrame_value true value
  rw [finish_punctuation (by decide) opens]
  rfl

theorem finish_openObject {stack : List JsonFrame} (value : atValue stack = true)
    (copied tail : JsString) (count : Nat) :
    (Walk.mk stack false copied (0x7B :: tail) count).finish isSecretKey =
      (Walk.mk (⟨false, valueIsSecret stack, .key, false⟩ :: expect .next stack) false
        (copied ++ [0x7B]) tail count).finish isSecretKey := by
  have opens : punctuated 0x7B stack = _ := openFrame_value false value
  rw [finish_punctuation (by decide) opens]
  rfl

theorem walks_array {items : List Json} (walks : ∀ item ∈ items, Walks isSecretKey item) :
    Walks isSecretKey (.arr items) := by
  intro gap indent stack copied tail count gapSpaces indentSpaces value _ _
  cases items with
  | nil =>
      have written : stringify gap indent (.arr []) ++ tail = 0x5B :: 0x5D :: tail := by
        rw [stringify]
        rfl
      rw [written, finish_openArray value, finish_closeArray rfl (.inr rfl), isEmpty_expect,
        mask, maskItems, stringify, List.append_assoc]
      rfl
  | cons item items =>
      have inner := indentSpaces.append gapSpaces
      have close : Ends (newline gap indent ++ 0x5D :: tail) := ends_newline (ends_cons (by decide) _)
      have written : stringify gap indent (.arr (item :: items)) ++ tail =
          0x5B :: (newline gap (indent ++ gap) ++ (stringify gap (indent ++ gap) item ++
            (stringifyItems gap (indent ++ gap) items ++ (newline gap indent ++ 0x5D :: tail)))) := by
        simp only [stringify, List.cons_append, List.append_assoc, List.nil_append]
      have itemWalk := walks item List.mem_cons_self gap (indent ++ gap)
        (⟨true, valueIsSecret stack, .value, false⟩ :: expect .next stack)
        (copied ++ [0x5B] ++ newline gap (indent ++ gap))
        (stringifyItems gap (indent ++ gap) items ++ (newline gap indent ++ 0x5D :: tail)) count
        gapSpaces inner rfl (fun none => nomatch none) (ends_items items close)
      rw [written, finish_openArray value, finish_spaces (spaces_newline gap inner), itemWalk]
      have sameSecret : valueIsSecret (⟨true, valueIsSecret stack, .value, false⟩ ::
          expect .next stack) = valueIsSecret stack := Bool.or_false _
      rw [sameSecret]
      change (Walk.mk (⟨true, valueIsSecret stack, .next, false⟩ :: expect .next stack) false
        _ _ _).finish isSecretKey = _
      rw [finish_items gapSpaces inner (expect .next stack) close
          (fun other member => walks other (List.mem_cons_of_mem _ member)),
        finish_spaces (spaces_newline gap indentSpaces), finish_closeArray rfl (.inl rfl),
        isEmpty_expect, mask, maskItems, stringify, hiddenCount, hiddenCount, secretLeaves,
        secretLeavesOfItems, List.countP_append, Nat.add_assoc]
      simp only [List.append_assoc, List.cons_append, List.nil_append]

theorem walks_object {members : List (JsString × Json)}
    (walks : ∀ member ∈ members, Walks isSecretKey member.2) :
    Walks isSecretKey (.obj members) := by
  intro gap indent stack copied tail count gapSpaces indentSpaces value _ _
  cases members with
  | nil =>
      have written : stringify gap indent (.obj []) ++ tail = 0x7B :: 0x7D :: tail := by
        rw [stringify]
        rfl
      rw [written, finish_openObject value, finish_closeObject rfl (.inr rfl), isEmpty_expect,
        mask, maskMembers, stringify, List.append_assoc]
      rfl
  | cons member members =>
      obtain ⟨key, inside⟩ := member
      have inner := indentSpaces.append gapSpaces
      have close : Ends (newline gap indent ++ 0x7D :: tail) := ends_newline (ends_cons (by decide) _)
      have written : stringify gap indent (.obj ((key, inside) :: members)) ++ tail =
          0x7B :: (newline gap (indent ++ gap) ++ (quote key ++ colon gap ++
            (stringify gap (indent ++ gap) inside ++ (stringifyMembers gap (indent ++ gap) members ++
              (newline gap indent ++ 0x7D :: tail))))) := by
        simp only [stringify, List.cons_append, List.append_assoc, List.nil_append]
      have valueWalk := walks (key, inside) List.mem_cons_self gap (indent ++ gap)
        (⟨false, valueIsSecret stack, .value, isSecretKey key⟩ :: expect .next stack)
        (copied ++ [0x7B] ++ newline gap (indent ++ gap) ++ quote key ++ colon gap)
        (stringifyMembers gap (indent ++ gap) members ++ (newline gap indent ++ 0x7D :: tail))
        count gapSpaces inner rfl (fun none => nomatch none) (ends_members members close)
      rw [written, finish_openObject value, finish_spaces (spaces_newline gap inner), finish_key,
        valueWalk]
      have sameSecret : valueIsSecret (⟨false, valueIsSecret stack, .value, isSecretKey key⟩ ::
          expect .next stack) = (valueIsSecret stack || isSecretKey key) := rfl
      rw [sameSecret]
      change (Walk.mk (⟨false, valueIsSecret stack, .next, isSecretKey key⟩ :: expect .next stack)
        false _ _ _).finish isSecretKey = _
      obtain ⟨lastSecret, later⟩ := @finish_members isSecretKey gap (indent ++ gap) gapSpaces inner
        (valueIsSecret stack) (expect .next stack) _ close members
        (fun other isMember => walks other (List.mem_cons_of_mem _ isMember)) (isSecretKey key)
        (copied ++ [0x7B] ++ newline gap (indent ++ gap) ++ quote key ++ colon gap ++
          stringify gap (indent ++ gap) (mask isSecretKey isHiddenAsWritten
            (valueIsSecret stack || isSecretKey key) inside))
        (count + hiddenCount isSecretKey isHiddenAsWritten
          (valueIsSecret stack || isSecretKey key) inside)
      rw [later, finish_spaces (spaces_newline gap indentSpaces), finish_closeObject rfl (.inl rfl),
        isEmpty_expect, mask, maskMembers, stringify, hiddenCount, hiddenCount, secretLeaves,
        secretLeavesOfMembers, List.countP_append, Nat.add_assoc]
      simp only [List.append_assoc, List.cons_append, List.nil_append]

mutual

theorem walks : ∀ value, Walks isSecretKey value
  | .null => @walks_word _ .null 0x6E (js "ull") trivial (fun _ _ => rfl) (by decide) (by decide) rfl
  | .bool true =>
      @walks_word _ (.bool true) 0x74 (js "rue") trivial (fun _ _ => rfl) (by decide) (by decide) rfl
  | .bool false =>
      @walks_word _ (.bool false) 0x66 (js "alse") trivial (fun _ _ => rfl) (by decide) (by decide)
        rfl
  | .num number => walks_number number
  | .str text => walks_string text
  | .arr items => walks_array (walksItems items)
  | .obj members => walks_object (walksMembers members)

theorem walksItems : ∀ items : List Json, ∀ item ∈ items, Walks isSecretKey item
  | [] => fun _ member => nomatch member
  | first :: items => by
      intro item member
      cases List.mem_cons.mp member with
      | inl same => exact same ▸ walks first
      | inr later => exact walksItems items item later

theorem walksMembers : ∀ members : List (JsString × Json), ∀ member ∈ members,
    Walks isSecretKey member.2
  | [] => fun _ member => nomatch member
  | (key, value) :: members => by
      intro member isMember
      cases List.mem_cons.mp isMember with
      | inl same => exact same ▸ walks value
      | inr later => exact walksMembers members member later

end

end

end NextTime.Redaction
