import NextTime.Redaction.WrittenText
import NextTime.Redaction.SecretFieldName

/-
The walk over text and the walk over structure side by side. They show and count the
same but for two kinds of string under a secret-named key.
-/

namespace NextTime.Redaction

open JsonText
open JsString (js isWhiteSpace)

/-- `JSON.stringify(value)`, or with an indentation of two spaces. -/
def jsonText (indented : Bool) (value : Json) : JsString :=
  stringify (if indented then [0x20, 0x20] else []) [] value

theorem spaces_gap (indented : Bool) : Spaces (if indented then [0x20, 0x20] else []) := by
  cases indented with
  | false => exact spaces_nil
  | true => exact spaces_singleton.append spaces_singleton

theorem parse_jsonText (indented : Bool) (value : Json) :
    parse (jsonText indented value) = some value :=
  parse_stringify (spaces_gap indented) value

/-! ### What the text walk leaves of a text -/

/-- The first character tells a structure from a leaf. -/
theorem jsonText_first (indented : Bool) (value : Json) :
    ∃ first rest, jsonText indented value = first :: rest ∧ isJsonWhitespace first = false ∧
      (¬ IsLeaf value ↔ first = 0x7B ∨ first = 0x5B) := by
  rw [jsonText]
  cases value with
  | null =>
      exact ⟨_, _, rfl, by decide, iff_of_false (fun structured => structured trivial) (by decide)⟩
  | bool value =>
      cases value with
      | true =>
          exact ⟨_, _, rfl, by decide,
            iff_of_false (fun structured => structured trivial) (by decide)⟩
      | false =>
          exact ⟨_, _, rfl, by decide,
            iff_of_false (fun structured => structured trivial) (by decide)⟩
  | str text =>
      exact ⟨_, _, rfl, by decide, iff_of_false (fun structured => structured trivial) (by decide)⟩
  | num number =>
      obtain ⟨first, others, text, isFirst⟩ := number.first
      rw [stringify, text]
      refine ⟨first, others, rfl, number.solid text, ?_⟩
      constructor
      · exact fun structured => absurd trivial structured
      · intro opens
        cases opens with
        | inl brace => 
            rw [brace] at isFirst
            exact absurd isFirst (by decide)
        | inr bracket =>
            rw [bracket] at isFirst
            exact absurd isFirst (by decide)
  | arr items =>
      cases items with
      | nil => exact ⟨_, _, rfl, by decide, iff_of_true id (by decide)⟩
      | cons item items => exact ⟨_, _, rfl, by decide, iff_of_true id (by decide)⟩
  | obj members =>
      cases members with
      | nil => exact ⟨_, _, rfl, by decide, iff_of_true id (by decide)⟩
      | cons member members => exact ⟨_, _, rfl, by decide, iff_of_true id (by decide)⟩

theorem startsAsJson_cons {first : UInt16} (solid : isJsonWhitespace first = false)
    (rest : JsString) :
    startsAsJson (first :: rest) = decide (first = 0x7B ∨ first = 0x5B) := by
  rw [startsAsJson, List.dropWhile_cons_of_neg (Bool.eq_false_iff.mp solid), Bool.decide_or]

theorem start_cons {first : UInt16} (solid : isJsonWhitespace first = false)
    (rest : JsString) :
    Walk.start (first :: rest) = ⟨[], false, [], first :: rest, 0⟩ := by
  rw [Walk.start, List.takeWhile_cons_of_neg (Bool.eq_false_iff.mp solid),
    List.dropWhile_cons_of_neg (Bool.eq_false_iff.mp solid)]

section
variable {isSecretKey : JsString → Bool}

/-- The walk of a structure's text ends with the structure. -/
theorem finish_jsonText (indented : Bool) {value : Json} (structured : ¬ IsLeaf value) :
    (Walk.mk [] false [] (jsonText indented value) 0).finish isSecretKey =
      ⟨[], true, jsonText indented (mask isSecretKey isHiddenAsWritten false value), [],
        hiddenCount isSecretKey isHiddenAsWritten false value⟩ := by
  have walked := @walks isSecretKey value (if indented then [0x20, 0x20] else []) [] [] [] [] 0
    (spaces_gap indented) spaces_nil rfl (fun _ => structured)
    (fun _ isHead => nomatch isHead)
  rw [List.append_nil, Nat.zero_add, List.nil_append] at walked
  rw [jsonText, walked]
  exact Walk.finish_stop (Walk.step_rest_nil rfl)

theorem output_done (stack : List JsonFrame) (closed : Bool) (copied : JsString) (count : Nat) :
    Walk.output ⟨stack, closed, copied, [], count⟩ = copied :=
  List.append_nil copied

/-- The text walk masks what its rule hides. -/
theorem redactSecretFieldsInJsonText_written (indented : Bool) (value : Json) :
    redactSecretFieldsInJsonText isSecretKey (jsonText indented value) =
      { value := jsonText indented (mask isSecretKey isHiddenAsWritten false value)
        redactedValues := hiddenCount isSecretKey isHiddenAsWritten false value } := by
  obtain ⟨first, rest, text, solid, opens⟩ := jsonText_first indented value
  by_cases isLeaf : IsLeaf value
  · have plainText : startsAsJson (jsonText indented value) = false := by
      rw [text, startsAsJson_cons solid]
      exact decide_eq_false fun isOpen => opens.mpr isOpen isLeaf
    rw [redactSecretFieldsInJsonText, plainText, if_neg Bool.false_ne_true,
      mask_leaf _ _ isLeaf, hiddenCount_leaf _ _ isLeaf]
    rfl
  · have json : startsAsJson (jsonText indented value) = true := by
      rw [text, startsAsJson_cons solid]
      exact decide_eq_true (opens.mp isLeaf)
    have begins : Walk.start (jsonText indented value) =
        ⟨[], false, [], jsonText indented value, 0⟩ := by
      rw [text, start_cons solid]
    rw [redactSecretFieldsInJsonText_walk json, begins, finish_jsonText indented isLeaf,
      output_done]

/-- Of a text cut anywhere the text walk leaves the start of what it leaves of the whole. -/
theorem redactSecretFieldsInJsonText_cut (indented : Bool) (value : Json) {start : JsString}
    (cut : start <+: jsonText indented value) :
    ShownOf (redactSecretFieldsInJsonText isSecretKey start).value
      (jsonText indented (mask isSecretKey isHiddenAsWritten false value)) := by
  obtain ⟨first, rest, text, solid, opens⟩ := jsonText_first indented value
  obtain ⟨more, whole⟩ := cut
  cases start with
  | nil => exact ShownOf.of_prefix List.nil_prefix
  | cons code others =>
      have sameFirst : code = first := by
        rw [text, List.cons_append] at whole
        exact (List.cons.inj whole).1
      subst sameFirst
      by_cases isLeaf : IsLeaf value
      · have plainText : startsAsJson (code :: others) = false := by
          rw [startsAsJson_cons solid]
          exact decide_eq_false fun isOpen => opens.mpr isOpen isLeaf
        rw [redactSecretFieldsInJsonText, plainText, if_neg Bool.false_ne_true,
          mask_leaf _ _ isLeaf]
        exact ShownOf.of_prefix ⟨more, whole⟩
      · have json : startsAsJson (code :: others) = true := by
          rw [startsAsJson_cons solid]
          exact decide_eq_true (opens.mp isLeaf)
        have extended : Walk.extend ⟨[], false, [], code :: others, 0⟩ more =
            ⟨[], false, [], jsonText indented value, 0⟩ := by
          rw [Walk.extend, whole]
        have finished := @finish_jsonText isSecretKey indented value isLeaf
        have shown := @Walk.cut isSecretKey ⟨[], false, [], code :: others, 0⟩ more
          (by rw [extended, finished])
        rw [extended, finished, output_done] at shown
        rw [redactSecretFieldsInJsonText_walk json, start_cons solid]
        exact shown

end

/-! ### Where the two rules differ -/

/-- A blank string with a character that JSON writes as an escape. -/
def BlankWithControl (text : JsString) : Prop :=
  JsString.trim text = [] ∧ ∃ unit ∈ text, unit < 0x20

theorem isSurrogate_of_isWhiteSpace {unit : UInt16} (white : isWhiteSpace unit = true) :
    isLeadSurrogate unit = false ∧ isTrailSurrogate unit = false ∧ unit ≠ 0x22 ∧
      unit ≠ 0x5C := by
  rw [isWhiteSpace, List.contains_iff_mem] at white
  have others : ([9, 10, 11, 12, 13, 32, 0xA0, 0xFEFF, 0x1680, 0x2000, 0x2001, 0x2002,
      0x2003, 0x2004, 0x2005, 0x2006, 0x2007, 0x2008, 0x2009, 0x200A, 0x2028, 0x2029, 0x202F,
      0x205F, 0x3000] : List UInt16).all (fun other => decide (isLeadSurrogate other = false ∧
        isTrailSurrogate other = false ∧ other ≠ 0x22 ∧ other ≠ 0x5C)) = true := by
    decide
  exact of_decide_eq_true (List.all_eq_true.mp others unit white)

/-- What a code unit is written as is white space when it is, and no escape. -/
theorem isWhiteSpace_escapeUnit (unit : UInt16) :
    (∀ written ∈ escapeUnit unit, isWhiteSpace written = true) ↔
      isWhiteSpace unit = true ∧ ¬ unit < 0x20 := by
  have escaped {rest : JsString} :
      ¬ ∀ written ∈ (0x5C :: rest : JsString), isWhiteSpace written = true := by
    intro white
    exact absurd (white 0x5C List.mem_cons_self) (by decide)
  have shape := written_escapeUnit unit
  generalize escapeUnit unit = written at shape ⊢
  cases shape with
  | plain isPlain =>
      rw [List.forall_mem_singleton]
      exact ⟨fun white => ⟨white, isPlain.notControl⟩, fun both => both.1⟩
  | letter read isEscaped =>
      apply iff_of_false escaped
      intro both
      have solid := isSurrogate_of_isWhiteSpace both.1
      rcases isEscaped with isQuote | isEscape | control
      · exact solid.2.2.1 isQuote
      · exact solid.2.2.2 isEscape
      · exact both.2 control
  | unicode isEscaped =>
      apply iff_of_false escaped
      intro both
      have solid := isSurrogate_of_isWhiteSpace both.1
      rcases isEscaped with control | lead | trail
      · exact both.2 control
      · exact absurd (lead.symm.trans solid.1) (by decide)
      · exact absurd (trail.symm.trans solid.2.1) (by decide)

/-- A string is written as white space when it is white space without an escape. -/
theorem trim_escape (text : JsString) :
    JsString.trim (escape text) = [] ↔
      JsString.trim text = [] ∧ ∀ unit ∈ text, ¬ unit < 0x20 := by
  have both : (∀ written ∈ escape text, isWhiteSpace written = true) ↔
      ∀ unit ∈ text, isWhiteSpace unit = true ∧ ¬ unit < 0x20 := by
    induction text using escape.induct with
    | case1 => exact ⟨fun _ _ member => (by cases member), fun _ _ member => (by cases member)⟩
    | case2 unit => rw [escape, isWhiteSpace_escapeUnit, List.forall_mem_singleton]
    | case3 first second others pair ih =>
        have lead := (Bool.and_eq_true_iff.mp pair).1
        rw [escape, if_pos pair]
        apply iff_of_false
        · intro white
          have solid := isSurrogate_of_isWhiteSpace (white first List.mem_cons_self)
          exact absurd (lead.symm.trans solid.1) (by decide)
        · intro white
          have solid := isSurrogate_of_isWhiteSpace (white first List.mem_cons_self).1
          exact absurd (lead.symm.trans solid.1) (by decide)
    | case4 first second others apart ih =>
        rw [escape, if_neg apart, List.forall_mem_append, isWhiteSpace_escapeUnit, ih,
          List.forall_mem_cons (l := second :: others)]
  rw [JsString.trim_eq_nil_iff, JsString.trim_eq_nil_iff, both]
  exact ⟨fun all => ⟨fun unit member => (all unit member).1, fun unit member => (all unit member).2⟩,
    fun all unit member => ⟨all.1 unit member, all.2 unit member⟩⟩

theorem escape_injective {text other : JsString} (same : escape text = escape other) :
    text = other := by
  have read := parseString_escape text []
  rw [same, parseString_escape other []] at read
  exact (congrArg Prod.fst (Option.some.inj read)).symm

theorem escape_eq_mask (text : JsString) : escape text = REDACTED ↔ text = REDACTED := by
  have unescaped : escape REDACTED = REDACTED := by decide
  constructor
  · intro same
    exact escape_injective (same.trans unescaped.symm)
  · intro same
    rw [same, unescaped]

theorem isHiddenAsWritten_str (text : JsString) :
    isHiddenAsWritten (.str text) = true ↔
      (JsString.trim text ≠ [] ∨ BlankWithControl text) ∧ text ≠ REDACTED := by
  rw [isHiddenAsWritten, isHiddenText, Bool.and_eq_true, decide_eq_true_eq, decide_eq_true_eq,
    Ne, Ne, trim_escape, escape_eq_mask]
  by_cases blank : JsString.trim text = []
  · simp [BlankWithControl, blank]
  · simp [BlankWithControl, blank]

theorem isSecretFieldValue_str (text : JsString) :
    isSecretFieldValue (.str text) = true ↔ JsString.trim text ≠ [] := by
  rw [isSecretFieldValue, decide_eq_true_eq]

theorem trim_mask : JsString.trim REDACTED ≠ [] := by decide

/-- The two rules show a leaf alike unless it is blank with a control character. -/
theorem maskLeaf_alike_iff (leaf : Json) :
    maskLeaf isHiddenAsWritten leaf = maskLeaf isSecretFieldValue leaf ↔
      ∀ text, leaf = .str text → ¬ BlankWithControl text := by
  cases leaf with
  | null => exact iff_of_true rfl fun _ same => nomatch same
  | bool value => exact iff_of_true rfl fun _ same => nomatch same
  | num number => exact iff_of_true rfl fun _ same => nomatch same
  | arr items => exact iff_of_true rfl fun _ same => nomatch same
  | obj members => exact iff_of_true rfl fun _ same => nomatch same
  | str text =>
      have asWritten := isHiddenAsWritten_str text
      have byValue := isSecretFieldValue_str text
      constructor
      · intro same other isText blank
        rw [← Json.str.inj isText] at blank
        have isBlank : JsString.trim text = [] := blank.1
        have notMask : text ≠ REDACTED := fun isMask => trim_mask (isMask ▸ isBlank)
        rw [maskLeaf, maskLeaf, if_pos (asWritten.mpr ⟨.inr blank, notMask⟩),
          if_neg fun shown => byValue.mp shown isBlank] at same
        exact notMask (Json.str.inj same).symm
      · intro noBlank
        by_cases isMask : text = REDACTED
        · rw [isMask, maskLeaf, maskLeaf]
          split
          next => split <;> rfl
          next => split <;> rfl
        · have sameRule : isHiddenAsWritten (.str text) = isSecretFieldValue (.str text) := by
            rw [Bool.eq_iff_iff, asWritten, byValue]
            constructor
            · intro hidden
              exact hidden.1.resolve_right (noBlank text rfl)
            · intro solid
              exact ⟨.inl solid, isMask⟩
          rw [maskLeaf, maskLeaf, sameRule]

/-- A rule that hides no more counts as many exactly when it hides the same. -/
theorem countP_eq_iff {Item : Type} {fewer more : Item → Bool} {items : List Item}
    (implies : ∀ item ∈ items, fewer item = true → more item = true) :
    items.countP fewer = items.countP more ↔ ∀ item ∈ items, more item = true → fewer item = true := by
  induction items with
  | nil => exact iff_of_true rfl fun _ member => nomatch member
  | cons item items ih =>
      have later := ih fun other member => implies other (List.mem_cons_of_mem _ member)
      have bound := List.countP_mono_left fun other member =>
        implies other (List.mem_cons_of_mem item member)
      rw [List.countP_cons, List.countP_cons, List.forall_mem_cons, ← later]
      cases isMore : more item with
      | false =>
          have notFewer : fewer item = false := by
            apply Bool.eq_false_iff.mpr
            intro isFewer
            rw [implies item List.mem_cons_self isFewer] at isMore
            cases isMore
          simp [notFewer]
      | true =>
          cases isFewer : fewer item with
          | true => simp
          | false =>
              rw [if_pos rfl, if_neg Bool.false_ne_true]
              constructor
              · intro same
                omega
              · intro both
                exact absurd (both.1 rfl) Bool.false_ne_true

/-! ### Agreement -/

section
variable (isSecretKey : JsString → Bool)

/-- What the text walk leaves of a value's text is what the structure walk leaves of the value,
and of the text cut anywhere it leaves no secret. -/
structure WalkersAgree (indented : Bool) (value : Json) : Prop where
  parsed : parse (redactSecretFieldsInJsonText isSecretKey (jsonText indented value)).value =
    some (redactSecrets isSecretKey value).value
  counted :
    (redactSecretFieldsInJsonText isSecretKey (jsonText indented value)).redactedValues =
      (redactSecrets isSecretKey value).redactedValues
  cut : ∀ start, start <+: jsonText indented value →
    ShownOf (redactSecretFieldsInJsonText isSecretKey start).value
      (jsonText indented (redactSecrets isSecretKey value).value)
  hidden : ∀ leaf ∈ secretLeaves isSecretKey false (redactSecrets isSecretKey value).value,
    leaf = .str REDACTED ∨ isSecretFieldValue leaf = false

/-- The walkers agree on a value exactly when under a secret-named key no string is the mask
already, and none is blank with a control character. -/
theorem walkersAgree_iff (indented : Bool) (value : Json) :
    WalkersAgree isSecretKey indented value ↔
      ∀ text, .str text ∈ secretLeaves isSecretKey false value →
        text ≠ REDACTED ∧ ¬ BlankWithControl text := by
  have sameMask : mask isSecretKey isHiddenAsWritten false value =
        mask isSecretKey isSecretFieldValue false value ↔
      ∀ text, .str text ∈ secretLeaves isSecretKey false value → ¬ BlankWithControl text := by
    rw [mask_eq_iff]
    constructor
    · intro alike text member
      exact (maskLeaf_alike_iff _).mp (alike _ member) text rfl
    · intro noBlank leaf member
      exact (maskLeaf_alike_iff leaf).mpr fun text same => noBlank text (same ▸ member)
  -- Where no blank string is hidden as written, the counts differ by the masks in place.
  have sameCount (noBlank : ∀ text, .str text ∈ secretLeaves isSecretKey false value →
        ¬ BlankWithControl text) :
      hiddenCount isSecretKey isHiddenAsWritten false value =
          hiddenCount isSecretKey isSecretFieldValue false value ↔
        ∀ text, .str text ∈ secretLeaves isSecretKey false value → text ≠ REDACTED := by
    rw [hiddenCount, hiddenCount, countP_eq_iff]
    · constructor
      · intro hides text member isMask
        have shown := hides _ member ((isSecretFieldValue_str text).mpr (isMask ▸ trim_mask))
        exact ((isHiddenAsWritten_str text).mp shown).2 isMask
      · intro noMask leaf member byValue
        cases leaf with
        | str text =>
            exact (isHiddenAsWritten_str text).mpr
              ⟨.inl ((isSecretFieldValue_str text).mp byValue), noMask text member⟩
        | num number => rfl
        | null => cases byValue
        | bool value => cases byValue
        | arr items => cases byValue
        | obj members => cases byValue
    · intro leaf member asWritten
      cases leaf with
      | str text =>
          exact (isSecretFieldValue_str text).mpr
            (((isHiddenAsWritten_str text).mp asWritten).1.resolve_right (noBlank text member))
      | num number => rfl
      | null => cases asWritten
      | bool value => cases asWritten
      | arr items => cases asWritten
      | obj members => cases asWritten
  have written := @redactSecretFieldsInJsonText_written isSecretKey indented value
  constructor
  · intro agree text member
    have values := agree.parsed
    have counts := agree.counted
    rw [written, redactSecrets_mask] at values counts
    rw [parse_jsonText, Option.some.injEq] at values
    have noBlank := sameMask.mp values
    exact ⟨(sameCount noBlank).mp counts text member, noBlank text member⟩
  · intro condition
    have noBlank := fun text member => (condition text member).2
    have masks := sameMask.mpr noBlank
    constructor
    · rw [written, redactSecrets_mask, parse_jsonText, masks]
    · rw [written, redactSecrets_mask]
      exact (sameCount noBlank).mpr fun text member => (condition text member).1
    · intro start cut
      rw [redactSecrets_mask, ← masks]
      exact redactSecretFieldsInJsonText_cut indented value cut
    · exact fun leaf member => redactSecrets_hidden value member

end

/-- A line feed under `password`: the text walk hides and counts what the structure walk shows. -/
theorem walkers_disagree :
    (∀ text, Json.str text ∈ secretLeaves asciiLetters.namesASecretField false
        (.obj [(js "password", .str [0x0A])]) → text ≠ REDACTED) ∧
      ¬ WalkersAgree asciiLetters.namesASecretField false
        (.obj [(js "password", .str [0x0A])]) := by
  constructor
  · intro text member
    have named : asciiLetters.namesASecretField (js "password") = true := by decide +kernel
    have isLeaf : IsLeaf (.str [0x0A]) := trivial
    rw [secretLeaves, secretLeavesOfMembers, secretLeavesOfMembers, named, Bool.or_true,
      List.append_nil, secretLeaves_leaf isLeaf, List.mem_singleton, Json.str.injEq] at member
    rw [member]
    decide
  · intro agree
    have counts := agree.counted
    revert counts
    decide +kernel

end NextTime.Redaction
