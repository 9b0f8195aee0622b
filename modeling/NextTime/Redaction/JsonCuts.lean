import NextTime.Redaction.JsonFields

/-
A text cut anywhere: what the walk leaves of it is the start of what it leaves of the
whole, but for white space of the string the cut text ends inside.
-/

namespace NextTime.Redaction

open JsString (isWhiteSpace)

section
variable {isSecretKey : JsString → Bool}

/-- The start of a whole, and white space. -/
def ShownOf (cut whole : JsString) : Prop :=
  ∃ shown blanks, cut = shown ++ blanks ∧ shown <+: whole ∧
    ∀ unit ∈ blanks, isWhiteSpace unit = true

theorem ShownOf.of_prefix {cut whole : JsString} (start : cut <+: whole) : ShownOf cut whole :=
  ⟨cut, [], (List.append_nil _).symm, start, fun _ member => nomatch member⟩

/-! ### String literals and what follows them -/

/-- A literal that is closed ends there whatever follows, at a quote. -/
theorem jsonStringEnd_closed {text : JsString} (more : JsString)
    (closed : jsonStringEnd text < text.length) :
    jsonStringEnd (text ++ more) = jsonStringEnd text ∧
      text.take (jsonStringEnd text + 1) = text.take (jsonStringEnd text) ++ [0x22] := by
  induction text using jsonStringEnd.induct with
  | case1 => cases closed
  | case2 =>
      constructor
      · cases more with
        | nil => rfl
        | cons next more => rfl
      · rfl
  | case3 code notQuote =>
      rw [jsonStringEnd, if_neg notQuote] at closed
      exact absurd closed (Nat.lt_irrefl 1)
  | case4 next rest ih =>
      rw [jsonStringEnd, if_pos rfl] at closed ⊢
      simp only [List.length_cons] at closed
      obtain ⟨same, ends⟩ := ih (by omega)
      constructor
      · rw [List.cons_append, List.cons_append, jsonStringEnd, if_pos rfl, same]
      · rw [List.take_succ_cons, List.take_succ_cons, ends, List.take_succ_cons,
          List.take_succ_cons]
        rfl
  | case5 next rest notEscape =>
      rw [jsonStringEnd, if_neg notEscape, if_pos rfl]
      constructor
      · rw [List.cons_append, List.cons_append, jsonStringEnd, if_neg notEscape, if_pos rfl]
      · rfl
  | case6 code next rest notEscape notQuote ih =>
      rw [jsonStringEnd, if_neg notEscape, if_neg notQuote] at closed ⊢
      rw [List.length_cons] at closed
      obtain ⟨same, ends⟩ := ih (by omega)
      constructor
      · rw [List.cons_append, List.cons_append, jsonStringEnd, if_neg notEscape,
          if_neg notQuote, ← List.cons_append, same]
      · rw [List.take_succ_cons, ends, List.take_succ_cons]
        rfl

/-- A literal that is cut goes on into what follows. -/
theorem jsonStringEnd_cut {text : JsString} (more : JsString)
    (cut : text.length ≤ jsonStringEnd text) :
    text.length ≤ jsonStringEnd (text ++ more) := by
  induction text using jsonStringEnd.induct with
  | case1 => exact Nat.zero_le _
  | case2 => exact absurd cut (by decide)
  | case3 code notQuote =>
      cases more with
      | nil => exact cut
      | cons next more =>
          rw [List.singleton_append, jsonStringEnd, if_neg notQuote]
          split
          next => exact Nat.le_add_left 1 (jsonStringEnd more + 1)
          next => exact Nat.le_add_left 1 _
  | case4 next rest ih =>
      rw [jsonStringEnd, if_pos rfl] at cut
      rw [List.cons_append, List.cons_append, jsonStringEnd, if_pos rfl]
      simp only [List.length_cons] at cut ⊢
      have := ih (by omega)
      omega
  | case5 next rest notEscape =>
      rw [jsonStringEnd, if_neg notEscape, if_pos rfl] at cut
      cases cut
  | case6 code next rest notEscape notQuote ih =>
      rw [jsonStringEnd, if_neg notEscape, if_neg notQuote] at cut
      rw [List.cons_append, List.cons_append, jsonStringEnd, if_neg notEscape, if_neg notQuote]
      simp only [List.length_cons, List.cons_append] at cut ih ⊢
      have := ih (by omega)
      omega

/-! ### One turn on a cut text -/

def Walk.extend (walk : Walk) (more : JsString) : Walk := { walk with rest := walk.rest ++ more }

theorem Walk.punctuation_extend (walk : Walk) (more : JsString) (code : UInt16)
    (rest : JsString) :
    (walk.extend more).punctuation code (rest ++ more) =
      (walk.punctuation code rest).map fun next => next.extend more := by
  rw [Walk.punctuation, Walk.punctuation, Option.map_map]
  rfl

/-- A literal that is closed is read alike. -/
theorem Walk.string_extend (walk : Walk) (more : JsString) (top : JsonFrame)
    (stack : List JsonFrame) {rest : JsString} (closed : jsonStringEnd rest < rest.length) :
    (walk.extend more).string isSecretKey top stack (rest ++ more) =
      (walk.string isSecretKey top stack rest).map fun next => next.extend more := by
  have sameEnd := (jsonStringEnd_closed more closed).1
  have sameLiteral : (rest ++ more).take (jsonStringEnd rest + 1) =
      rest.take (jsonStringEnd rest + 1) := List.take_append_of_le_length closed
  have sameInner : (rest ++ more).take (jsonStringEnd rest) = rest.take (jsonStringEnd rest) :=
    List.take_append_of_le_length (Nat.le_of_lt closed)
  have sameRest : (rest ++ more).drop (jsonStringEnd rest + 1) =
      rest.drop (jsonStringEnd rest + 1) ++ more := List.drop_append_of_le_length closed
  have longer : ¬ (rest ++ more).length ≤ jsonStringEnd rest := by
    rw [List.length_append]
    omega
  rw [Walk.string, Walk.string, sameEnd]
  dsimp only
  rw [sameLiteral, sameInner, sameRest, if_neg longer, if_neg (Nat.not_le.mpr closed)]
  cases top.expecting with
  | key => rfl
  | value => rfl
  | colon => rfl
  | next => rfl

/-- A run that ends before the cut is read alike. -/
theorem Walk.scalar_extend (walk : Walk) (more : JsString) (top : JsonFrame) {code : UInt16}
    {rest : JsString} (ends : (code :: rest).dropWhile isJsonScalarChar ≠ []) :
    (walk.extend more).scalar top code (rest ++ more) =
      (walk.scalar top code rest).map fun next => next.extend more := by
  have sameRun : (code :: (rest ++ more)).takeWhile isJsonScalarChar =
      (code :: rest).takeWhile isJsonScalarChar := by
    rw [← List.cons_append, List.takeWhile_append]
    split
    next whole =>
      have split := List.takeWhile_append_dropWhile (p := isJsonScalarChar) (l := code :: rest)
      have lengths := congrArg List.length split
      rw [List.length_append, whole] at lengths
      exact absurd (List.length_eq_zero_iff.mp (by omega)) ends
    next => rfl
  have sameRest : (code :: (rest ++ more)).dropWhile isJsonScalarChar =
      (code :: rest).dropWhile isJsonScalarChar ++ more := by
    rw [← List.cons_append, List.dropWhile_append]
    split
    next nothing => exact absurd (List.isEmpty_iff.mp nothing) ends
    next => rfl
  rw [Walk.scalar, Walk.scalar, sameRun, sameRest]
  split
  next => rfl
  next => rfl

/-! ### The last turn on a cut text -/

/-- What a turn on the whole copies is shown of the whole. -/
theorem ShownOf.of_turn {walk next : Walk} {start : JsString}
    (stepped : walk.step isSecretKey = some next) (copied : start <+: next.copied) :
    start <+: (walk.finish isSecretKey).output := by
  rw [Walk.finish_step stepped]
  exact copied.trans ((Walk.copied_finish next).trans (List.prefix_append _ _))

theorem Walk.output_extend (walk : Walk) (more : JsString) :
    walk.output <+: (walk.extend more).output := by
  rw [Walk.output, Walk.output, Walk.extend, ← List.append_assoc]
  exact List.prefix_append _ _

/-- Where the walk of the cut text breaks off, the whole shows its rest or breaks off too. -/
theorem Walk.cut_break {walk : Walk} {more : JsString}
    (stops : walk.step isSecretKey = none)
    (shows : ∀ next, (walk.extend more).step isSecretKey = some next →
      walk.output <+: next.copied) :
    ShownOf (walk.finish isSecretKey).output ((walk.extend more).finish isSecretKey).output := by
  rw [Walk.finish_stop stops]
  apply ShownOf.of_prefix
  cases stepped : (walk.extend more).step isSecretKey with
  | none =>
      rw [Walk.finish_stop stepped]
      exact Walk.output_extend walk more
  | some next => exact ShownOf.of_turn stepped (shows next stepped)

theorem Walk.step_punctuation {walk : Walk} {code : UInt16} {rest : JsString}
    (isOpen : walk.closed = false) (text : walk.rest = code :: rest)
    (punctuation : isPunctuation code = true) :
    walk.step isSecretKey = walk.punctuation code rest := by
  rw [Walk.step, isOpen, text, if_neg Bool.false_ne_true]
  exact if_pos punctuation

theorem Walk.step_string {walk : Walk} {top : JsonFrame} {stack : List JsonFrame}
    {rest : JsString} (isOpen : walk.closed = false) (text : walk.rest = 0x22 :: rest)
    (frames : walk.stack = top :: stack) :
    walk.step isSecretKey = walk.string isSecretKey top stack rest := by
  rw [Walk.step, isOpen, text, frames]
  rfl

theorem Walk.step_scalar {walk : Walk} {top : JsonFrame} {stack : List JsonFrame}
    {code : UInt16} {rest : JsString} (isOpen : walk.closed = false)
    (text : walk.rest = code :: rest) (frames : walk.stack = top :: stack)
    (notPunctuation : isPunctuation code = false) (notQuote : code ≠ 0x22) :
    walk.step isSecretKey = walk.scalar top code rest := by
  rw [Walk.step, isOpen, text, frames]
  dsimp only
  rw [notPunctuation, if_neg Bool.false_ne_true, if_neg Bool.false_ne_true, if_neg notQuote]

/-- A key the text is cut inside is shown as far as it goes. -/
theorem Walk.cut_key {walk : Walk} {top : JsonFrame} {stack : List JsonFrame} {rest : JsString}
    (more : JsString) (isOpen : walk.closed = false) (text : walk.rest = 0x22 :: rest)
    (frames : walk.stack = top :: stack) (expecting : top.expecting = .key)
    (cut : rest.length ≤ jsonStringEnd rest) :
    ShownOf (walk.finish isSecretKey).output ((walk.extend more).finish isSecretKey).output := by
  apply Walk.cut_break
  · rw [Walk.step_string isOpen text frames, Walk.string, expecting]
    exact if_pos cut
  · intro next stepped
    have wholeText : (walk.extend more).rest = 0x22 :: (rest ++ more) := by
      rw [Walk.extend, text]
      rfl
    rw [@Walk.step_string isSecretKey (walk.extend more) top stack (rest ++ more) isOpen wholeText
      frames, Walk.string, expecting] at stepped
    dsimp only at stepped
    split at stepped
    next => cases stepped
    next =>
      rw [← Option.some.inj stepped, Walk.output, text]
      apply List.prefix_append_right_inj walk.copied |>.mpr
      apply List.cons_prefix_cons.mpr
      constructor
      · rfl
      · apply List.prefix_take_iff.mpr
        have := jsonStringEnd_cut more cut
        exact ⟨List.prefix_append _ _, by omega⟩

/-- The start of a secret string, masked or not, by what the whole of it is shown as. -/
theorem secretCut {rest inner copied whole : JsString} (longer : rest <+: inner)
    (shows : ∀ {start : JsString}, (start <+: if isHiddenText inner then MASK
      else 0x22 :: (inner ++ [0x22])) → copied ++ start <+: whole) :
    ShownOf (copied ++ if isHiddenText rest then MASK else 0x22 :: rest) whole := by
  by_cases blank : JsString.trim rest = []
  · have visible : isHiddenText rest = false := by
      rw [isHiddenText, Bool.and_eq_false_iff]
      exact .inl (decide_eq_false fun other => other blank)
    rw [visible, if_neg Bool.false_ne_true]
    refine ⟨copied ++ [0x22], rest, ?_, ?_, JsString.trim_eq_nil_iff.mp blank⟩
    · rw [List.append_assoc]
      rfl
    · apply shows
      split
      next => exact List.prefix_append _ _
      next => exact List.prefix_append [0x22] _
  · apply ShownOf.of_prefix
    apply shows
    have solid : JsString.trim inner ≠ [] := by
      intro innerBlank
      rw [JsString.trim_eq_nil_iff] at innerBlank
      exact blank (JsString.trim_eq_nil_iff.mpr fun unit member =>
        innerBlank unit (longer.subset member))
    by_cases isMask : inner = REDACTED
    · have visible : isHiddenText inner = false := by
        rw [isHiddenText, Bool.and_eq_false_iff]
        exact .inr (decide_eq_false fun other => other isMask)
      rw [visible, if_neg Bool.false_ne_true, isMask]
      split
      next => exact List.prefix_rfl
      next =>
        exact List.cons_prefix_cons.mpr
          ⟨rfl, (isMask ▸ longer).trans (List.prefix_append _ _)⟩
    · have hidden : isHiddenText inner = true := by
        rw [isHiddenText, Bool.and_eq_true]
        exact ⟨decide_eq_true solid, decide_eq_true isMask⟩
      rw [hidden, if_pos rfl]
      split
      next => exact List.prefix_rfl
      next visible =>
        -- The start of a masked string is shown only where it is the mask.
        have sameMask : rest = REDACTED := by
          by_contra other
          apply visible
          rw [isHiddenText, Bool.and_eq_true]
          exact ⟨decide_eq_true blank, decide_eq_true other⟩
        rw [sameMask]
        exact List.prefix_append _ [0x22]

/-- Of a string value the text is cut inside, nothing is shown but white space or the mask. -/
theorem Walk.cut_value {walk : Walk} {top : JsonFrame} {stack : List JsonFrame}
    {rest : JsString} (more : JsString) (isOpen : walk.closed = false)
    (text : walk.rest = 0x22 :: rest) (frames : walk.stack = top :: stack)
    (expecting : top.expecting = .value) (cut : rest.length ≤ jsonStringEnd rest)
    (complete : ((walk.extend more).finish isSecretKey).closed = true) :
    ShownOf (walk.finish isSecretKey).output ((walk.extend more).finish isSecretKey).output := by
  have wholeText : (walk.extend more).rest = 0x22 :: (rest ++ more) := by
    rw [Walk.extend, text]
    rfl
  have cutStep := @Walk.step_string isSecretKey walk top stack rest isOpen text frames
  have wholeStep := @Walk.step_string isSecretKey (walk.extend more) top stack (rest ++ more)
    isOpen wholeText frames
  rw [Walk.string, expecting] at cutStep wholeStep
  dsimp only at cutStep wholeStep
  rw [List.take_of_length_le (Nat.le_succ_of_le cut), List.take_of_length_le cut,
    List.drop_of_length_le (Nat.le_succ_of_le cut)] at cutStep
  -- The whole closes the literal, or its walk would end inside it.
  have inside : jsonStringEnd (rest ++ more) < (rest ++ more).length := by
    apply Nat.lt_of_not_le
    intro beyond
    rw [List.drop_of_length_le (Nat.le_succ_of_le beyond)] at wholeStep
    rw [Walk.finish_step wholeStep, Walk.finish_stop (Walk.step_rest_nil rfl)] at complete
    have stillOpen : (walk.extend more).closed = false := isOpen
    rw [Walk.pass, stillOpen] at complete
    cases complete
  have longer : rest <+: (rest ++ more).take (jsonStringEnd (rest ++ more)) :=
    List.prefix_take_iff.mpr ⟨List.prefix_append _ _, jsonStringEnd_cut more cut⟩
  have closing := (jsonStringEnd_closed [] inside).2
  have sameFrames : (walk.extend more).stack = walk.stack := rfl
  rw [sameFrames, closing] at wholeStep
  generalize (rest ++ more).take (jsonStringEnd (rest ++ more)) = inner at longer wholeStep
  have output : (walk.finish isSecretKey).output = walk.copied ++
      if valueIsSecret walk.stack && isHiddenText rest then MASK else 0x22 :: rest := by
    rw [Walk.finish_step cutStep, Walk.finish_stop (Walk.step_rest_nil rfl), Walk.output,
      Walk.pass, List.append_nil]
  rw [output]
  have shows {start : JsString} (of : start <+:
        if valueIsSecret walk.stack && isHiddenText inner then MASK
        else 0x22 :: (inner ++ [0x22])) :
      walk.copied ++ start <+: ((walk.extend more).finish isSecretKey).output :=
    ShownOf.of_turn wholeStep ((List.prefix_append_right_inj walk.copied).mpr of)
  cases secret : valueIsSecret walk.stack with
  | false =>
      rw [secret, Bool.false_and, if_neg Bool.false_ne_true] at shows
      rw [Bool.false_and, if_neg Bool.false_ne_true]
      exact ShownOf.of_prefix (shows (List.cons_prefix_cons.mpr
        ⟨rfl, longer.trans (List.prefix_append _ _)⟩))
  | true =>
      rw [secret, Bool.true_and] at shows
      rw [Bool.true_and]
      exact secretCut longer shows

/-- A number or a literal the text is cut inside. -/
theorem Walk.cut_scalar {walk : Walk} {top : JsonFrame} {stack : List JsonFrame}
    {code : UInt16} {rest : JsString} (more : JsString) (isOpen : walk.closed = false)
    (text : walk.rest = code :: rest) (frames : walk.stack = top :: stack)
    (notPunctuation : isPunctuation code = false) (notQuote : code ≠ 0x22)
    (cut : (code :: rest).dropWhile isJsonScalarChar = []) :
    ShownOf (walk.finish isSecretKey).output ((walk.extend more).finish isSecretKey).output := by
  have wholeText : (walk.extend more).rest = code :: (rest ++ more) := by
    rw [Walk.extend, text]
    rfl
  have wholeStep := @Walk.step_scalar isSecretKey (walk.extend more) top stack code (rest ++ more)
    isOpen wholeText frames notPunctuation notQuote
  have cutStep := @Walk.step_scalar isSecretKey walk top stack code rest isOpen text frames
    notPunctuation notQuote
  have wholeRun : (code :: rest).takeWhile isJsonScalarChar = code :: rest := by
    have split := List.takeWhile_append_dropWhile (p := isJsonScalarChar) (l := code :: rest)
    rwa [cut, List.append_nil] at split
  have longer : (code :: (rest ++ more)).takeWhile isJsonScalarChar =
      code :: rest ++ more.takeWhile isJsonScalarChar := by
    rw [← List.cons_append, List.takeWhile_append, wholeRun, if_pos rfl]
  rw [Walk.scalar, wholeRun, cut] at cutStep
  rw [Walk.scalar, longer] at wholeStep
  by_cases value : top.expecting = .value
  · rw [if_neg (by simp [value])] at cutStep wholeStep
    apply ShownOf.of_prefix
    apply ShownOf.of_turn wholeStep
    rw [Walk.finish_step cutStep, Walk.finish_stop (Walk.step_rest_nil rfl), Walk.output,
      Walk.pass, Walk.pass, List.append_nil]
    apply (List.prefix_append_right_inj walk.copied).mpr
    have sameFrames : (walk.extend more).stack = walk.stack := rfl
    rw [sameFrames]
    split
    next => exact List.prefix_rfl
    next => exact List.prefix_append _ _
  · rw [if_pos (.inl value)] at cutStep wholeStep
    exact Walk.cut_break cutStep fun next stepped => by
      rw [wholeStep] at stepped
      cases stepped

/-! ### The walk of a cut text -/

/-- Where both take the same turn, what holds behind it holds before it. -/
theorem Walk.cut_turn {walk : Walk} {more : JsString}
    (same : (walk.extend more).step isSecretKey =
      (walk.step isSecretKey).map fun next => next.extend more)
    (complete : ((walk.extend more).finish isSecretKey).closed = true)
    (later : ∀ next, walk.step isSecretKey = some next →
      ((next.extend more).finish isSecretKey).closed = true →
        ShownOf (next.finish isSecretKey).output
          ((next.extend more).finish isSecretKey).output) :
    ShownOf (walk.finish isSecretKey).output ((walk.extend more).finish isSecretKey).output := by
  cases stepped : walk.step isSecretKey with
  | none =>
      apply Walk.cut_break stepped
      intro next wholeStepped
      rw [same, stepped] at wholeStepped
      cases wholeStepped
  | some next =>
      rw [stepped] at same
      rw [Walk.finish_step same] at complete ⊢
      rw [Walk.finish_step stepped]
      exact later next stepped complete

/-- A text cut anywhere shows the start of what the whole shows, and white space. -/
theorem Walk.cut (walk : Walk) (more : JsString)
    (complete : ((walk.extend more).finish isSecretKey).closed = true) :
    ShownOf (walk.finish isSecretKey).output ((walk.extend more).finish isSecretKey).output := by
  induction bound : walk.rest.length using Nat.strongRecOn generalizing walk with
  | _ length ih =>
      have later : ∀ next, walk.step isSecretKey = some next →
          ((next.extend more).finish isSecretKey).closed = true →
            ShownOf (next.finish isSecretKey).output
              ((next.extend more).finish isSecretKey).output := by
        intro next stepped nextComplete
        exact ih _ (bound ▸ Walk.step_shorter stepped) next nextComplete rfl
      have both (turn : Option Walk) (whole : (walk.extend more).step isSecretKey =
            turn.map fun next => next.extend more)
          (cut : walk.step isSecretKey = turn) :
          ShownOf (walk.finish isSecretKey).output
            ((walk.extend more).finish isSecretKey).output :=
        Walk.cut_turn (cut ▸ whole) complete later
      cases isClosed : walk.closed with
      | true =>
          apply both none
          · rw [Walk.step, Walk.extend, isClosed]
            rfl
          · rw [Walk.step, isClosed]
            rfl
      | false =>
          cases text : walk.rest with
          | nil =>
              rw [Walk.finish_stop (Walk.step_rest_nil text), Walk.output, text, List.append_nil]
              exact ShownOf.of_prefix ((Walk.copied_finish (walk.extend more)).trans
                (List.prefix_append _ _))
          | cons code rest =>
              have wholeText : (walk.extend more).rest = code :: (rest ++ more) := by
                rw [Walk.extend, text]
                rfl
              by_cases punctuation : isPunctuation code = true
              · apply both (walk.punctuation code rest)
                · rw [@Walk.step_punctuation isSecretKey (walk.extend more) code (rest ++ more)
                    isClosed wholeText punctuation]
                  exact Walk.punctuation_extend walk more code rest
                · exact Walk.step_punctuation isClosed text punctuation
              · have notPunctuation := Bool.eq_false_iff.mpr punctuation
                cases frames : walk.stack with
                | nil =>
                    apply both none
                    · have closedWhole : (walk.extend more).closed = false := isClosed
                      have framesWhole : (walk.extend more).stack = [] := frames
                      rw [Walk.step, wholeText, closedWhole, framesWhole]
                      dsimp only
                      rw [notPunctuation]
                      rfl
                    · rw [Walk.step, text, isClosed, frames]
                      dsimp only
                      rw [notPunctuation]
                      rfl
                | cons top stack =>
                    by_cases isQuote : code = 0x22
                    · rw [isQuote] at text wholeText
                      by_cases literal : jsonStringEnd rest < rest.length
                      · apply both (walk.string isSecretKey top stack rest)
                        · rw [@Walk.step_string isSecretKey (walk.extend more) top stack
                            (rest ++ more) isClosed wholeText frames]
                          exact Walk.string_extend walk more top stack literal
                        · exact Walk.step_string isClosed text frames
                      · have cut := Nat.le_of_not_lt literal
                        cases expecting : top.expecting with
                        | key => exact Walk.cut_key more isClosed text frames expecting cut
                        | value =>
                            exact Walk.cut_value more isClosed text frames expecting cut complete
                        | colon =>
                            apply both none
                            · rw [@Walk.step_string isSecretKey (walk.extend more) top stack
                                (rest ++ more) isClosed wholeText frames, Walk.string, expecting]
                              rfl
                            · rw [Walk.step_string isClosed text frames, Walk.string, expecting]
                        | next =>
                            apply both none
                            · rw [@Walk.step_string isSecretKey (walk.extend more) top stack
                                (rest ++ more) isClosed wholeText frames, Walk.string, expecting]
                              rfl
                            · rw [Walk.step_string isClosed text frames, Walk.string, expecting]
                    · by_cases cut : (code :: rest).dropWhile isJsonScalarChar = []
                      · exact Walk.cut_scalar more isClosed text frames notPunctuation isQuote cut
                      · apply both (walk.scalar top code rest)
                        · rw [@Walk.step_scalar isSecretKey (walk.extend more) top stack code
                            (rest ++ more) isClosed wholeText frames notPunctuation isQuote]
                          exact Walk.scalar_extend walk more top cut
                        · exact Walk.step_scalar isClosed text frames notPunctuation isQuote

end

end NextTime.Redaction
