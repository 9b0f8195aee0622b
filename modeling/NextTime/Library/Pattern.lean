import NextTime.Library.JsString

/-
Regular expressions without repetition, and the search for a match anywhere in a text.
Nothing here names a particular program.
-/

open JsString (js)

inductive Pattern
  | empty
  | start
  | finish
  | oneOf (units : JsString)
  | seq (first second : Pattern)
  | alt (first second : Pattern)

namespace Pattern

/-- A text, unit by unit. -/
def text (units : JsString) : Pattern :=
  units.foldr (fun unit rest => seq (oneOf [unit]) rest) empty

def word (ascii : String) : Pattern := text (js ascii)

def optional (pattern : Pattern) : Pattern := alt pattern empty

/-- One alternative of a list; none matches where there is none. -/
def anyOf (patterns : List Pattern) : Pattern := patterns.foldr alt (oneOf [])

def words (alternatives : List String) : Pattern := anyOf (alternatives.map word)

/-- What is left behind each match at the front of a text; the flag is up at its very start. -/
def rests : Pattern → Bool → JsString → List (Bool × JsString)
  | .empty, atStart, text => [(atStart, text)]
  | .start, atStart, text => if atStart then [(true, text)] else []
  | .finish, atStart, text => if text = [] then [(atStart, text)] else []
  | .oneOf _, _, [] => []
  | .oneOf units, _, unit :: rest => if units.contains unit then [(false, rest)] else []
  | .seq first second, atStart, text =>
      (first.rests atStart text).flatMap fun left => second.rests left.1 left.2
  | .alt first second, atStart, text => first.rests atStart text ++ second.rests atStart text

def testFrom (pattern : Pattern) : Bool → JsString → Bool
  | atStart, [] => !(pattern.rests atStart []).isEmpty
  | atStart, unit :: rest =>
      !(pattern.rests atStart (unit :: rest)).isEmpty || pattern.testFrom false rest

/-- `pattern.test(text)`. -/
def test (pattern : Pattern) (text : JsString) : Bool := pattern.testFrom true text

/-! ### Where a match can be -/

theorem isSuffix_of_rests {pattern : Pattern} {left : Bool × JsString} :
    ∀ {atStart : Bool} {text : JsString}, left ∈ pattern.rests atStart text → left.2 <:+ text := by
  induction pattern generalizing left with
  | empty =>
      intro atStart text isLeft
      exact List.mem_singleton.mp isLeft ▸ List.suffix_refl text
  | start =>
      intro atStart text isLeft
      rw [rests] at isLeft
      split at isLeft
      next =>
        exact List.mem_singleton.mp isLeft ▸ List.suffix_refl text
      next => cases isLeft
  | finish =>
      intro atStart text isLeft
      rw [rests] at isLeft
      split at isLeft
      next =>
        exact List.mem_singleton.mp isLeft ▸ List.suffix_refl text
      next => cases isLeft
  | oneOf units =>
      intro atStart text isLeft
      cases text with
      | nil => cases isLeft
      | cons unit rest =>
          rw [rests] at isLeft
          split at isLeft
          next =>
            rw [List.mem_singleton.mp isLeft]
            exact List.suffix_cons unit rest
          next => cases isLeft
  | seq first second firstIh secondIh =>
      intro atStart text isLeft
      obtain ⟨middle, isMiddle, isLast⟩ := List.mem_flatMap.mp isLeft
      exact (secondIh isLast).trans (firstIh isMiddle)
  | alt first second firstIh secondIh =>
      intro atStart text isLeft
      rcases List.mem_append.mp isLeft with isFirst | isSecond
      · exact firstIh isFirst
      · exact secondIh isSecond

theorem rests_text {units : JsString} {left : Bool × JsString} :
    ∀ {atStart : Bool} {input : JsString}, left ∈ (text units).rests atStart input →
      input = units ++ left.2 := by
  induction units with
  | nil =>
      intro atStart input isLeft
      rw [List.mem_singleton.mp isLeft]
      rfl
  | cons unit units ih =>
      intro atStart input isLeft
      obtain ⟨middle, isMiddle, isLast⟩ := List.mem_flatMap.mp isLeft
      cases input with
      | nil => cases isMiddle
      | cons first rest =>
          rw [rests] at isMiddle
          split at isMiddle
          next held =>
            rw [List.mem_singleton.mp isMiddle] at isLast
            have whole : rest = units ++ left.2 := ih isLast
            rw [whole, List.mem_singleton.mp (List.contains_iff_mem.mp held)]
            rfl
          next => cases isMiddle

theorem rests_of_testFrom {pattern : Pattern} {text : JsString} :
    ∀ {atStart : Bool}, pattern.testFrom atStart text = true →
      ∃ flag back, back <:+ text ∧ pattern.rests flag back ≠ [] := by
  induction text with
  | nil =>
      intro atStart found
      refine ⟨atStart, [], List.suffix_refl [], ?_⟩
      simpa [testFrom] using found
  | cons unit rest ih =>
      intro atStart found
      rw [testFrom, Bool.or_eq_true] at found
      rcases found with here | later
      · refine ⟨atStart, unit :: rest, List.suffix_refl _, ?_⟩
        simpa using here
      · obtain ⟨flag, back, isBack, matched⟩ := ih later
        exact ⟨flag, back, isBack.trans (List.suffix_cons unit rest), matched⟩

/-- A pattern that ends in a text and `$` is found only in what ends in the text. -/
theorem isSuffix_of_test {before : Pattern} {units input : JsString}
    (found : (seq before (seq (text units) finish)).test input = true) : units <:+ input := by
  obtain ⟨flag, back, isBack, matched⟩ := rests_of_testFrom found
  obtain ⟨left, isLeft⟩ := List.exists_mem_of_ne_nil _ matched
  obtain ⟨middle, isMiddle, isEnd⟩ := List.mem_flatMap.mp isLeft
  obtain ⟨last, isLast, isFinish⟩ := List.mem_flatMap.mp isEnd
  rw [rests] at isFinish
  split at isFinish
  next empty =>
    have whole := rests_text isLast
    rw [empty, List.append_nil] at whole
    rw [← whole]
    exact (isSuffix_of_rests isMiddle).trans isBack
  next => cases isFinish

end Pattern
