import Mathlib.Data.List.Forall2

/-
Texts of lines in blocks that blank lines end, and how they are read piece by
piece. A line ends at a line feed, or at a carriage return and a line feed.
Nothing here names a particular program.
-/

namespace LineBlocks

variable {Symbol : Type} [DecidableEq Symbol] (lf cr : Symbol)

/-! ### Cutting at the first two line feeds in a row -/

/-- What stands before the first two line feeds in a row, and what follows them. -/
def cutAtBlank : List Symbol → Option (List Symbol × List Symbol)
  | [] => none
  | [_] => none
  | first :: second :: rest =>
      if first = lf ∧ second = lf then some ([], rest)
      else (cutAtBlank (second :: rest)).map fun cut => (first :: cut.1, cut.2)

/-- The texts cut off one after another, and the rest that holds no end of a block. -/
def blocks : List Symbol → List (List Symbol) × List Symbol
  | [] => ([], [])
  | [only] => ([], [only])
  | first :: second :: rest =>
      if first = lf ∧ second = lf then ([] :: (blocks rest).1, (blocks rest).2)
      else
        match (blocks (second :: rest)).1 with
        | [] => ([], first :: (blocks (second :: rest)).2)
        | block :: others => ((first :: block) :: others, (blocks (second :: rest)).2)

variable {lf cr}

theorem cutAtBlank_some {text block rest : List Symbol}
    (cut : cutAtBlank lf text = some (block, rest)) :
    text = block ++ lf :: lf :: rest ∧ cutAtBlank lf (block ++ [lf]) = none := by
  induction text generalizing block rest with
  | nil => cases cut
  | cons first text ih =>
      cases text with
      | nil => cases cut
      | cons second text =>
          rw [cutAtBlank] at cut
          split at cut
          next blank =>
            obtain ⟨isBlock, isRest⟩ := Prod.mk.inj (Option.some.inj cut)
            rw [← isBlock, ← isRest, blank.1, blank.2]
            exact ⟨rfl, rfl⟩
          next apart =>
            obtain ⟨later, laterCut, same⟩ := Option.map_eq_some_iff.mp cut
            obtain ⟨isBlock, isRest⟩ := Prod.mk.inj same
            obtain ⟨whole, unfinished⟩ := ih laterCut
            rw [← isBlock, ← isRest]
            constructor
            · rw [List.cons_append, whole]
            · cases blockCases : later.1 with
              | nil =>
                  rw [blockCases, List.nil_append] at whole
                  obtain ⟨secondLf, _⟩ := List.cons.inj whole
                  rw [secondLf] at apart
                  rw [List.cons_append, List.nil_append, cutAtBlank, if_neg apart]
                  rfl
              | cons head tail =>
                  rw [blockCases] at whole unfinished
                  obtain ⟨isHead, _⟩ := List.cons.inj whole
                  rw [isHead] at apart
                  rw [List.cons_append, List.cons_append, cutAtBlank, if_neg apart,
                    ← List.cons_append, unfinished]
                  rfl

theorem cutAtBlank_append {text block rest more : List Symbol}
    (cut : cutAtBlank lf text = some (block, rest)) :
    cutAtBlank lf (text ++ more) = some (block, rest ++ more) := by
  induction text generalizing block rest with
  | nil => cases cut
  | cons first text ih =>
      cases text with
      | nil => cases cut
      | cons second text =>
          rw [cutAtBlank] at cut
          rw [List.cons_append, List.cons_append, cutAtBlank]
          split at cut
          next blank =>
            obtain ⟨isBlock, isRest⟩ := Prod.mk.inj (Option.some.inj cut)
            rw [if_pos blank, isBlock, isRest]
          next apart =>
            obtain ⟨later, laterCut, same⟩ := Option.map_eq_some_iff.mp cut
            obtain ⟨isBlock, isRest⟩ := Prod.mk.inj same
            rw [if_neg apart, ← List.cons_append, ih laterCut, ← isBlock, ← isRest]
            rfl

theorem cutAtBlank_length {text block rest : List Symbol}
    (cut : cutAtBlank lf text = some (block, rest)) : rest.length < text.length := by
  rw [(cutAtBlank_some cut).1, List.length_append, List.length_cons, List.length_cons]
  omega

theorem blocks_of_none {text : List Symbol} (whole : cutAtBlank lf text = none) :
    blocks lf text = ([], text) := by
  induction text with
  | nil => rfl
  | cons first text ih =>
      cases text with
      | nil => rfl
      | cons second text =>
          rw [cutAtBlank] at whole
          split at whole
          next => cases whole
          next apart =>
            rw [blocks, if_neg apart, ih (Option.map_eq_none_iff.mp whole)]

theorem blocks_of_some {text block rest : List Symbol}
    (cut : cutAtBlank lf text = some (block, rest)) :
    blocks lf text = (block :: (blocks lf rest).1, (blocks lf rest).2) := by
  induction text generalizing block rest with
  | nil => cases cut
  | cons first text ih =>
      cases text with
      | nil => cases cut
      | cons second text =>
          rw [cutAtBlank] at cut
          split at cut
          next blank =>
            obtain ⟨isBlock, isRest⟩ := Prod.mk.inj (Option.some.inj cut)
            rw [blocks, if_pos blank, isBlock, isRest]
          next apart =>
            obtain ⟨later, laterCut, same⟩ := Option.map_eq_some_iff.mp cut
            obtain ⟨isBlock, isRest⟩ := Prod.mk.inj same
            rw [blocks, if_neg apart, ih laterCut, ← isBlock, ← isRest]

/-- A text read in two pieces: what the first left over stands before the second. -/
theorem blocks_append (text more : List Symbol) :
    blocks lf (text ++ more) =
      ((blocks lf text).1 ++ (blocks lf ((blocks lf text).2 ++ more)).1,
        (blocks lf ((blocks lf text).2 ++ more)).2) := by
  induction size : text.length using Nat.strongRecOn generalizing text with
  | _ bound ih =>
      cases cut : cutAtBlank lf text with
      | none =>
          rw [blocks_of_none cut]
          rfl
      | some parts =>
          have shorter : parts.2.length < bound := size ▸ cutAtBlank_length cut
          rw [blocks_of_some cut, blocks_of_some (cutAtBlank_append cut),
            ih _ shorter parts.2 rfl]
          rfl

theorem blocks_rest (text : List Symbol) :
    blocks lf (blocks lf text).2 = ([], (blocks lf text).2) := by
  have whole := @blocks_append _ _ lf text []
  rw [List.append_nil, List.append_nil] at whole
  obtain ⟨sameBlocks, sameRest⟩ := Prod.ext_iff.mp whole
  apply Prod.ext
  · exact List.self_eq_append_right.mp sameBlocks
  · exact sameRest.symm

theorem blocks_rest_length (text : List Symbol) :
    (blocks lf text).2.length ≤ text.length := by
  induction size : text.length using Nat.strongRecOn generalizing text with
  | _ bound ih =>
      cases cut : cutAtBlank lf text with
      | none =>
          rw [blocks_of_none cut]
          exact Nat.le_of_eq size
      | some parts =>
          have shorter : parts.2.length < bound := size ▸ cutAtBlank_length cut
          rw [blocks_of_some cut]
          exact Nat.le_trans (ih _ shorter parts.2 rfl) (Nat.le_of_lt shorter)

/-! ### Lines -/

section
variable (lf cr)

/-- The lines that have ended, without their line feeds, and what of the last one is there. -/
def lines : List Symbol → List (List Symbol) × List Symbol
  | [] => ([], [])
  | symbol :: rest =>
      if symbol = lf then ([] :: (lines rest).1, (lines rest).2)
      else
        match (lines rest).1 with
        | [] => ([], symbol :: (lines rest).2)
        | line :: others => ((symbol :: line) :: others, (lines rest).2)

/-- `text.split` at the line feeds. -/
def splitLines (text : List Symbol) : List (List Symbol) :=
  (lines lf text).1 ++ [(lines lf text).2]

/-- A line that ends at a carriage return and a line feed ends before both. -/
def dropReturn (line : List Symbol) : List Symbol :=
  if line.getLast? = some cr then line.dropLast else line

/-- The lines of each block: an empty line ends it. -/
def paragraphs : List (List Symbol) → List (List Symbol) → List (List (List Symbol))
  | _, [] => []
  | pending, line :: rest =>
      if line = [] then pending :: paragraphs [] rest
      else paragraphs (pending ++ [line]) rest

end

theorem lines_cons (symbol : Symbol) (rest : List Symbol) :
    lines lf (symbol :: rest) =
      if symbol = lf then ([] :: (lines lf rest).1, (lines lf rest).2)
      else
        match (lines lf rest).1 with
        | [] => ([], symbol :: (lines lf rest).2)
        | line :: others => ((symbol :: line) :: others, (lines lf rest).2) :=
  rfl

theorem lines_append (before after : List Symbol) :
    lines lf (before ++ lf :: after) =
      (splitLines lf before ++ (lines lf after).1, (lines lf after).2) := by
  induction before with
  | nil =>
      rw [List.nil_append, lines, if_pos rfl]
      rfl
  | cons symbol before ih =>
      rw [List.cons_append, lines, ih]
      by_cases ends : symbol = lf
      · rw [if_pos ends, splitLines, splitLines, lines, if_pos ends]
        rfl
      · rw [if_neg ends, splitLines, splitLines, lines, if_neg ends]
        cases (lines lf before).1 with
        | nil => rfl
        | cons line others => rfl

theorem lines_cut {text block rest : List Symbol}
    (cut : cutAtBlank lf text = some (block, rest)) :
    (lines lf text).1 = splitLines lf block ++ [] :: (lines lf rest).1 := by
  rw [(cutAtBlank_some cut).1, lines_append, lines, if_pos rfl]

/-- Without two line feeds in a row, only the first line may be empty. -/
theorem lines_of_none {text : List Symbol} (whole : cutAtBlank lf text = none) :
    ∀ line ∈ (lines lf text).1.tail, line ≠ [] := by
  induction text with
  | nil =>
      intro line member
      cases member
  | cons first text ih =>
      cases text with
      | nil =>
          intro line member
          rw [lines, lines] at member
          split at member
          next => cases member
          next => cases member
      | cons second text =>
          rw [cutAtBlank] at whole
          split at whole
          next => cases whole
          next apart =>
            have later := ih (Option.map_eq_none_iff.mp whole)
            rw [lines]
            split
            next isLf =>
              have notLf : second ≠ lf := fun same => apart ⟨isLf, same⟩
              rw [lines, if_neg notLf] at later ⊢
              cases endedLines : (lines lf text).1 with
              | nil =>
                  intro line member
                  cases member
              | cons line others =>
                  rw [endedLines] at later
                  intro found member
                  cases List.mem_cons.mp member with
                  | inl same => exact same ▸ List.cons_ne_nil _ _
                  | inr inOthers => exact later found inOthers
            next =>
              cases endedLines : (lines lf (second :: text)).1 with
              | nil =>
                  intro line member
                  cases member
              | cons line others =>
                  rw [endedLines] at later
                  exact later

omit [DecidableEq Symbol] in
theorem paragraphs_lines {pending more block : List (List Symbol)}
    (filled : ∀ line ∈ block, line ≠ []) :
    paragraphs pending (block ++ [] :: more) = (pending ++ block) :: paragraphs [] more := by
  induction block generalizing pending with
  | nil => rw [List.nil_append, paragraphs, if_pos rfl, List.append_nil]
  | cons line block ih =>
      rw [List.cons_append, paragraphs, if_neg (filled line List.mem_cons_self),
        ih fun other member => filled other (List.mem_cons_of_mem _ member),
        List.append_assoc, List.singleton_append]

omit [DecidableEq Symbol] in
theorem paragraphs_unended {pending block : List (List Symbol)}
    (filled : ∀ line ∈ block, line ≠ []) : paragraphs pending block = [] := by
  induction block generalizing pending with
  | nil => rfl
  | cons line block ih =>
      rw [paragraphs, if_neg (filled line List.mem_cons_self)]
      exact ih fun other member => filled other (List.mem_cons_of_mem _ member)

/-! ### What is read of a block -/

section
variable {Event : Type} (parse : List (List Symbol) → Option Event)

/-- The reader of a block passes empty lines. -/
structure PassesEmpty : Prop where
  nothing : parse [] = none
  empty : ∀ block, parse ([] :: block) = parse block

variable {parse}

omit [DecidableEq Symbol] in
/-- A block that begins with a line feed: the empty line before it says nothing. -/
theorem paragraphs_block (passes : PassesEmpty parse) {block more : List (List Symbol)}
    (filled : ∀ line ∈ block.tail, line ≠ []) :
    (paragraphs [] (block ++ [] :: more)).filterMap parse =
      (parse block).toList ++ (paragraphs [] more).filterMap parse := by
  cases block with
  | nil =>
      rw [List.nil_append, paragraphs, if_pos rfl, List.filterMap_cons, passes.nothing]
      rfl
  | cons line block =>
      rw [List.tail_cons] at filled
      have cons_eq : ∀ others : List (List (List Symbol)), ∀ first,
          (first :: others).filterMap parse = (parse first).toList ++ others.filterMap parse := by
        intro others first
        rw [List.filterMap_cons]
        cases parse first with
        | none => rfl
        | some event => rfl
      by_cases isEmpty : line = []
      · rw [isEmpty, List.cons_append, paragraphs, if_pos rfl, paragraphs_lines filled,
          List.nil_append, List.filterMap_cons, passes.nothing, passes.empty]
        exact cons_eq _ _
      · have allFilled : ∀ other ∈ line :: block, other ≠ [] := by
          intro other member
          cases List.mem_cons.mp member with
          | inl same => exact same ▸ isEmpty
          | inr inBlock => exact filled other inBlock
        rw [paragraphs_lines allFilled, List.nil_append]
        exact cons_eq _ _

omit [DecidableEq Symbol] in
theorem paragraphs_none (passes : PassesEmpty parse) {block : List (List Symbol)}
    (filled : ∀ line ∈ block.tail, line ≠ []) :
    (paragraphs [] block).filterMap parse = [] := by
  cases block with
  | nil => rfl
  | cons line block =>
      rw [List.tail_cons] at filled
      by_cases isEmpty : line = []
      · rw [isEmpty, paragraphs, if_pos rfl, paragraphs_unended filled, List.filterMap_cons,
          passes.nothing]
        rfl
      · rw [paragraphs, if_neg isEmpty, paragraphs_unended filled]
        rfl

theorem splitLines_filled {text block rest : List Symbol}
    (cut : cutAtBlank lf text = some (block, rest)) :
    ∀ line ∈ (splitLines lf block).tail, line ≠ [] := by
  have unended := lines_of_none (cutAtBlank_some cut).2
  rw [lines_append, lines, List.append_nil] at unended
  exact unended

/-- The blocks cut off a text are read as the blocks of its lines. -/
theorem blocks_filterMap (passes : PassesEmpty parse) (text : List Symbol) :
    (blocks lf text).1.filterMap (fun block => parse (splitLines lf block)) =
      (paragraphs [] (lines lf text).1).filterMap parse := by
  induction size : text.length using Nat.strongRecOn generalizing text with
  | _ bound ih =>
      cases cut : cutAtBlank lf text with
      | none =>
          rw [blocks_of_none cut, paragraphs_none passes (lines_of_none cut)]
          rfl
      | some parts =>
          have shorter : parts.2.length < bound := size ▸ cutAtBlank_length cut
          rw [blocks_of_some cut, lines_cut cut, paragraphs_block passes (splitLines_filled cut),
            ← ih _ shorter parts.2 rfl, List.filterMap_cons]
          cases parse (splitLines lf parts.1) with
          | none => rfl
          | some event => rfl

end

/-! ### Carriage returns -/

section
variable (lf cr)

/-- `text.replace` of each carriage return with a line feed by the line feed. -/
def joinReturns : List Symbol → List Symbol
  | [] => []
  | [only] => [only]
  | first :: second :: rest =>
      if first = cr ∧ second = lf then lf :: joinReturns rest
      else first :: joinReturns (second :: rest)

/-- A text and how it is seen in pieces: a carriage return may stay before its line feed,
but at the start of a line it does not. -/
inductive Seen : Bool → List Symbol → List Symbol → Prop
  | nil (start : Bool) : Seen start [] []
  | symbol {start : Bool} {seen text : List Symbol} (symbol : Symbol)
      (rest : Seen (decide (symbol = lf)) seen text)
      (kept : start = true → symbol = cr → text.head? ≠ some lf) :
      Seen start (symbol :: seen) (symbol :: text)
  | joined {start : Bool} {seen text : List Symbol} (rest : Seen true seen text) :
      Seen start (lf :: seen) (cr :: lf :: text)

end

theorem joinReturns_length (text : List Symbol) :
    (joinReturns lf cr text).length ≤ text.length := by
  induction text using joinReturns.induct lf cr with
  | case1 => exact Nat.le_refl _
  | case2 => exact Nat.le_refl _
  | case3 first second rest joined ih =>
      rw [joinReturns, if_pos joined, List.length_cons, List.length_cons, List.length_cons]
      omega
  | case4 first second rest apart ih =>
      rw [joinReturns, if_neg apart, List.length_cons, List.length_cons]
      exact Nat.succ_le_succ ih

theorem dropReturn_cons {symbol : Symbol} {line : List Symbol} (filled : line ≠ []) :
    dropReturn cr (symbol :: line) = symbol :: dropReturn cr line := by
  rw [dropReturn, dropReturn, List.getLast?_cons_of_ne_nil filled,
    List.dropLast_cons_of_ne_nil filled]
  split
  next => rfl
  next => rfl

/-- A line as it is, or without its carriage return. -/
def Trimmed (cr : Symbol) (seen line : List Symbol) : Prop :=
  seen = dropReturn cr line ∨ seen = line

/-- As before, and a line that is blank is seen as blank. -/
def SeenLine (cr : Symbol) (seen line : List Symbol) : Prop :=
  Trimmed cr seen line ∧ (dropReturn cr line = [] → seen = [])

theorem lines_first_nil {text : List Symbol} {others : List (List Symbol)}
    (first : (lines lf text).1 = [] :: others) : text.head? = some lf := by
  cases text with
  | nil => cases first
  | cons symbol text =>
      rw [lines] at first
      split at first
      next isLf => rw [isLf, List.head?_cons]
      next =>
        split at first
        next => cases first
        next => cases first

theorem dropReturn_single {symbol : Symbol} :
    dropReturn cr [symbol] = if symbol = cr then [] else [symbol] := by
  rw [dropReturn, List.getLast?_singleton]
  simp only [Option.some.injEq]
  rfl

/-- Joining the returns of a whole text takes them off the ends of its lines. -/
theorem lines_joinReturns (distinct : cr ≠ lf) (text : List Symbol) :
    (lines lf (joinReturns lf cr text)).1 = (lines lf text).1.map (dropReturn cr) := by
  induction text using joinReturns.induct lf cr with
  | case1 => rfl
  | case2 only =>
      rw [joinReturns, lines]
      split
      next => rfl
      next => rfl
  | case3 first second rest joined ih =>
      rw [joinReturns, if_pos joined, lines, if_pos rfl, joined.1, joined.2, lines,
        if_neg distinct, lines, if_pos rfl, List.map_cons, dropReturn_single, if_pos rfl, ih]
  | case4 first second rest apart ih =>
      rw [joinReturns, if_neg apart, lines_cons, ih, lines_cons first]
      by_cases isLf : first = lf
      · rw [if_pos isLf, if_pos isLf]
        rfl
      · rw [if_neg isLf, if_neg isLf]
        cases ended : (lines lf (second :: rest)).1 with
        | nil => rfl
        | cons line others =>
            by_cases filled : line = []
            · have isLast := lines_first_nil (filled ▸ ended)
              rw [List.head?_cons, Option.some.injEq] at isLast
              have notReturn : first ≠ cr := fun same => apart ⟨same, isLast⟩
              simp only [List.map_cons, filled, dropReturn_single, if_neg notReturn]
              rfl
            · simp only [List.map_cons, dropReturn_cons filled]

/-- The lines of a text as it is seen: the first may be the end of a longer one. -/
inductive SeenLines (cr : Symbol) (start : Bool) :
    List (List Symbol) → List (List Symbol) → Prop
  | nil : SeenLines cr start [] []
  | cons {seen line : List Symbol} {others rest : List (List Symbol)}
      (trimmed : Trimmed cr seen line)
      (blank : start = true → dropReturn cr line = [] → seen = [])
      (later : List.Forall₂ (SeenLine cr) others rest) :
      SeenLines cr start (seen :: others) (line :: rest)

theorem SeenLines.forall₂ {seen text : List (List Symbol)}
    (lines : SeenLines cr true seen text) : List.Forall₂ (SeenLine cr) seen text := by
  cases lines with
  | nil => exact .nil
  | cons trimmed blank later => exact .cons ⟨trimmed, blank rfl⟩ later

theorem Seen.lines (distinct : cr ≠ lf) {start : Bool} {seen text : List Symbol}
    (sees : Seen lf cr start seen text) :
    SeenLines cr start (lines lf seen).1 (lines lf text).1 := by
  induction sees with
  | nil => exact .nil
  | @symbol start seen text symbol rest kept ih =>
      rw [LineBlocks.lines, LineBlocks.lines]
      by_cases isLf : symbol = lf
      · rw [if_pos isLf, if_pos isLf]
        rw [decide_eq_true isLf] at ih
        exact .cons (.inr rfl) (fun _ _ => rfl) ih.forall₂
      · rw [if_neg isLf, if_neg isLf]
        generalize endedSeen : (LineBlocks.lines lf seen).1 = seenLines at ih
        generalize ended : (LineBlocks.lines lf text).1 = textLines at ih
        cases ih with
        | nil => exact .nil
        | @cons seenLine line others rest trimmed blank later =>
            by_cases filled : line = []
            · have isEmpty : seenLine = [] := by
                rw [filled] at trimmed
                cases trimmed with
                | inl same => exact same
                | inr same => exact same
              rw [filled, isEmpty]
              apply SeenLines.cons (.inr rfl) _ later
              intro atStart dropped
              have isReturn : symbol = cr := by
                by_contra other
                rw [dropReturn_single, if_neg other] at dropped
                cases dropped
              exact absurd (lines_first_nil (filled ▸ ended)) (kept atStart isReturn)
            · have drops := @dropReturn_cons _ _ cr symbol _ filled
              apply SeenLines.cons _ _ later
              · cases trimmed with
                | inl same => exact .inl (by rw [drops, same])
                | inr same => exact .inr (by rw [same])
              · intro _ dropped
                rw [drops] at dropped
                cases dropped
  | joined rest ih =>
      rw [LineBlocks.lines, if_pos rfl, LineBlocks.lines, if_neg distinct, LineBlocks.lines,
        if_pos rfl]
      apply SeenLines.cons (.inl _) (fun _ _ => rfl) ih.forall₂
      rw [dropReturn_single, if_pos rfl]

/-! ### Texts in pieces -/

section
variable (lf cr)

/-- Each piece with its own returns joined. -/
def seenText (pieces : List (List Symbol)) : List Symbol :=
  (pieces.map (joinReturns lf cr)).flatten

def atLineStart (before : List Symbol) : Bool :=
  decide (before = [] ∨ before.getLast? = some lf)

/-- A piece ends between the carriage return and the line feed of a blank line. -/
def PartsBlankLine (pieces : List (List Symbol)) : Prop :=
  ∃ front back before, pieces = front ++ back ∧ front.flatten = before ++ [cr] ∧
    atLineStart lf before = true ∧ back.flatten.head? = some lf

/-- The same, boundary by boundary. -/
theorem partsBlankLine_iff (pieces : List (List Symbol)) :
    PartsBlankLine lf cr pieces ↔ ∃ count ∈ List.range (pieces.length + 1),
      (pieces.take count).flatten.getLast? = some cr ∧
        atLineStart lf (pieces.take count).flatten.dropLast = true ∧
        (pieces.drop count).flatten.head? = some lf := by
  constructor
  · intro ⟨front, back, before, split, ends, starts, follows⟩
    subst split
    refine ⟨front.length, ?_, ?_⟩
    · rw [List.mem_range, List.length_append]
      omega
    · rw [List.take_left, List.drop_left, ends, List.getLast?_concat, List.dropLast_concat]
      exact ⟨rfl, starts, follows⟩
  · intro ⟨count, _, ends, starts, follows⟩
    refine ⟨pieces.take count, pieces.drop count, (pieces.take count).flatten.dropLast,
      (List.take_append_drop _ _).symm, ?_, starts, follows⟩
    exact (List.dropLast_append_getLast? cr ends).symm

instance (pieces : List (List Symbol)) : Decidable (PartsBlankLine lf cr pieces) :=
  decidable_of_iff _ (partsBlankLine_iff lf cr pieces).symm

end

theorem atLineStart_concat (before : List Symbol) (symbol : Symbol) :
    atLineStart lf (before ++ [symbol]) = decide (symbol = lf) := by
  rw [atLineStart, List.getLast?_concat]
  apply decide_eq_decide.mpr
  constructor
  · intro start
    cases start with
    | inl empty =>
        exact absurd empty (List.append_ne_nil_of_right_ne_nil before (List.cons_ne_nil _ _))
    | inr same => exact Option.some.inj same
  · intro same
    exact .inr (congrArg some same)

theorem seen_piece {piece seen text before : List Symbol}
    (rest : Seen lf cr (atLineStart lf (before ++ piece)) seen text)
    (kept : ∀ earlier, before ++ piece = earlier ++ [cr] → atLineStart lf earlier = true →
      text.head? ≠ some lf) :
    Seen lf cr (atLineStart lf before) (joinReturns lf cr piece ++ seen) (piece ++ text) := by
  induction piece using joinReturns.induct lf cr generalizing before with
  | case1 =>
      rw [List.append_nil] at rest
      exact rest
  | case2 only =>
      rw [atLineStart_concat] at rest
      apply Seen.symbol only rest
      intro atStart isReturn
      exact kept before (by rw [isReturn]) atStart
  | case3 first second pieceRest joined ih =>
      have regroup : before ++ first :: second :: pieceRest =
          (before ++ [first] ++ [second]) ++ pieceRest := by
        rw [List.append_assoc, List.append_assoc]
        rfl
      rw [regroup] at rest kept
      have later := ih rest kept
      rw [atLineStart_concat, decide_eq_true joined.2] at later
      rw [joinReturns, if_pos joined, joined.1, joined.2]
      exact Seen.joined later
  | case4 first second pieceRest apart ih =>
      have regroup : before ++ first :: second :: pieceRest =
          (before ++ [first]) ++ (second :: pieceRest) := by
        rw [List.append_assoc]
        rfl
      rw [regroup] at rest kept
      have later := ih rest kept
      rw [atLineStart_concat] at later
      rw [joinReturns, if_neg apart]
      apply Seen.symbol first later
      intro _ isReturn follows
      rw [List.cons_append, List.head?_cons, Option.some.injEq] at follows
      exact apart ⟨isReturn, follows⟩

theorem seen_pieces {pieces : List (List Symbol)} {before : List Symbol}
    (kept : ∀ front back, pieces = front ++ back → ∀ earlier,
      before ++ front.flatten = earlier ++ [cr] → atLineStart lf earlier = true →
        back.flatten.head? ≠ some lf) :
    Seen lf cr (atLineStart lf before) (seenText lf cr pieces) pieces.flatten := by
  induction pieces generalizing before with
  | nil => exact .nil _
  | cons piece pieces ih =>
      rw [seenText, List.map_cons, List.flatten_cons, List.flatten_cons]
      apply seen_piece
      · apply ih
        intro front back split earlier same
        apply kept (piece :: front) back (by rw [split, List.cons_append]) earlier
        rw [List.flatten_cons, ← List.append_assoc]
        exact same
      · intro earlier same
        apply kept [piece] pieces rfl earlier
        rw [List.flatten_cons, List.flatten_nil, List.append_nil]
        exact same

/-- Where no piece ends inside the end of a blank line, the pieces show every blank line. -/
theorem seenText_lines (distinct : cr ≠ lf) {pieces : List (List Symbol)}
    (whole : ¬ PartsBlankLine lf cr pieces) :
    List.Forall₂ (SeenLine cr) (lines lf (seenText lf cr pieces)).1
      (lines lf pieces.flatten).1 := by
  have sees : Seen lf cr (atLineStart lf []) (seenText lf cr pieces) pieces.flatten := by
    apply seen_pieces
    intro front back split earlier same atStart follows
    exact whole ⟨front, back, earlier, split, same, atStart, follows⟩
  exact (sees.lines distinct).forall₂

/-- A line as it is or with a carriage return behind it. -/
def WithReturn (cr : Symbol) (seen line : List Symbol) : Prop :=
  seen = line ∨ seen = line ++ [cr]

theorem SeenLine.withReturn {seen line : List Symbol} (sees : SeenLine cr seen line) :
    WithReturn cr seen (dropReturn cr line) := by
  cases sees.1 with
  | inl same => exact .inl same
  | inr same =>
      rw [dropReturn]
      split
      next ends =>
        have filled : line ≠ [] := by
          intro empty
          rw [empty] at ends
          cases ends
        rw [List.getLast?_eq_some_getLast filled, Option.some.injEq] at ends
        have whole := List.dropLast_append_getLast filled
        rw [ends] at whole
        exact .inr (same.trans whole.symm)
      next => exact .inl same

/-- The blocks of the lines as they are seen, read by a reader that passes carriage
returns. -/
theorem paragraphs_seen {Event : Type} {parse : List (List Symbol) → Option Event}
    (passes : ∀ seen block, List.Forall₂ (WithReturn cr) seen block → parse seen = parse block)
    {seen text pending shown : List (List Symbol)}
    (sees : List.Forall₂ (SeenLine cr) seen text)
    (begun : List.Forall₂ (WithReturn cr) shown pending) :
    (paragraphs shown seen).filterMap parse =
      (paragraphs pending (text.map (dropReturn cr))).filterMap parse := by
  induction sees generalizing shown pending with
  | nil => rfl
  | @cons seenLine line others rest first later ih =>
      rw [List.map_cons, paragraphs, paragraphs]
      by_cases blank : dropReturn cr line = []
      · rw [if_pos (first.2 blank), if_pos blank, List.filterMap_cons, List.filterMap_cons,
          passes shown pending begun, ih .nil]
      · have filled : seenLine ≠ [] := by
          intro empty
          cases first.withReturn with
          | inl same => exact blank (same.symm.trans empty)
          | inr same =>
              rw [empty] at same
              exact List.append_ne_nil_of_right_ne_nil _ (List.cons_ne_nil _ _) same.symm
        rw [if_neg filled, if_neg blank]
        apply ih
        exact List.rel_append begun (.cons first.withReturn .nil)

end LineBlocks
