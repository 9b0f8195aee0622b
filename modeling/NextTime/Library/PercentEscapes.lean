import NextTime.Library.Numerals
import NextTime.Library.TextParts
import Mathlib.Logic.Relation

/-
Texts with percent escapes. One round of decoding reads the escapes a text has from left
to right; escapes do not overlap, so whatever order they are read in, a text is fully
decoded to one text. Nothing here names a particular program.
-/

namespace PercentEscapes

open JsString (isHexadecimal digit)

/-- The unit that `%XY` stands for. -/
def unescape (high low : UInt16) : UInt16 := UInt16.ofNat (16 * digit high + digit low)

/-- One round: every `%XY` that is there, byte by byte. -/
def decode : JsString → JsString
  | 0x25 :: high :: low :: rest =>
      if isHexadecimal high && isHexadecimal low then unescape high low :: decode rest
      else 0x25 :: decode (high :: low :: rest)
  | unit :: rest => unit :: decode rest
  | [] => []

/-- One escape read, anywhere. -/
inductive Step : JsString → JsString → Prop
  | escape {high low : UInt16} (rest : JsString) :
      isHexadecimal high = true → isHexadecimal low = true →
        Step (0x25 :: high :: low :: rest) (unescape high low :: rest)
  | behind (unit : UInt16) {text next : JsString} :
      Step text next → Step (unit :: text) (unit :: next)

/-- Escapes read, any number of them. -/
abbrev Steps : JsString → JsString → Prop := Relation.ReflTransGen Step

theorem isHexadecimal_percent : isHexadecimal 0x25 = false := by decide

/-! ### Where escapes are read -/

theorem Steps.behind (unit : UInt16) {text next : JsString} (steps : Steps text next) :
    Steps (unit :: text) (unit :: next) := by
  induction steps with
  | refl => exact .refl
  | tail _ last ih => exact ih.tail (.behind unit last)

theorem Step.append_left (front : JsString) {text next : JsString} (step : Step text next) :
    Step (front ++ text) (front ++ next) := by
  induction front with
  | nil => exact step
  | cons unit front ih => exact .behind unit ih

theorem Steps.append_left (front : JsString) {text next : JsString} (steps : Steps text next) :
    Steps (front ++ text) (front ++ next) := by
  induction front with
  | nil => exact steps
  | cons unit front ih => exact ih.behind unit

theorem Step.append_right {text next : JsString} (step : Step text next) (back : JsString) :
    Step (text ++ back) (next ++ back) := by
  induction step with
  | escape rest high low => exact .escape (rest ++ back) high low
  | behind unit _ ih => exact .behind unit ih

theorem Steps.append_right {text next : JsString} (steps : Steps text next) (back : JsString) :
    Steps (text ++ back) (next ++ back) := by
  induction steps with
  | refl => exact .refl
  | tail _ last ih => exact ih.tail (last.append_right back)

theorem Steps.append {front next back last : JsString} (one : Steps front next)
    (other : Steps back last) : Steps (front ++ back) (next ++ last) :=
  (one.append_right back).trans (other.append_left next)

theorem decode_steps (text : JsString) : Steps text (decode text) := by
  fun_induction decode text with
  | case1 high low rest escape ih =>
      rw [Bool.and_eq_true] at escape
      exact .head (.escape rest escape.1 escape.2) (ih.behind _)
  | case2 high low rest _ ih => exact ih.behind 0x25
  | case3 unit rest _ ih => exact ih.behind unit
  | case4 => exact .refl

theorem iterate_decode_steps (rounds : Nat) (text : JsString) :
    Steps text (decode^[rounds] text) := by
  induction rounds with
  | zero => exact .refl
  | succ rounds ih =>
      rw [Function.iterate_succ_apply']
      exact ih.trans (decode_steps _)

theorem Steps.ne_nil {text next : JsString} (steps : Steps text next) (some : text ≠ []) :
    next ≠ [] := by
  induction steps with
  | refl => exact some
  | tail _ last ih =>
      cases last with
      | escape => exact List.cons_ne_nil _ _
      | behind => exact List.cons_ne_nil _ _

/-! ### The order plays no part -/

/-- No escape starts inside an escape. -/
theorem Step.behind_escape {high low : UInt16} {rest next : JsString}
    (isHigh : isHexadecimal high = true) (isLow : isHexadecimal low = true)
    (step : Step (high :: low :: rest) next) :
    ∃ last, next = high :: low :: last ∧ Step rest last := by
  cases step with
  | escape _ _ _ => rw [isHexadecimal_percent] at isHigh; cases isHigh
  | behind _ inner =>
      cases inner with
      | escape _ _ _ => rw [isHexadecimal_percent] at isLow; cases isLow
      | behind _ last => exact ⟨_, rfl, last⟩

theorem Step.diamond {text one other : JsString} (first : Step text one)
    (second : Step text other) :
    ∃ both, Relation.ReflGen Step one both ∧ Steps other both := by
  induction first generalizing other with
  | escape rest high low =>
      cases second with
      | escape _ _ _ => exact ⟨_, .refl, .refl⟩
      | behind _ inner =>
          obtain ⟨last, same, step⟩ := inner.behind_escape high low
          rw [same]
          exact ⟨_, .single (.behind _ step), .single (.escape last high low)⟩
  | behind unit step ih =>
      cases second with
      | escape rest high low =>
          obtain ⟨last, same, inner⟩ := step.behind_escape high low
          rw [same]
          exact ⟨_, .single (.escape last high low), .single (.behind _ inner)⟩
      | behind _ inner =>
          obtain ⟨both, fromOne, fromOther⟩ := ih inner
          refine ⟨unit :: both, ?_, fromOther.behind unit⟩
          cases fromOne with
          | refl => exact .refl
          | single last => exact .single (.behind unit last)

/-! ### Fully decoded -/

theorem length_decode_le (text : JsString) : (decode text).length ≤ text.length := by
  fun_induction decode text with
  | case1 high low rest escape ih => simp only [List.length_cons]; omega
  | case2 high low rest _ ih => simp only [List.length_cons] at ih ⊢; omega
  | case3 unit rest _ ih => simp only [List.length_cons]; omega
  | case4 => exact Nat.le_refl _

theorem length_decode_lt {text : JsString} (changed : decode text ≠ text) :
    (decode text).length < text.length := by
  fun_induction decode text with
  | case1 high low rest escape ih =>
      have shorter := length_decode_le rest
      simp only [List.length_cons]
      omega
  | case2 high low rest _ ih =>
      have inner := ih fun same => changed (congrArg _ same)
      simp only [List.length_cons] at inner ⊢
      omega
  | case3 unit rest _ ih =>
      have inner := ih fun same => changed (congrArg _ same)
      simp only [List.length_cons]
      omega
  | case4 => exact absurd rfl changed

/-- Where no escape starts, the unit is kept. -/
theorem decode_cons {unit : UInt16} {text : JsString}
    (none : ∀ high low rest, unit = 0x25 → text = high :: low :: rest →
      (isHexadecimal high && isHexadecimal low) = false) :
    decode (unit :: text) = unit :: decode text := by
  rcases text with _ | ⟨high, _ | ⟨low, rest⟩⟩
  · simp [decode]
  · simp [decode]
  · by_cases percent : unit = 0x25
    · have noEscape := none high low rest percent rfl
      rw [percent, decode, noEscape]
      rfl
    · rw [decode]
      intro _ _ _ same
      exact absurd same percent

theorem decode_cons_of_ne {unit : UInt16} (other : unit ≠ 0x25) (rest : JsString) :
    decode (unit :: rest) = unit :: decode rest :=
  decode_cons fun _ _ _ percent _ => absurd percent other

theorem ne_percent {unit : UInt16} (hexadecimal : isHexadecimal unit = true) : unit ≠ 0x25 := by
  intro same
  rw [same, isHexadecimal_percent] at hexadecimal
  cases hexadecimal

theorem length_decode_cons_le (unit : UInt16) (text : JsString) :
    (decode (unit :: text)).length ≤ (decode text).length + 1 := by
  by_cases escape : ∃ high low rest, unit = 0x25 ∧ text = high :: low :: rest ∧
      (isHexadecimal high && isHexadecimal low) = true
  · obtain ⟨high, low, rest, percent, starts, both⟩ := escape
    rw [percent, starts, decode, if_pos both]
    rw [Bool.and_eq_true] at both
    rw [decode_cons_of_ne (ne_percent both.1), decode_cons_of_ne (ne_percent both.2)]
    simp only [List.length_cons]
    omega
  · rw [decode_cons]
    · exact Nat.le_refl _
    · intro high low rest percent starts
      by_contra both
      exact escape ⟨high, low, rest, percent, starts, Bool.of_not_eq_false both⟩

theorem Step.length_decode_lt {text next : JsString} (step : Step text next) :
    (decode text).length < text.length := by
  induction step with
  | escape rest high low =>
      have shorter := length_decode_le rest
      rw [decode, high, low]
      simp only [Bool.and_self, if_true, List.length_cons]
      omega
  | @behind unit text next step ih =>
      have longer := length_decode_cons_le unit text
      rw [List.length_cons]
      omega

/-- A text with no escape to read. -/
def Plain (text : JsString) : Prop := decode text = text

instance (text : JsString) : Decidable (Plain text) := inferInstanceAs (Decidable (_ = _))

theorem Plain.no_step {text next : JsString} (plain : Plain text) : ¬Step text next := by
  intro step
  have shorter := step.length_decode_lt
  rw [plain] at shorter
  exact Nat.lt_irrefl _ shorter

theorem plain_of_no_step {text : JsString} (none : ∀ next, ¬Step text next) : Plain text := by
  rcases Relation.ReflTransGen.cases_head (decode_steps text) with same | ⟨next, step, _⟩
  · exact same.symm
  · exact absurd step (none next)

theorem Plain.steps_eq {text next : JsString} (plain : Plain text) (steps : Steps text next) :
    next = text := by
  rcases Relation.ReflTransGen.cases_head steps with same | ⟨between, step, _⟩
  · exact same.symm
  · exact absurd step plain.no_step

/-- As many rounds as the text is long. -/
def fullyDecoded (text : JsString) : JsString := decode^[text.length] text

theorem fullyDecoded_steps (text : JsString) : Steps text (fullyDecoded text) :=
  iterate_decode_steps text.length text

theorem plain_iterate_decode (text : JsString) (rounds : Nat) :
    (decode^[rounds] text).length + rounds ≤ text.length ∨ Plain (decode^[rounds] text) := by
  induction rounds with
  | zero => exact .inl (Nat.le_refl _)
  | succ rounds ih =>
      rw [Function.iterate_succ_apply']
      rcases ih with shorter | plain
      · by_cases changed : decode (decode^[rounds] text) = decode^[rounds] text
        · rw [changed]
          exact .inr changed
        · have less := PercentEscapes.length_decode_lt changed
          left
          omega
      · rw [plain]
        exact .inr plain

theorem plain_fullyDecoded (text : JsString) : Plain (fullyDecoded text) := by
  rcases plain_iterate_decode text text.length with shorter | plain
  · have empty : decode^[text.length] text = [] := List.length_eq_zero_iff.mp (by omega)
    rw [fullyDecoded, empty]
    rfl
  · exact plain

/-- Texts one of which is read from the other are fully decoded to the same text. -/
theorem fullyDecoded_eq {text next : JsString} (steps : Steps text next) :
    fullyDecoded text = fullyDecoded next := by
  obtain ⟨both, fromOne, fromOther⟩ :=
    Relation.church_rosser (fun _ _ _ first second => Step.diamond first second)
      (fullyDecoded_steps text) (steps.trans (fullyDecoded_steps next))
  rw [← (plain_fullyDecoded text).steps_eq fromOne,
    (plain_fullyDecoded next).steps_eq fromOther]

theorem fullyDecoded_of_plain {text next : JsString} (steps : Steps text next)
    (plain : Plain next) : fullyDecoded text = next :=
  (fullyDecoded_eq steps).trans (plain.steps_eq (fullyDecoded_steps next))

/-! ### Units that are no part of an escape -/

/-- Neither `%` nor a hexadecimal digit. -/
def Separates (unit : UInt16) : Prop := unit ≠ 0x25 ∧ isHexadecimal unit = false

instance (unit : UInt16) : Decidable (Separates unit) := inferInstanceAs (Decidable (_ ∧ _))

theorem Step.mem {unit : UInt16} (separates : Separates unit) {text next : JsString}
    (step : Step text next) (isIn : unit ∈ text) : unit ∈ next := by
  induction step with
  | @escape high low rest isHigh isLow =>
      rw [List.mem_cons, List.mem_cons, List.mem_cons] at isIn
      rcases isIn with same | same | same | behind
      · exact absurd same separates.1
      · rw [← same, separates.2] at isHigh
        cases isHigh
      · rw [← same, separates.2] at isLow
        cases isLow
      · exact List.mem_cons_of_mem _ behind
  | behind first _ ih =>
      cases List.mem_cons.mp isIn with
      | inl same => exact same ▸ List.mem_cons_self
      | inr behind => exact List.mem_cons_of_mem _ (ih behind)

theorem Steps.mem {unit : UInt16} (separates : Separates unit) {text next : JsString}
    (steps : Steps text next) (isIn : unit ∈ text) : unit ∈ next := by
  induction steps with
  | refl => exact isIn
  | tail _ last ih => exact last.mem separates ih

/-- A separator shows up in some round exactly when it is there in the end. -/
theorem mem_fullyDecoded_iff {unit : UInt16} (separates : Separates unit) {text : JsString} :
    unit ∈ fullyDecoded text ↔ ∃ rounds, unit ∈ decode^[rounds] text := by
  constructor
  · exact fun isIn => ⟨text.length, isIn⟩
  · intro ⟨rounds, isIn⟩
    rw [fullyDecoded_eq (iterate_decode_steps rounds text)]
    exact (fullyDecoded_steps _).mem separates isIn

/-- A text with no escape is what some round makes of a text exactly when it is what is left in
the end. -/
theorem eq_fullyDecoded_iff {text plain : JsString} (isPlain : Plain plain) :
    fullyDecoded text = plain ↔ ∃ rounds, decode^[rounds] text = plain := by
  constructor
  · exact fun same => ⟨text.length, same⟩
  · intro ⟨rounds, same⟩
    exact fullyDecoded_of_plain (same ▸ iterate_decode_steps rounds text) isPlain

theorem decode_append_separator {unit : UInt16} (separates : Separates unit)
    (front back : JsString) :
    decode (front ++ unit :: back) = decode front ++ unit :: decode back := by
  fun_induction decode front with
  | case1 high low rest escape ih =>
      rw [List.cons_append, List.cons_append, List.cons_append, decode, if_pos escape, ih,
        List.cons_append]
  | case2 high low rest escape ih =>
      rw [List.cons_append, List.cons_append, List.cons_append, decode, if_neg escape,
        ← List.cons_append, ← List.cons_append, ih, List.cons_append]
  | case3 first rest short ih =>
      rw [List.cons_append, List.cons_append, decode_cons, ih]
      intro high low more percent starts
      -- An escape that starts here would take in the separator.
      rcases rest with _ | ⟨next, _ | ⟨last, rest⟩⟩
      · cases starts
        rw [separates.2, Bool.false_and]
      · cases starts
        rw [separates.2, Bool.and_false]
      · exact (short next last rest percent rfl).elim
  | case4 => exact decode_cons_of_ne separates.1 back

/-! ### Parts between separators -/

section
variable {separator : UInt16} (separates : Separates separator)
include separates

theorem iterate_decode_append (rounds : Nat) (front back : JsString) :
    decode^[rounds] (front ++ separator :: back) =
      decode^[rounds] front ++ separator :: decode^[rounds] back := by
  induction rounds generalizing front back with
  | zero => rfl
  | succ rounds ih =>
      rw [Function.iterate_succ_apply, decode_append_separator separates, ih]
      rfl

/-- Decoding leaves the separators between the parts where they are. -/
theorem iterate_decode_intercalate (rounds : Nat) {parts : List JsString} :
    decode^[rounds] ([separator].intercalate parts) =
      [separator].intercalate (parts.map decode^[rounds]) := by
  induction parts with
  | nil =>
      have empty : Plain [] := rfl
      exact Function.iterate_fixed empty rounds
  | cons part parts ih =>
      cases parts with
      | nil => rw [List.map_singleton, List.intercalate_singleton, List.intercalate_singleton]
      | cons next parts =>
          rw [List.map_cons, List.map_cons, List.intercalate_cons_cons, List.intercalate_cons_cons,
            List.append_assoc, List.append_assoc, List.singleton_append, List.singleton_append,
            iterate_decode_append separates, ih, List.map_cons]

end

/-! ### Texts spelled code by code -/

/-- Codes spelled as texts: one that is kept as its unit, any other as what is read as `read`
and leaves no escape open. -/
structure Spells {Code : Type} (kept : Code → Bool) (unit : Code → UInt16)
    (read spelled : Code → JsString) : Prop where
  plain : ∀ code, kept code = true → spelled code = [unit code]
  opens : ∀ code, kept code = false →
    ∃ first rest, spelled code = first :: rest ∧ isHexadecimal first = false
  reads : ∀ code, kept code = false →
    ∀ rest, decode (spelled code ++ rest) = read code ++ decode rest

section
variable {Code : Type} {kept : Code → Bool} {unit : Code → UInt16}
  {read spelled other : Code → JsString}

theorem Spells.hexadecimal (spells : Spells kept unit read spelled) {codes : List Code}
    {first : UInt16} {rest : JsString} (begins : codes.flatMap spelled = first :: rest)
    (hexadecimal : isHexadecimal first = true) :
    ∃ code behind, codes = code :: behind ∧ kept code = true ∧ unit code = first ∧
      behind.flatMap spelled = rest := by
  cases codes with
  | nil => cases begins
  | cons code behind =>
      rw [List.flatMap_cons] at begins
      cases isKept : kept code with
      | true =>
          rw [spells.plain code isKept] at begins
          obtain ⟨same, isRest⟩ := List.cons.inj begins
          exact ⟨code, behind, rfl, isKept, same, isRest⟩
      | false =>
          obtain ⟨opened, more, whole, noDigit⟩ := spells.opens code isKept
          rw [whole] at begins
          rw [← (List.cons.inj begins).1, noDigit] at hexadecimal
          cases hexadecimal

/-- Behind a percent the next two codes make an escape in any spelling or in none. -/
theorem Spells.escape (spells : Spells kept unit read spelled)
    (others : Spells kept unit read other) {codes : List Code} {high low : UInt16}
    {rest : JsString} (begins : codes.flatMap spelled = high :: low :: rest)
    (both : (isHexadecimal high && isHexadecimal low) = true) :
    ∃ front behind, codes = front ++ behind ∧ front ≠ [] ∧ rest = behind.flatMap spelled ∧
      codes.flatMap other = high :: low :: behind.flatMap other := by
  rw [Bool.and_eq_true] at both
  obtain ⟨first, middle, isFirst, firstKept, isHigh, more⟩ := spells.hexadecimal begins both.1
  obtain ⟨second, behind, isSecond, secondKept, isLow, isRest⟩ := spells.hexadecimal more both.2
  refine ⟨[first, second], behind, ?_, List.cons_ne_nil _ _, isRest.symm, ?_⟩
  · rw [isFirst, isSecond]
    rfl
  · rw [isFirst, isSecond, List.flatMap_cons, List.flatMap_cons, others.plain first firstKept,
      others.plain second secondKept, isHigh, isLow]
    rfl

/-- Spellings of the same codes are decoded to the same text. -/
theorem Spells.decode_eq (spells : Spells kept unit read spelled)
    (others : Spells kept unit read other) (codes : List Code) :
    decode (codes.flatMap spelled) = decode (codes.flatMap other) := by
  induction length : codes.length using Nat.strong_induction_on generalizing codes with
  | h size ih =>
      cases codes with
      | nil => rfl
      | cons code codes =>
          have later := ih codes.length (by rw [← length, List.length_cons]; omega) codes rfl
          rw [List.flatMap_cons, List.flatMap_cons]
          cases isKept : kept code with
          | false => rw [spells.reads code isKept, others.reads code isKept, later]
          | true =>
              rw [spells.plain code isKept, others.plain code isKept, List.singleton_append,
                List.singleton_append]
              by_cases escape : ∃ high low rest, unit code = 0x25 ∧
                  codes.flatMap spelled = high :: low :: rest ∧
                    (isHexadecimal high && isHexadecimal low) = true
              · obtain ⟨high, low, rest, percent, begins, both⟩ := escape
                obtain ⟨front, behind, whole, some, isRest, same⟩ := spells.escape others begins both
                have shorter : behind.length < size := by
                  have front := List.length_pos_iff.mpr some
                  rw [← length, List.length_cons, whole, List.length_append]
                  omega
                rw [begins, same, percent, decode, decode, if_pos both, if_pos both, isRest,
                  ih behind.length shorter behind rfl]
              · rw [decode_cons, decode_cons, later]
                · intro high low rest percent begins
                  by_contra both
                  have isEscape := Bool.of_not_eq_false both
                  obtain ⟨_, behind, _, _, _, same⟩ := others.escape spells begins isEscape
                  exact escape ⟨high, low, _, percent, same, isEscape⟩
                · intro high low rest percent begins
                  by_contra both
                  exact escape ⟨high, low, rest, percent, begins, Bool.of_not_eq_false both⟩

end

/-! ### Beyond ASCII -/

def Wide (text : JsString) : Prop := text ≠ [] ∧ ∀ unit ∈ text, 0x80 ≤ unit

/-- Texts that differ in what stands for the units beyond ASCII, and in nothing else. -/
inductive Alike : JsString → JsString → Prop
  | nil : Alike [] []
  | ascii {unit : UInt16} {text other : JsString} (small : unit < 0x80)
      (behind : Alike text other) : Alike (unit :: text) (unit :: other)
  | wide {front back text other : JsString} (first : Wide front) (second : Wide back)
      (behind : Alike text other) : Alike (front ++ text) (back ++ other)

theorem Alike.symm {text other : JsString} (alike : Alike text other) : Alike other text := by
  induction alike with
  | nil => exact .nil
  | ascii small _ ih => exact .ascii small ih
  | wide first second _ ih => exact .wide second first ih

theorem Alike.append {text other back last : JsString} (first : Alike text other)
    (second : Alike back last) : Alike (text ++ back) (other ++ last) := by
  induction first with
  | nil => exact second
  | ascii small _ ih => exact .ascii small ih
  | wide front back _ ih =>
      rw [List.append_assoc, List.append_assoc]
      exact .wide front back ih

theorem Wide.cons_inv {front text : JsString} {unit : UInt16} {rest : JsString}
    (wide : Wide front) (same : front ++ text = unit :: rest) : 0x80 ≤ unit := by
  obtain ⟨some, all⟩ := wide
  cases front with
  | nil => exact absurd rfl some
  | cons first front =>
      obtain ⟨isFirst, _⟩ := List.cons.inj same
      exact isFirst ▸ all first List.mem_cons_self

/-- An ASCII unit stands where it stands in the other text. -/
theorem Alike.cons_inv {unit : UInt16} (small : unit < 0x80) {text other : JsString}
    (alike : Alike (unit :: text) other) : ∃ rest, other = unit :: rest ∧ Alike text rest := by
  generalize whole : unit :: text = front at alike
  cases alike with
  | nil => cases whole
  | ascii _ behind =>
      obtain ⟨isUnit, isText⟩ := List.cons.inj whole
      exact ⟨_, isUnit ▸ rfl, isText ▸ behind⟩
  | wide first _ _ => exact absurd small (UInt16.not_lt.mpr (first.cons_inv whole.symm))

theorem Alike.nil_inv {other : JsString} (alike : Alike [] other) : other = [] := by
  generalize whole : ([] : JsString) = text at alike
  cases alike with
  | nil => rfl
  | ascii => cases whole
  | wide first _ _ => exact absurd (List.append_eq_nil_iff.mp whole.symm).1 first.1

theorem Alike.mem {unit : UInt16} (small : unit < 0x80) {text other : JsString}
    (alike : Alike text other) (isIn : unit ∈ text) : unit ∈ other := by
  induction alike with
  | nil => exact isIn
  | ascii _ _ ih =>
      rcases List.mem_cons.mp isIn with same | behind
      · exact same ▸ List.mem_cons_self
      · exact List.mem_cons_of_mem _ (ih behind)
  | wide first _ _ ih =>
      rcases List.mem_append.mp isIn with inFront | behind
      · exact absurd small (UInt16.not_lt.mpr (first.2 unit inFront))
      · exact List.mem_append_right _ (ih behind)

theorem ascii_of_all {text : JsString} (each : text.all (fun unit => unit < 0x80) = true) :
    ∀ unit ∈ text, unit < 0x80 :=
  fun unit isIn => of_decide_eq_true (List.all_eq_true.mp each unit isIn)

theorem Alike.eq_of_ascii {text other : JsString} (ascii : ∀ unit ∈ text, unit < 0x80)
    (alike : Alike text other) : other = text := by
  induction text generalizing other with
  | nil => exact alike.nil_inv
  | cons unit text ih =>
      obtain ⟨rest, isOther, behind⟩ := alike.cons_inv (ascii unit List.mem_cons_self)
      rw [isOther, ih (fun held isIn => ascii held (List.mem_cons_of_mem _ isIn)) behind]

theorem Alike.eq_iff {text other plain : JsString} (alike : Alike text other)
    (ascii : ∀ unit ∈ plain, unit < 0x80) : text = plain ↔ other = plain := by
  constructor
  · intro same
    rw [alike.eq_of_ascii (same ▸ ascii), same]
  · intro same
    rw [alike.symm.eq_of_ascii (same ▸ ascii), same]

/-- No escape starts in units beyond ASCII. -/
theorem Step.behind_wide {front text next : JsString} (wide : ∀ unit ∈ front, 0x80 ≤ unit)
    (step : Step (front ++ text) next) : ∃ last, next = front ++ last ∧ Step text last := by
  induction front generalizing next with
  | nil => exact ⟨next, rfl, step⟩
  | cons unit front ih =>
      rw [List.cons_append] at step
      generalize whole : front ++ text = behind at step
      cases step with
      | escape _ _ _ => exact absurd (wide 0x25 List.mem_cons_self) (by decide)
      | behind _ inner =>
          obtain ⟨last, same, rest⟩ :=
            ih (fun held isIn => wide held (List.mem_cons_of_mem _ isIn)) (whole ▸ inner)
          exact ⟨last, same ▸ rfl, rest⟩

theorem lt_of_isHexadecimal {unit : UInt16} (hexadecimal : isHexadecimal unit = true) :
    unit < 0x80 := by
  have range := JsString.isHexadecimal_iff.mp hexadecimal
  rw [UInt16.lt_iff_toNat_lt]
  change unit.toNat < 128
  omega

theorem Alike.step {text other next : JsString} (alike : Alike text other)
    (step : Step text next) : ∃ last, Step other last ∧ Alike next last := by
  induction alike generalizing next with
  | nil => cases step
  | ascii small behind ih =>
      cases step with
      | @escape high low rest isHigh isLow =>
          obtain ⟨_, isMiddle, afterHigh⟩ := behind.cons_inv (lt_of_isHexadecimal isHigh)
          obtain ⟨last, isLast, afterLow⟩ := afterHigh.cons_inv (lt_of_isHexadecimal isLow)
          rw [isMiddle, isLast]
          refine ⟨_, .escape last isHigh isLow, ?_⟩
          by_cases read : unescape high low < 0x80
          · exact .ascii read afterLow
          · have wide : Wide [unescape high low] := by
              constructor
              · exact List.cons_ne_nil _ _
              · intro unit isIn
                rw [List.mem_singleton.mp isIn]
                exact UInt16.not_lt.mp read
            exact .wide wide wide afterLow
      | behind _ inner =>
          obtain ⟨last, stepped, after⟩ := ih inner
          exact ⟨_, stepped.behind _, .ascii small after⟩
  | @wide front back _ _ first second _ ih =>
      obtain ⟨rest, isNext, inner⟩ := step.behind_wide first.2
      obtain ⟨last, stepped, after⟩ := ih inner
      rw [isNext]
      exact ⟨back ++ last, stepped.append_left back, .wide first second after⟩

theorem Alike.steps {text other next : JsString} (alike : Alike text other)
    (steps : Steps text next) : ∃ last, Steps other last ∧ Alike next last := by
  induction steps with
  | refl => exact ⟨other, .refl, alike⟩
  | tail _ step ih =>
      obtain ⟨middle, toMiddle, between⟩ := ih
      obtain ⟨last, stepped, after⟩ := between.step step
      exact ⟨last, toMiddle.tail stepped, after⟩

/-- Alike texts are fully decoded to alike texts. -/
theorem Alike.fullyDecoded {text other : JsString} (alike : Alike text other) :
    Alike (fullyDecoded text) (fullyDecoded other) := by
  obtain ⟨last, steps, after⟩ := alike.steps (fullyDecoded_steps text)
  have plain : Plain last := by
    apply plain_of_no_step
    intro next step
    obtain ⟨_, back, _⟩ := after.symm.step step
    exact (plain_fullyDecoded text).no_step back
  rw [fullyDecoded_of_plain steps plain]
  exact after

end PercentEscapes
