import NextTime.Library.PercentEscapes

/-
Texts in UTF-8, and percent-encoded but for the units that are kept. A lone surrogate stands
for U+FFFD. Nothing here names a particular program.
-/

namespace UriEncoding

open JsString (digit isHexadecimal)
open PercentEscapes (Steps Step Alike Wide unescape)

def isLead (unit : UInt16) : Bool := 0xD800 ≤ unit && unit ≤ 0xDBFF

def isTrail (unit : UInt16) : Bool := 0xDC00 ≤ unit && unit ≤ 0xDFFF

theorem isLead_iff {unit : UInt16} :
    isLead unit = true ↔ 0xD800 ≤ unit.toNat ∧ unit.toNat ≤ 0xDBFF := by
  simp [isLead, UInt16.le_iff_toNat_le]

theorem isTrail_iff {unit : UInt16} :
    isTrail unit = true ↔ 0xDC00 ≤ unit.toNat ∧ unit.toNat ≤ 0xDFFF := by
  simp [isTrail, UInt16.le_iff_toNat_le]

def scalar (unit : UInt16) : Nat := if isLead unit || isTrail unit then 0xFFFD else unit.toNat

def pair (lead trail : UInt16) : Nat :=
  0x10000 + 0x400 * (lead.toNat - 0xD800) + (trail.toNat - 0xDC00)

def codePoints : JsString → List Nat
  | lead :: trail :: rest =>
      if isLead lead && isTrail trail then pair lead trail :: codePoints rest
      else scalar lead :: codePoints (trail :: rest)
  | [unit] => [scalar unit]
  | [] => []

/-- Every surrogate is in a pair. -/
def isWellFormed : JsString → Bool
  | lead :: trail :: rest =>
      if isLead lead && isTrail trail then isWellFormed rest
      else !isLead lead && !isTrail lead && isWellFormed (trail :: rest)
  | [unit] => !isLead unit && !isTrail unit
  | [] => true

def utf8 (code : Nat) : List Nat :=
  if code < 0x80 then [code]
  else if code < 0x800 then [0xC0 + code / 0x40, 0x80 + code % 0x40]
  else if code < 0x10000 then
    [0xE0 + code / 0x1000, 0x80 + code / 0x40 % 0x40, 0x80 + code % 0x40]
  else
    [0xF0 + code / 0x40000, 0x80 + code / 0x1000 % 0x40, 0x80 + code / 0x40 % 0x40,
      0x80 + code % 0x40]

def hexDigit (value : Nat) : UInt16 :=
  UInt16.ofNat (if value < 10 then 0x30 + value else 0x37 + value)

def escape (octet : Nat) : JsString := [0x25, hexDigit (octet / 16), hexDigit (octet % 16)]

section
variable (keeps : UInt16 → Bool)

def encodePoint (code : Nat) : JsString :=
  if code < 0x80 && keeps (UInt16.ofNat code) then [UInt16.ofNat code]
  else (utf8 code).flatMap escape

def percentEncode (text : JsString) : JsString := (codePoints text).flatMap (encodePoint keeps)

end

/-- The octets of a text, each as a unit. -/
def octets (text : JsString) : JsString :=
  (codePoints text).flatMap fun code => (utf8 code).map UInt16.ofNat

/-! ### What is encoded is decoded -/

theorem codePoints_lt {text : JsString} : ∀ code ∈ codePoints text, code < 0x110000 := by
  have small (unit : UInt16) : scalar unit < 0x110000 := by
    have bound := unit.toNat_lt
    unfold scalar
    split <;> omega
  fun_induction codePoints text with
  | case1 lead trail rest surrogates ih =>
      intro code isIn
      rcases List.mem_cons.mp isIn with same | behind
      · rw [Bool.and_eq_true, isLead_iff, isTrail_iff] at surrogates
        unfold pair at same
        omega
      · exact ih code behind
  | case2 lead trail rest _ ih =>
      intro code isIn
      rcases List.mem_cons.mp isIn with same | behind
      · exact same ▸ small lead
      · exact ih code behind
  | case3 unit =>
      intro code isIn
      exact List.mem_singleton.mp isIn ▸ small unit
  | case4 => exact fun _ isIn => nomatch isIn

theorem utf8_lt {code : Nat} (small : code < 0x110000) : ∀ octet ∈ utf8 code, octet < 256 := by
  unfold utf8
  intro octet isIn
  split at isIn
  next => rw [List.mem_singleton.mp isIn]; omega
  next =>
    split at isIn
    next => simp only [List.mem_cons, List.not_mem_nil, or_false] at isIn; omega
    next =>
      split at isIn
      next => simp only [List.mem_cons, List.not_mem_nil, or_false] at isIn; omega
      next => simp only [List.mem_cons, List.not_mem_nil, or_false] at isIn; omega

theorem utf8_wide {code : Nat} (big : 0x80 ≤ code) (small : code < 0x110000) :
    Wide ((utf8 code).map UInt16.ofNat) := by
  have each : utf8 code ≠ [] ∧ ∀ octet ∈ utf8 code, 0x80 ≤ octet := by
    unfold utf8
    rw [if_neg (by omega)]
    split
    next =>
      simp only [ne_eq, reduceCtorEq, not_false_eq_true, List.forall_mem_cons, true_and]
      refine ⟨by omega, by omega, fun _ isIn => nomatch isIn⟩
    next =>
      split
      next =>
        simp only [ne_eq, reduceCtorEq, not_false_eq_true, List.forall_mem_cons, true_and]
        refine ⟨by omega, by omega, by omega, fun _ isIn => nomatch isIn⟩
      next =>
        simp only [ne_eq, reduceCtorEq, not_false_eq_true, List.forall_mem_cons, true_and]
        refine ⟨by omega, by omega, by omega, by omega, fun _ isIn => nomatch isIn⟩
  constructor
  · exact fun none => each.1 (List.map_eq_nil_iff.mp none)
  · intro unit isIn
    obtain ⟨octet, isOctet, isUnit⟩ := List.mem_map.mp isIn
    have bound := utf8_lt small octet isOctet
    have wide := each.2 octet isOctet
    rw [← isUnit, UInt16.le_iff_toNat_le, UInt16.toNat_ofNat']
    change 128 ≤ octet % 65536
    omega

theorem isHexadecimal_hexDigit {value : Nat} (small : value < 16) :
    isHexadecimal (hexDigit value) = true ∧ digit (hexDigit value) = value := by
  have each : ∀ value : Fin 16,
      isHexadecimal (hexDigit value) = true ∧ digit (hexDigit value) = value := by decide
  exact each ⟨value, small⟩

theorem escape_step {octet : Nat} (small : octet < 256) (rest : JsString) :
    Step (escape octet ++ rest) (UInt16.ofNat octet :: rest) := by
  obtain ⟨isHigh, high⟩ := isHexadecimal_hexDigit (show octet / 16 < 16 by omega)
  obtain ⟨isLow, low⟩ := isHexadecimal_hexDigit (show octet % 16 < 16 by omega)
  have read : unescape (hexDigit (octet / 16)) (hexDigit (octet % 16)) = UInt16.ofNat octet := by
    rw [unescape, high, low]
    congr 1
    omega
  rw [← read]
  exact .escape rest isHigh isLow

theorem escapes_steps {octets : List Nat} (small : ∀ octet ∈ octets, octet < 256) :
    Steps (octets.flatMap escape) (octets.map UInt16.ofNat) := by
  induction octets with
  | nil => exact .refl
  | cons octet octets ih =>
      have rest := ih fun held isIn => small held (List.mem_cons_of_mem _ isIn)
      exact .head (escape_step (small octet List.mem_cons_self) _) (rest.behind _)

theorem percentEncode_steps (keeps : UInt16 → Bool) (text : JsString) :
    Steps (percentEncode keeps text) (octets text) := by
  have small := @codePoints_lt text
  unfold percentEncode octets
  generalize codePoints text = codes at small
  induction codes with
  | nil => exact .refl
  | cons code codes ih =>
      rw [List.flatMap_cons, List.flatMap_cons]
      have isSmall := small code List.mem_cons_self
      have rest := ih fun held isIn => small held (List.mem_cons_of_mem _ isIn)
      refine Steps.append ?_ rest
      unfold encodePoint
      split
      next kept =>
        rw [Bool.and_eq_true, decide_eq_true_eq] at kept
        rw [utf8, if_pos kept.1]
        exact .refl
      next => exact escapes_steps (utf8_lt isSmall)

/-- A text and its octets differ beyond ASCII only. -/
theorem alike_octets (text : JsString) : Alike text (octets text) := by
  have single (unit : UInt16) (text other : JsString) (behind : Alike text other) :
      Alike (unit :: text) ((utf8 (scalar unit)).map UInt16.ofNat ++ other) := by
    by_cases small : unit < 0x80
    · have isSmall : unit.toNat < 0x80 := UInt16.lt_iff_toNat_lt.mp small
      have isScalar : scalar unit = unit.toNat := by
        unfold scalar
        rw [if_neg]
        rw [Bool.or_eq_true, isLead_iff, isTrail_iff]
        omega
      rw [isScalar, utf8, if_pos isSmall, List.map_singleton, UInt16.ofNat_toNat]
      exact .ascii small behind
    · have isWide : 0x80 ≤ unit.toNat := UInt16.le_iff_toNat_le.mp (UInt16.not_lt.mp small)
      have big : 0x80 ≤ scalar unit ∧ scalar unit < 0x110000 := by
        have bound := unit.toNat_lt
        unfold scalar
        split <;> omega
      have front : Wide [unit] :=
        ⟨List.cons_ne_nil _ _, fun held isIn => List.mem_singleton.mp isIn ▸ UInt16.not_lt.mp small⟩
      exact .wide front (utf8_wide big.1 big.2) behind
  unfold octets
  fun_induction codePoints text with
  | case1 lead trail rest surrogates ih =>
      rw [List.flatMap_cons]
      have isIn : pair lead trail ∈ codePoints (lead :: trail :: rest) := by
        rw [codePoints, if_pos surrogates]
        exact List.mem_cons_self
      have big : 0x80 ≤ pair lead trail := by
        unfold pair
        omega
      rw [Bool.and_eq_true, isLead_iff, isTrail_iff] at surrogates
      have front : Wide [lead, trail] := by
        constructor
        · exact List.cons_ne_nil _ _
        · intro unit held
          rw [UInt16.le_iff_toNat_le]
          change 128 ≤ unit.toNat
          rcases List.mem_cons.mp held with same | same
          · rw [same]
            omega
          · rw [List.mem_singleton.mp same]
            omega
      exact .wide front (utf8_wide big (codePoints_lt _ isIn)) ih
  | case2 lead trail rest _ ih =>
      rw [List.flatMap_cons]
      exact single lead _ _ ih
  | case3 unit =>
      rw [List.flatMap_cons, List.flatMap_nil]
      exact single unit [] [] .nil
  | case4 => exact .nil

/-- Each unit of what is encoded is kept, a `%` or a hexadecimal digit. -/
theorem mem_percentEncode {keeps : UInt16 → Bool} {text : JsString} {unit : UInt16}
    (isIn : unit ∈ percentEncode keeps text) :
    keeps unit = true ∨ unit = 0x25 ∨ isHexadecimal unit = true := by
  obtain ⟨code, isCode, isUnit⟩ := List.mem_flatMap.mp isIn
  unfold encodePoint at isUnit
  split at isUnit
  next kept =>
    rw [Bool.and_eq_true] at kept
    exact .inl (List.mem_singleton.mp isUnit ▸ kept.2)
  next =>
    obtain ⟨octet, isOctet, isEscaped⟩ := List.mem_flatMap.mp isUnit
    have small := utf8_lt (codePoints_lt code isCode) octet isOctet
    right
    rw [escape] at isEscaped
    simp only [List.mem_cons, List.not_mem_nil, or_false] at isEscaped
    rcases isEscaped with percent | high | low
    · exact .inl percent
    · rw [high]
      exact .inr (isHexadecimal_hexDigit (by omega)).1
    · rw [low]
      exact .inr (isHexadecimal_hexDigit (by omega)).1

theorem codePoints_ascii {text : JsString} (ascii : ∀ unit ∈ text, unit < 0x80) :
    codePoints text = text.map UInt16.toNat := by
  have single {unit : UInt16} (small : unit < 0x80) :
      isLead unit = false ∧ scalar unit = unit.toNat := by
    have isSmall : unit.toNat < 0x80 := UInt16.lt_iff_toNat_lt.mp small
    have notLead : isLead unit = false := by
      rw [← Bool.not_eq_true, isLead_iff]
      omega
    have notTrail : isTrail unit = false := by
      rw [← Bool.not_eq_true, isTrail_iff]
      omega
    rw [scalar, notLead, notTrail]
    exact ⟨rfl, rfl⟩
  fun_induction codePoints text with
  | case1 lead trail rest surrogates ih =>
      rw [(single (ascii lead List.mem_cons_self)).1] at surrogates
      cases surrogates
  | case2 lead trail rest _ ih =>
      rw [ih fun unit isIn => ascii unit (List.mem_cons_of_mem _ isIn),
        (single (ascii lead List.mem_cons_self)).2]
      rfl
  | case3 unit =>
      rw [(single (ascii unit List.mem_cons_self)).2]
      rfl
  | case4 => rfl

theorem octets_ascii {text : JsString} (ascii : ∀ unit ∈ text, unit < 0x80) :
    octets text = text := by
  rw [octets, codePoints_ascii ascii, List.flatMap_map]
  induction text with
  | nil => rfl
  | cons unit text ih =>
      rw [List.forall_mem_cons] at ascii
      have small : unit.toNat < 0x80 := UInt16.lt_iff_toNat_lt.mp ascii.1
      rw [List.flatMap_cons, ih ascii.2, utf8, if_pos small, List.map_singleton,
        UInt16.ofNat_toNat, List.singleton_append]

/-- A text of units that are kept is its own encoding. -/
theorem percentEncode_of_keeps {keeps : UInt16 → Bool} {text : JsString}
    (kept : ∀ unit ∈ text, unit < 0x80 ∧ keeps unit = true) :
    percentEncode keeps text = text := by
  rw [percentEncode, codePoints_ascii fun unit isIn => (kept unit isIn).1, List.flatMap_map]
  induction text with
  | nil => rfl
  | cons unit text ih =>
      obtain ⟨small, isKept⟩ := kept unit List.mem_cons_self
      have isSmall : unit.toNat < 0x80 := UInt16.lt_iff_toNat_lt.mp small
      rw [List.flatMap_cons, ih fun held isIn => kept held (List.mem_cons_of_mem _ isIn),
        encodePoint, UInt16.ofNat_toNat, decide_eq_true isSmall, isKept]
      rfl

/-! ### Parts of what is encoded -/

theorem percentEncode_ne_nil {keeps : UInt16 → Bool} {text : JsString} (some : text ≠ []) :
    percentEncode keeps text ≠ [] := by
  intro empty
  have steps := percentEncode_steps keeps text
  have alike := alike_octets text
  rw [empty] at steps
  have isNil : octets text = [] := (show PercentEscapes.Plain [] from rfl).steps_eq steps
  rw [isNil] at alike
  exact some alike.symm.nil_inv

theorem scalar_ascii {unit : UInt16} (small : unit < 0x80) :
    isLead unit = false ∧ isTrail unit = false ∧ scalar unit = unit.toNat := by
  have isSmall : unit.toNat < 0x80 := UInt16.lt_iff_toNat_lt.mp small
  have notLead : isLead unit = false := by
    rw [← Bool.not_eq_true, isLead_iff]
    omega
  have notTrail : isTrail unit = false := by
    rw [← Bool.not_eq_true, isTrail_iff]
    omega
  rw [scalar, notLead, notTrail]
  exact ⟨rfl, rfl, rfl⟩

/-- An ASCII unit is no half of a pair. -/
theorem codePoints_append {unit : UInt16} (small : unit < 0x80) (front back : JsString) :
    codePoints (front ++ unit :: back) = codePoints front ++ unit.toNat :: codePoints back := by
  obtain ⟨notLead, notTrail, isScalar⟩ := scalar_ascii small
  fun_induction codePoints front with
  | case1 lead trail rest surrogates ih =>
      rw [List.cons_append, List.cons_append, codePoints, if_pos surrogates, ih, List.cons_append]
  | case2 lead trail rest others ih =>
      rw [List.cons_append, List.cons_append, codePoints, if_neg others, ← List.cons_append, ih,
        List.cons_append]
  | case3 last =>
      have others : ¬(isLead last && isTrail unit) = true := by
        rw [notTrail, Bool.and_false]
        exact Bool.false_ne_true
      rw [List.singleton_append, codePoints, if_neg others, List.singleton_append]
      cases back with
      | nil => rw [codePoints, isScalar, codePoints]
      | cons next rest =>
          rw [codePoints, notLead, Bool.false_and, if_neg Bool.false_ne_true, isScalar]
  | case4 =>
      rw [List.nil_append, List.nil_append]
      cases back with
      | nil => rw [codePoints, isScalar, codePoints]
      | cons next rest =>
          rw [codePoints, notLead, Bool.false_and, if_neg Bool.false_ne_true, isScalar]

theorem mem_of_codePoints {text : JsString} {code : Nat} (isIn : code ∈ codePoints text)
    (small : code < 0x80) : UInt16.ofNat code ∈ text := by
  have single {unit : UInt16} (same : code = scalar unit) : UInt16.ofNat code = unit := by
    rw [same] at small ⊢
    unfold scalar at small ⊢
    split at small
    next => omega
    next other => rw [if_neg other, UInt16.ofNat_toNat]
  fun_induction codePoints text with
  | case1 lead trail rest surrogates ih =>
      rcases List.mem_cons.mp isIn with same | behind
      · unfold pair at same
        omega
      · exact List.mem_cons_of_mem _ (List.mem_cons_of_mem _ (ih behind))
  | case2 lead trail rest _ ih =>
      rcases List.mem_cons.mp isIn with same | behind
      · exact single same ▸ List.mem_cons_self
      · exact List.mem_cons_of_mem _ (ih behind)
  | case3 unit =>
      rw [single (List.mem_singleton.mp isIn)]
      exact List.mem_cons_self
  | case4 => cases isIn

section
variable {keeps : UInt16 → Bool} {separator : UInt16}

/-- What is kept and is no part of an escape stands where it stood. -/
theorem mem_of_percentEncode (separates : PercentEscapes.Separates separator) {text : JsString}
    (isIn : separator ∈ percentEncode keeps text) : separator ∈ text := by
  obtain ⟨code, isCode, isUnit⟩ := List.mem_flatMap.mp isIn
  unfold encodePoint at isUnit
  split at isUnit
  next kept =>
    rw [Bool.and_eq_true, decide_eq_true_eq] at kept
    rw [List.mem_singleton.mp isUnit]
    exact mem_of_codePoints isCode kept.1
  next =>
    obtain ⟨octet, isOctet, isEscaped⟩ := List.mem_flatMap.mp isUnit
    have small := utf8_lt (codePoints_lt code isCode) octet isOctet
    rw [escape] at isEscaped
    simp only [List.mem_cons, List.not_mem_nil, or_false] at isEscaped
    rcases isEscaped with percent | high | low
    · exact absurd percent separates.1
    · have isHigh := (isHexadecimal_hexDigit (show octet / 16 < 16 by omega)).1
      rw [← high, separates.2] at isHigh
      cases isHigh
    · have isLow := (isHexadecimal_hexDigit (show octet % 16 < 16 by omega)).1
      rw [← low, separates.2] at isLow
      cases isLow

variable (separates : PercentEscapes.Separates separator) (small : separator < 0x80)
  (kept : keeps separator = true)
include small kept

theorem percentEncode_append (front back : JsString) :
    percentEncode keeps (front ++ separator :: back) =
      percentEncode keeps front ++ separator :: percentEncode keeps back := by
  have isSmall : separator.toNat < 0x80 := UInt16.lt_iff_toNat_lt.mp small
  have here : encodePoint keeps separator.toNat = [separator] := by
    rw [encodePoint, UInt16.ofNat_toNat, decide_eq_true isSmall, kept]
    rfl
  rw [percentEncode, codePoints_append small, List.flatMap_append, List.flatMap_cons, here]
  rfl

include separates

/-- A text is cut at a separator and encoded in either order. -/
theorem splitOn_percentEncode (text : JsString) :
    (percentEncode keeps text).splitOn separator =
      (text.splitOn separator).map (percentEncode keeps) := by
  have joined (parts : List JsString) : percentEncode keeps ([separator].intercalate parts) =
      [separator].intercalate (parts.map (percentEncode keeps)) := by
    induction parts with
    | nil => rfl
    | cons part parts ih =>
        cases parts with
        | nil => rw [List.map_singleton, List.intercalate_singleton, List.intercalate_singleton]
        | cons next parts =>
            rw [List.map_cons, List.map_cons, List.intercalate_cons_cons,
              List.intercalate_cons_cons, List.append_assoc, List.append_assoc,
              List.singleton_append, List.singleton_append, percentEncode_append small kept, ih,
              List.map_cons]
  have solid : ∀ part ∈ text.splitOn separator, separator ∉ part :=
    fun part isPart => (JsString.splitOn_part isPart).1
  nth_rewrite 1 [← @List.intercalate_splitOn _ text _ _ separator]
  rw [joined, List.splitOn_intercalate]
  · intro part isPart
    obtain ⟨held, isHeld, same⟩ := List.mem_map.mp isPart
    rw [← same]
    exact mt (mem_of_percentEncode separates) (solid held isHeld)
  · exact mt List.map_eq_nil_iff.mp (List.splitOn_ne_nil _ _)

theorem takeWhile_percentEncode (text : JsString) :
    (percentEncode keeps text).takeWhile (fun unit => unit != separator) =
      percentEncode keeps (text.takeWhile fun unit => unit != separator) := by
  have solid {front : JsString} (none : separator ∉ front) :
      ∀ unit ∈ front, (unit != separator) = true :=
    fun unit isIn => bne_iff_ne.mpr fun same => none (same ▸ isIn)
  by_cases isIn : separator ∈ text
  · obtain ⟨front, back, whole, none⟩ := List.eq_append_cons_of_mem isIn
    have here := mt (@mem_of_percentEncode keeps _ separates _) none
    rw [whole, percentEncode_append small kept, List.takeWhile_append_of_pos (solid here),
      List.takeWhile_append_of_pos (solid none), List.takeWhile_cons, List.takeWhile_cons,
      if_neg (by simp), List.append_nil, if_neg (by simp), List.append_nil]
  · have here := mt (@mem_of_percentEncode keeps _ separates _) isIn
    rw [List.takeWhile_eq_self_iff.mpr (solid here), List.takeWhile_eq_self_iff.mpr (solid isIn)]

end

end UriEncoding
