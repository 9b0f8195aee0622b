import NextTime.Library.SpecialUrl

/-
The query of a URL of `http` or `https`: what is held of a text that is set, and the params
that are parsed of it. Nothing here names a particular program.
-/

namespace SearchParams

open JsString (isHexadecimal)
open PercentEscapes (decode)
open UriEncoding (percentEncode octets codePoints isLead isTrail scalar pair utf8 escape hexDigit)

/-! ### Octets read as UTF-8 -/

/-- A sequence that has begun: the octets it lacks, the range of the next, its code so far. -/
structure Pending where
  lacks : Nat
  lower : Nat
  upper : Nat
  code : Nat

/-- An octet that no sequence is waiting for. -/
def opening (octet : Nat) : List Nat × Option Pending :=
  if octet < 0x80 then ([octet], none)
  else if 0xC2 ≤ octet ∧ octet ≤ 0xDF then ([], some ⟨1, 0x80, 0xBF, octet - 0xC0⟩)
  else if 0xE0 ≤ octet ∧ octet ≤ 0xEF then
    ([], some ⟨2, if octet = 0xE0 then 0xA0 else 0x80, if octet = 0xED then 0x9F else 0xBF,
      octet - 0xE0⟩)
  else if 0xF0 ≤ octet ∧ octet ≤ 0xF4 then
    ([], some ⟨3, if octet = 0xF0 then 0x90 else 0x80, if octet = 0xF4 then 0x8F else 0xBF,
      octet - 0xF0⟩)
  else ([0xFFFD], none)

/-- The codes of octets; what is no sequence stands for U+FFFD, up to the octet that breaks it. -/
def codesOf : Option Pending → List Nat → List Nat
  | none, [] => []
  | some _, [] => [0xFFFD]
  | none, octet :: rest => (opening octet).1 ++ codesOf (opening octet).2 rest
  | some pending, octet :: rest =>
      if octet < pending.lower ∨ pending.upper < octet then
        0xFFFD :: ((opening octet).1 ++ codesOf (opening octet).2 rest)
      else if pending.lacks = 1 then (pending.code * 0x40 + octet % 0x40) :: codesOf none rest
      else codesOf (some ⟨pending.lacks - 1, 0x80, 0xBF, pending.code * 0x40 + octet % 0x40⟩) rest

def unitsOf (code : Nat) : JsString :=
  if code < 0x10000 then [UInt16.ofNat code]
  else [UInt16.ofNat (0xD800 + (code - 0x10000) / 0x400),
    UInt16.ofNat (0xDC00 + (code - 0x10000) % 0x400)]

def readUtf8 (read : JsString) : JsString :=
  (codesOf none (read.map UInt16.toNat)).flatMap unitsOf

/-! ### Params -/

def plusAsSpace (unit : UInt16) : UInt16 := if unit = 0x2B then 0x20 else unit

/-- A name or a value: a plus stands for a space, and escapes for octets. -/
def component (text : JsString) : JsString :=
  readUtf8 (decode (octets (text.map plusAsSpace)))

def withoutMark : JsString → JsString
  | [] => []
  | unit :: rest => if unit = 0x3F then rest else unit :: rest

theorem withoutMark_suffix (text : JsString) : withoutMark text <:+ text := by
  cases text with
  | nil => exact List.suffix_refl _
  | cons unit rest =>
      rw [withoutMark]
      split
      next => exact List.suffix_cons _ _
      next => exact List.suffix_refl _

def nameOf (part : JsString) : JsString := part.takeWhile fun unit => unit != 0x3D

/-- What `new URLSearchParams(text)` holds. -/
def parse (text : JsString) : List (JsString × JsString) :=
  (((withoutMark text).splitOn 0x26).filter fun part => !part.isEmpty).map fun part =>
    (component (nameOf part), component ((part.dropWhile fun unit => unit != 0x3D).drop 1))

/-! ### The query that is set -/

/-- Units of a query that are not percent-encoded. -/
def keepsInQuery (unit : UInt16) : Bool :=
  0x21 ≤ unit && unit ≤ 0x7E && !([0x22, 0x23, 0x27, 0x3C, 0x3E] : JsString).contains unit

/-- What `url.search` is once it is set to a text. -/
def search (text : JsString) : JsString :=
  let query := percentEncode keepsInQuery ((withoutMark text).filter SpecialUrl.isParsed)
  if query = [] then [] else 0x3F :: query

/-! ### Encoding for a query changes no component -/

def plusCode (code : Nat) : Nat := if code = 0x2B then 0x20 else code

theorem codePoints_plus (text : JsString) :
    codePoints (text.map plusAsSpace) = (codePoints text).map plusCode := by
  have halves (unit : UInt16) : isLead (plusAsSpace unit) = isLead unit ∧
      isTrail (plusAsSpace unit) = isTrail unit ∧
        scalar (plusAsSpace unit) = plusCode (scalar unit) := by
    by_cases plus : unit = 0x2B
    · rw [plus]
      decide
    · have other : plusCode (scalar unit) = scalar unit := by
        rw [plusCode, if_neg]
        unfold scalar
        split
        next => decide
        next => exact fun same => plus (UInt16.toNat_inj.mp same)
      rw [plusAsSpace, if_neg plus, other]
      exact ⟨rfl, rfl, rfl⟩
  fun_induction codePoints text with
  | case1 lead trail rest surrogates ih =>
      have both := surrogates
      rw [Bool.and_eq_true, UriEncoding.isLead_iff, UriEncoding.isTrail_iff] at both
      have others : lead ≠ 0x2B ∧ trail ≠ 0x2B := by
        constructor
        · rintro rfl
          exact absurd both.1.1 (by decide)
        · rintro rfl
          exact absurd both.2.1 (by decide)
      have other : plusCode (pair lead trail) = pair lead trail := by
        rw [plusCode, if_neg]
        unfold pair
        omega
      rw [List.map_cons, List.map_cons, plusAsSpace, plusAsSpace, if_neg others.1, if_neg others.2,
        codePoints, if_pos surrogates, ih, List.map_cons, other]
  | case2 lead trail rest apart ih =>
      rw [List.map_cons, List.map_cons, codePoints, (halves lead).1, (halves trail).2.1,
        if_neg apart, (halves lead).2.2, List.map_cons, ← ih, List.map_cons]
  | case3 unit =>
      rw [List.map_singleton, codePoints, (halves unit).2.2]
      rfl
  | case4 => rfl

theorem decode_append_of_ne {front : JsString} (plain : ∀ unit ∈ front, unit ≠ 0x25)
    (rest : JsString) : decode (front ++ rest) = front ++ decode rest := by
  induction front with
  | nil => rfl
  | cons unit front ih =>
      rw [List.forall_mem_cons] at plain
      rw [List.cons_append, PercentEscapes.decode_cons_of_ne plain.1, ih plain.2, List.cons_append]

theorem decode_escapes {read : List Nat} (small : ∀ octet ∈ read, octet < 256) (rest : JsString) :
    decode ((read.flatMap escape).map plusAsSpace ++ rest) =
      read.map UInt16.ofNat ++ decode rest := by
  have digits : ∀ value : Fin 16, plusAsSpace (hexDigit value) = hexDigit value := by decide
  induction read with
  | nil => rfl
  | cons octet read ih =>
      rw [List.forall_mem_cons] at small
      have high := digits ⟨octet / 16, by omega⟩
      have low := digits ⟨octet % 16, by omega⟩
      have same : (escape octet).map plusAsSpace = escape octet := by
        rw [escape, List.map_cons, List.map_cons, List.map_singleton, high, low]
        rfl
      obtain ⟨isHigh, highValue⟩ :=
        UriEncoding.isHexadecimal_hexDigit (show octet / 16 < 16 by omega)
      obtain ⟨isLow, lowValue⟩ := UriEncoding.isHexadecimal_hexDigit (show octet % 16 < 16 by omega)
      rw [List.flatMap_cons, List.map_append, same, List.append_assoc, escape, List.cons_append,
        List.cons_append, List.singleton_append, decode, isHigh, isLow, Bool.and_self, if_pos rfl,
        ih small.2, PercentEscapes.unescape, highValue, lowValue, List.map_cons, List.cons_append]
      congr 2
      omega

/-- A code of a text. -/
abbrev Code : Type := { code : Nat // code < 0x110000 }

def keptInQuery (code : Code) : Bool :=
  decide (code.val < 0x80) && keepsInQuery (UInt16.ofNat code.val)

def unitInQuery (code : Code) : UInt16 := plusAsSpace (UInt16.ofNat code.val)

theorem keepsInQuery_hexadecimal {unit : UInt16} (hexadecimal : isHexadecimal unit = true) :
    keepsInQuery unit = true := by
  have small := UInt16.lt_iff_toNat_lt.mp (PercentEscapes.lt_of_isHexadecimal hexadecimal)
  have each : ∀ value : Fin 0x80, isHexadecimal (UInt16.ofNat value) = true →
      keepsInQuery (UInt16.ofNat value) = true := by decide
  have here := each ⟨unit.toNat, small⟩
  simp only [UInt16.ofNat_toNat] at here
  exact here hexadecimal

/-- What is not kept is no plus, and its octets are neither a percent nor digits. -/
theorem octets_of_not_kept {code : Code} (changed : keptInQuery code = false) :
    code.val ≠ 0x2B ∧ ∀ octet ∈ utf8 code.val,
      UInt16.ofNat octet ≠ 0x25 ∧ isHexadecimal (UInt16.ofNat octet) = false := by
  by_cases small : code.val < 0x80
  · rw [keptInQuery, decide_eq_true small, Bool.true_and] at changed
    have apart (unit : UInt16) (kept : keepsInQuery unit = true) :
        UInt16.ofNat code.val ≠ unit := by
      intro same
      rw [same, kept] at changed
      cases changed
    refine ⟨fun same => apart 0x2B (by decide) (same ▸ rfl), ?_⟩
    rw [utf8, if_pos small, List.forall_mem_singleton]
    refine ⟨apart 0x25 (by decide), ?_⟩
    by_contra digit
    exact apart _ (keepsInQuery_hexadecimal (Bool.of_not_eq_false digit)) rfl
  · refine ⟨by omega, ?_⟩
    intro octet isIn
    have wide := (UriEncoding.utf8_wide (by omega) code.property).2 _ (List.mem_map_of_mem isIn)
    constructor
    · intro percent
      rw [percent] at wide
      exact absurd wide (by decide)
    · by_contra digit
      exact absurd (PercentEscapes.lt_of_isHexadecimal (Bool.of_not_eq_false digit))
        (UInt16.not_lt.mpr wide)

theorem utf8_ne_nil (code : Nat) : utf8 code ≠ [] := by
  unfold utf8
  split_ifs
  all_goals exact List.cons_ne_nil _ _

theorem spells_encoded : PercentEscapes.Spells keptInQuery unitInQuery
    (fun code => (utf8 code.val).map UInt16.ofNat)
    (fun code => (UriEncoding.encodePoint keepsInQuery code.val).map plusAsSpace) where
  plain := by
    intro code kept
    rw [keptInQuery] at kept
    rw [UriEncoding.encodePoint, if_pos kept]
    rfl
  opens := by
    intro code changed
    rw [keptInQuery] at changed
    obtain ⟨first, rest, whole⟩ := List.exists_cons_of_ne_nil (utf8_ne_nil code.val)
    rw [UriEncoding.encodePoint, if_neg (Bool.eq_false_iff.mp changed), whole]
    exact ⟨_, _, rfl, by decide⟩
  reads := by
    intro code changed rest
    rw [keptInQuery] at changed
    rw [UriEncoding.encodePoint, if_neg (Bool.eq_false_iff.mp changed)]
    exact decode_escapes (UriEncoding.utf8_lt code.property) rest

theorem spells_octets : PercentEscapes.Spells keptInQuery unitInQuery
    (fun code => (utf8 code.val).map UInt16.ofNat)
    (fun code => (utf8 (plusCode code.val)).map UInt16.ofNat) where
  plain := by
    intro code kept
    rw [keptInQuery, Bool.and_eq_true, decide_eq_true_eq] at kept
    have each : ∀ code : Fin 0x80,
        (utf8 (plusCode code)).map UInt16.ofNat = [plusAsSpace (UInt16.ofNat code)] := by decide
    exact each ⟨code.val, kept.1⟩
  opens := by
    intro code changed
    obtain ⟨other, apart⟩ := octets_of_not_kept changed
    obtain ⟨first, rest, whole⟩ := List.exists_cons_of_ne_nil (utf8_ne_nil code.val)
    rw [plusCode, if_neg other, whole]
    exact ⟨_, _, rfl, (apart first (whole ▸ List.mem_cons_self)).2⟩
  reads := by
    intro code changed rest
    obtain ⟨other, apart⟩ := octets_of_not_kept changed
    rw [plusCode, if_neg other]
    apply decode_append_of_ne
    intro unit isIn
    obtain ⟨octet, isOctet, same⟩ := List.mem_map.mp isIn
    exact same ▸ (apart octet isOctet).1

/-- A component is read alike before and after it is encoded for a query. -/
theorem component_percentEncode (text : JsString) :
    component (percentEncode keepsInQuery text) = component text := by
  have spelled := spells_encoded.decode_eq spells_octets
    ((codePoints text).attachWith (· < 0x110000) UriEncoding.codePoints_lt)
  have codes (spelling : Nat → JsString) :
      (((codePoints text).attachWith (· < 0x110000) UriEncoding.codePoints_lt).flatMap
        fun code => spelling code.val) = (codePoints text).flatMap spelling := by
    rw [← @List.flatMap_map _ _ _ Subtype.val spelling, List.attachWith_map_subtype_val]
  rw [codes fun code => (UriEncoding.encodePoint keepsInQuery code).map plusAsSpace,
    codes fun code => (utf8 (plusCode code)).map UInt16.ofNat] at spelled
  have ascii : ∀ unit ∈ (percentEncode keepsInQuery text).map plusAsSpace, unit < 0x80 := by
    intro unit isIn
    obtain ⟨held, isHeld, same⟩ := List.mem_map.mp isIn
    rw [← same, plusAsSpace]
    split
    next => decide
    next =>
      rcases UriEncoding.mem_percentEncode isHeld with kept | percent | hexadecimal
      · rw [keepsInQuery, Bool.and_eq_true, Bool.and_eq_true, decide_eq_true_eq,
          decide_eq_true_eq] at kept
        exact UInt16.lt_of_le_of_lt kept.1.2 (by decide)
      · rw [percent]
        decide
      · exact PercentEscapes.lt_of_isHexadecimal hexadecimal
  have front : octets ((percentEncode keepsInQuery text).map plusAsSpace) =
      (codePoints text).flatMap fun code =>
        (UriEncoding.encodePoint keepsInQuery code).map plusAsSpace := by
    rw [UriEncoding.octets_ascii ascii, percentEncode, List.map_flatMap]
  have back : octets (text.map plusAsSpace) =
      (codePoints text).flatMap fun code => (utf8 (plusCode code)).map UInt16.ofNat := by
    rw [octets, codePoints_plus, List.flatMap_map]
  rw [component, component, front, back, spelled]

/-- The names of a text that is set as a query are those of its parts. -/
theorem names_search (text : JsString) :
    (parse (search text)).map Prod.fst =
      ((((withoutMark text).filter SpecialUrl.isParsed).splitOn 0x26).filter
          fun part => !part.isEmpty).map
        fun part => component (nameOf part) := by
  have unmarked (query : JsString) :
      withoutMark (if query = [] then [] else 0x3F :: query) = query := by
    split
    next none => exact none.symm
    next => rfl
  have parts := UriEncoding.splitOn_percentEncode (show PercentEscapes.Separates 0x26 by decide)
    (by decide) (show keepsInQuery 0x26 = true by decide)
  have empty (part : JsString) : (percentEncode keepsInQuery part).isEmpty = part.isEmpty := by
    rw [Bool.eq_iff_iff, List.isEmpty_iff, List.isEmpty_iff]
    constructor
    · intro none
      by_contra some
      exact UriEncoding.percentEncode_ne_nil some none
    · rintro rfl
      rfl
  have names (part : JsString) :
      nameOf (percentEncode keepsInQuery part) = percentEncode keepsInQuery (nameOf part) :=
    UriEncoding.takeWhile_percentEncode (by decide) (by decide) (by decide) part
  rw [parse, search, unmarked, parts, List.filter_map, List.map_map, List.map_map]
  simp only [Function.comp_def, empty, names, component_percentEncode]

end SearchParams
