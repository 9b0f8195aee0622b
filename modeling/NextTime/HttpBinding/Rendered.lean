import NextTime.HttpBinding.Request

/-
What a rendered path is: the text of its template with each value percent-encoded, and how
that is fully decoded.
-/

namespace NextTime.HttpBinding

open JsString (js isHexadecimal)
open PercentEscapes (decode fullyDecoded Steps Alike Plain Separates)
open UriEncoding (percentEncode octets)

/-! ### Values -/

/-- A text, fully decoded, that is one segment and no dots. -/
structure OneSegment (text : JsString) : Prop where
  slash : 0x2F ∉ fullyDecoded text
  dot : fullyDecoded text ≠ js "."
  dots : fullyDecoded text ≠ js ".."

theorem fullyDecoded_decode (text : JsString) : fullyDecoded (decode text) = fullyDecoded text :=
  (PercentEscapes.fullyDecoded_eq (PercentEscapes.decode_steps text)).symm

/-- A value that is let through is one segment however often it is decoded. -/
theorem isSegmentWithin_oneSegment {rounds : Nat} :
    ∀ {raw : JsString}, isSegmentWithin rounds raw = true → raw ≠ [] ∧ OneSegment raw := by
  induction rounds with
  | zero => exact fun none => nomatch none
  | succ rounds ih =>
      intro raw single
      rw [isSegmentWithin] at single
      split at single
      next => cases single
      next allowed =>
        simp only [not_or] at allowed
        obtain ⟨filled, notDot, notDots, noSlash, _⟩ := allowed
        refine ⟨filled, ?_⟩
        split at single
        next plain =>
          have same : fullyDecoded raw = raw := PercentEscapes.fullyDecoded_of_plain .refl plain
          constructor
          · rw [same]
            exact noSlash
          · rw [same]
            exact notDot
          · rw [same]
            exact notDots
        next =>
          obtain ⟨_, later⟩ := ih single
          have same := fullyDecoded_decode raw
          constructor
          · rw [← same]
            exact later.slash
          · rw [← same]
            exact later.dot
          · rw [← same]
            exact later.dots

/-! ### Texts of pieces -/

/-- A template with a text in the place of each placeholder. -/
def filled (value : JsString → JsString) (pieces : List Piece) : JsString :=
  pieces.flatMap fun piece =>
    match piece with
    | .unit unit => [unit]
    | .param name => value name

/-- The values percent-encoded. -/
def encoded (value : JsString → JsString) (name : JsString) : JsString :=
  percentEncode isUnreserved (value name)

section
variable {value : JsString → JsString}

@[simp] theorem filled_unit (unit : UInt16) (pieces : List Piece) :
    filled value (.unit unit :: pieces) = unit :: filled value pieces := rfl

@[simp] theorem filled_param (name : JsString) (pieces : List Piece) :
    filled value (.param name :: pieces) = value name ++ filled value pieces := rfl

theorem filled_append (front back : List Piece) :
    filled value (front ++ back) = filled value front ++ filled value back := by
  rw [filled, filled, filled, List.flatMap_append]

/-- What is encoded is decoded to the octets, which differ from the values beyond ASCII only. -/
theorem filled_steps (pieces : List Piece) :
    ∃ read, Steps (filled (encoded value) pieces) read ∧ Alike (filled value pieces) read := by
  induction pieces with
  | nil => exact ⟨[], .refl, .nil⟩
  | cons piece pieces ih =>
      obtain ⟨read, steps, alike⟩ := ih
      cases piece with
      | unit unit =>
          refine ⟨[unit] ++ read, steps.append_left [unit], ?_⟩
          refine @Alike.append [unit] [unit] _ _ ?_ alike
          by_cases small : unit < 0x80
          · exact .ascii small .nil
          · have wide : PercentEscapes.Wide [unit] :=
              ⟨List.cons_ne_nil _ _,
                fun held isIn => List.mem_singleton.mp isIn ▸ UInt16.not_lt.mp small⟩
            exact .wide wide wide .nil
      | param name =>
          rw [filled_param, filled_param, encoded]
          refine ⟨octets (value name) ++ read, ?_, ?_⟩
          · exact (UriEncoding.percentEncode_steps isUnreserved (value name)).append steps
          · exact (UriEncoding.alike_octets (value name)).append alike

/-- Fully decoded, the rendering is what the template with the values as they are is, but for
what stands beyond ASCII. -/
theorem alike_fullyDecoded (pieces : List Piece) :
    Alike (fullyDecoded (filled value pieces)) (fullyDecoded (filled (encoded value) pieces)) := by
  obtain ⟨read, steps, alike⟩ := @filled_steps value pieces
  rw [PercentEscapes.fullyDecoded_eq steps]
  exact alike.fullyDecoded

theorem oneSegment_alike {text other : JsString}
    (alike : Alike (fullyDecoded text) (fullyDecoded other)) :
    OneSegment text ↔ OneSegment other := by
  have slash : (0x2F : UInt16) < 0x80 := by decide
  have isDot := alike.eq_iff (@PercentEscapes.ascii_of_all (js ".") (by decide))
  have isDots := alike.eq_iff (@PercentEscapes.ascii_of_all (js "..") (by decide))
  constructor
  · intro one
    exact ⟨fun isIn => one.slash (alike.symm.mem slash isIn), mt isDot.mpr one.dot,
      mt isDots.mpr one.dots⟩
  · intro one
    exact ⟨fun isIn => one.slash (alike.mem slash isIn), mt isDot.mp one.dot, mt isDots.mp one.dots⟩

theorem oneSegment_encoded_iff (pieces : List Piece) :
    OneSegment (filled (encoded value) pieces) ↔ OneSegment (filled value pieces) :=
  oneSegment_alike (alike_fullyDecoded pieces).symm

theorem oneSegment_percentEncode_iff (keeps : UInt16 → Bool) (text : JsString) :
    OneSegment (percentEncode keeps text) ↔ OneSegment text := by
  apply oneSegment_alike
  rw [PercentEscapes.fullyDecoded_eq (UriEncoding.percentEncode_steps keeps text)]
  exact (UriEncoding.alike_octets text).symm.fullyDecoded

/-- In every round a text is neither empty nor dots, and has no slash. -/
theorem oneSegment_iff {text : JsString} (some : text ≠ []) :
    OneSegment text ↔ ∀ rounds, 0x2F ∉ decode^[rounds] text ∧ decode^[rounds] text ≠ [] ∧
      decode^[rounds] text ≠ js "." ∧ decode^[rounds] text ≠ js ".." := by
  have separates : Separates 0x2F := by decide
  have plainDot : Plain (js ".") := by decide
  have plainDots : Plain (js "..") := by decide
  constructor
  · intro one rounds
    refine ⟨?_, (PercentEscapes.iterate_decode_steps rounds text).ne_nil some, ?_, ?_⟩
    · intro isIn
      exact one.slash ((PercentEscapes.mem_fullyDecoded_iff separates).mpr ⟨rounds, isIn⟩)
    · exact fun same => one.dot ((PercentEscapes.eq_fullyDecoded_iff plainDot).mpr ⟨rounds, same⟩)
    · exact fun same => one.dots ((PercentEscapes.eq_fullyDecoded_iff plainDots).mpr ⟨rounds, same⟩)
  · intro every
    obtain ⟨slash, _, dot, dots⟩ := every text.length
    exact ⟨slash, dot, dots⟩

end

/-! ### Cutting a rendered text -/

/-- The units of what a value is encoded to. -/
def isEncoded (unit : UInt16) : Bool := isUnreserved unit || unit == 0x25 || isHexadecimal unit

/-- The test says this of every unit that a value is encoded to. -/
def Settled (test : UInt16 → Bool) (held : Bool) : Prop :=
  ∀ code : Fin 0x80, isEncoded (UInt16.ofNat code) = true → test (UInt16.ofNat code) = held

instance (test : UInt16 → Bool) (held : Bool) : Decidable (Settled test held) :=
  inferInstanceAs (Decidable (∀ _, _))

/-- The test of a piece, which says `held` of a placeholder. -/
def Piece.tests (test : UInt16 → Bool) (held : Bool) : Piece → Bool
  | unit here => test here
  | param _ => held

section
variable {value : JsString → JsString} {test : UInt16 → Bool} {held : Bool}

theorem lt_of_isUnreserved {unit : UInt16} (kept : isUnreserved unit = true) : unit < 0x80 := by
  rw [isUnreserved, Bool.or_eq_true, Bool.or_eq_true, List.contains_iff_mem] at kept
  simp only [isLowerOrDigit, isUpper, Bool.or_eq_true, Bool.and_eq_true, decide_eq_true_eq] at kept
  rcases kept with ((⟨_, range⟩ | ⟨_, range⟩) | ⟨_, range⟩) | mark
  · exact UInt16.lt_of_le_of_lt range (by decide)
  · exact UInt16.lt_of_le_of_lt range (by decide)
  · exact UInt16.lt_of_le_of_lt range (by decide)
  · exact @PercentEscapes.ascii_of_all (js "-_.!~*'()") (by decide) unit mark

theorem Settled.encoded (settled : Settled test held) {name : JsString} {unit : UInt16}
    (isIn : unit ∈ encoded value name) : test unit = held := by
  have small : isEncoded unit = true ∧ unit < 0x80 := by
    rw [isEncoded, Bool.or_eq_true, Bool.or_eq_true, beq_iff_eq]
    rcases UriEncoding.mem_percentEncode isIn with kept | percent | hexadecimal
    · exact ⟨.inl (.inl kept), lt_of_isUnreserved kept⟩
    · exact ⟨.inl (.inr percent), percent ▸ by decide⟩
    · exact ⟨.inr hexadecimal, PercentEscapes.lt_of_isHexadecimal hexadecimal⟩
  have here := settled ⟨unit.toNat, UInt16.lt_iff_toNat_lt.mp small.2⟩
  simp only [UInt16.ofNat_toNat] at here
  exact here small.1

theorem encoded_ne_nil {name : JsString} (some : value name ≠ []) : encoded value name ≠ [] :=
  UriEncoding.percentEncode_ne_nil some

theorem takeWhile_filled (settled : Settled test true) (pieces : List Piece) :
    (filled (encoded value) pieces).takeWhile test =
      filled (encoded value) (pieces.takeWhile (Piece.tests test true)) := by
  induction pieces with
  | nil => rfl
  | cons piece pieces ih =>
      rw [@List.takeWhile_cons Piece]
      cases piece with
      | unit unit =>
          rw [filled_unit, List.takeWhile_cons, Piece.tests]
          by_cases kept : test unit = true
          · rw [if_pos kept, if_pos kept, filled_unit, ih]
          · rw [if_neg kept, if_neg kept]
            rfl
      | param name =>
          rw [filled_param, List.takeWhile_append_of_pos fun unit isIn => settled.encoded isIn, ih,
            Piece.tests, if_pos rfl, filled_param]

/-- A value that is no empty text holds out against what is dropped. -/
theorem dropWhile_filled (settled : Settled test false) {pieces : List Piece}
    (values : ∀ name ∈ paramNames pieces, value name ≠ []) :
    (filled (encoded value) pieces).dropWhile test =
      filled (encoded value) (pieces.dropWhile (Piece.tests test false)) := by
  induction pieces with
  | nil => rfl
  | cons piece pieces ih =>
      rw [@List.dropWhile_cons Piece]
      cases piece with
      | unit unit =>
          rw [filled_unit, List.dropWhile_cons, Piece.tests]
          by_cases dropped : test unit = true
          · rw [if_pos dropped, if_pos dropped]
            exact ih values
          · rw [if_neg dropped, if_neg dropped, filled_unit]
      | param name =>
          obtain ⟨first, rest, whole⟩ := List.exists_cons_of_ne_nil
            (encoded_ne_nil (values name List.mem_cons_self))
          have solid : ¬test first = true := by
            rw [@Settled.encoded value test false settled name first (whole ▸ List.mem_cons_self)]
            exact Bool.false_ne_true
          rw [filled_param, whole, List.cons_append, List.dropWhile_cons, if_neg solid, Piece.tests,
            if_neg Bool.false_ne_true, filled_param, whole, List.cons_append]

theorem filter_filled (settled : Settled test true) (pieces : List Piece) :
    (filled (encoded value) pieces).filter test =
      filled (encoded value) (pieces.filter (Piece.tests test true)) := by
  induction pieces with
  | nil => rfl
  | cons piece pieces ih =>
      rw [@List.filter_cons Piece]
      cases piece with
      | unit unit =>
          rw [filled_unit, List.filter_cons, Piece.tests]
          by_cases kept : test unit = true
          · rw [if_pos kept, if_pos kept, filled_unit, ih]
          · rw [if_neg kept, if_neg kept, ih]
      | param name =>
          have whole : (encoded value name).filter test = encoded value name :=
            List.filter_eq_self.mpr fun unit isIn => settled.encoded isIn
          rw [filled_param, List.filter_append, whole, ih, Piece.tests, if_pos rfl, filled_param]

theorem splitOnP_filled (settled : Settled test false) (pieces : List Piece) :
    (filled (encoded value) pieces).splitOnP test =
      (pieces.splitOnP (Piece.tests test false)).map (filled (encoded value)) := by
  induction pieces with
  | nil => rfl
  | cons piece pieces ih =>
      obtain ⟨first, rest, whole⟩ :=
        List.exists_cons_of_ne_nil (List.splitOnP_ne_nil (Piece.tests test false) pieces)
      rw [whole, List.map_cons] at ih
      rw [@List.splitOnP_cons_eq_if_modifyHead Piece, whole]
      cases piece with
      | unit unit =>
          rw [filled_unit, List.splitOnP_cons_eq_if_modifyHead, ih, Piece.tests]
          by_cases cuts : test unit = true
          · rw [if_pos cuts, if_pos cuts]
            rfl
          · rw [if_neg cuts, if_neg cuts]
            rfl
      | param name =>
          have solid : ∀ unit ∈ encoded value name, test unit = false :=
            fun unit isIn => settled.encoded isIn
          rw [filled_param, JsString.splitOnP_append_of_forall solid, ih, Piece.tests,
            if_neg Bool.false_ne_true]
          rfl

end

/-! ### Rendering -/

section
variable {Number : Type} (numbers : JsNumbers Number) (bag : Bag Number)

/-- The text of a param, where it has one. -/
def Bag.value (name : JsString) : JsString := ((bag.text numbers name).toOption).getD []

theorem encodePathSegment_ok {name segment : JsString}
    (encodes : encodePathSegment numbers bag name = .ok segment) :
    isSinglePathSegment (bag.value numbers name) = true ∧
      segment = encoded (bag.value numbers) name := by
  unfold encodePathSegment at encodes
  cases isText : bag.text numbers name with
  | error problem =>
      rw [isText] at encodes
      cases encodes
  | ok raw =>
      rw [isText] at encodes
      have isValue : bag.value numbers name = raw := by
        rw [Bag.value, isText]
        rfl
      simp only at encodes
      split at encodes
      next => cases encodes
      next single =>
        split at encodes
        next => cases encodes
        next =>
          rw [encoded, isValue]
          exact ⟨Bool.of_not_eq_false single, (Except.ok.inj encodes).symm⟩

theorem renderPieces_ok {pieces : List Piece} {rendered : JsString}
    (renders : renderPieces numbers bag pieces = .ok rendered) :
    rendered = filled (encoded (bag.value numbers)) pieces ∧
      ∀ name ∈ paramNames pieces, isSinglePathSegment (bag.value numbers name) = true := by
  induction pieces generalizing rendered with
  | nil => exact ⟨(Except.ok.inj renders).symm, fun _ isIn => nomatch isIn⟩
  | cons piece pieces ih =>
      cases piece with
      | unit unit =>
          rw [renderPieces] at renders
          cases behind : renderPieces numbers bag pieces with
          | error problem =>
              rw [behind] at renders
              cases renders
          | ok rest =>
              rw [behind] at renders
              obtain ⟨isRest, single⟩ := ih behind
              rw [← Except.ok.inj renders, isRest]
              exact ⟨rfl, single⟩
      | param name =>
          rw [renderPieces] at renders
          cases encodes : encodePathSegment numbers bag name with
          | error problem =>
              rw [encodes] at renders
              cases renders
          | ok segment =>
              rw [encodes] at renders
              cases behind : renderPieces numbers bag pieces with
              | error problem =>
                  rw [behind] at renders
                  cases renders
              | ok rest =>
                  rw [behind] at renders
                  obtain ⟨isRest, single⟩ := ih behind
                  obtain ⟨isSingle, isSegment⟩ := encodePathSegment_ok numbers bag encodes
                  rw [← Except.ok.inj renders, isRest, isSegment]
                  refine ⟨rfl, ?_⟩
                  intro other isIn
                  rcases List.mem_cons.mp isIn with same | later
                  · exact same ▸ isSingle
                  · exact single other later

end

end NextTime.HttpBinding
