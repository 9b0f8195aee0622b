import NextTime.HttpBinding.TemplateUrl

/-
The query of the URL that a template makes: the names it fixes, as its parts write them with
the values. A query with no placeholder, tab or newline is read as its text is.
-/

namespace NextTime.HttpBinding

open JsString (js)
open SearchParams (component)

/-! ### Parts that write a name -/

/-- The pieces behind the first `?`. -/
def queryPieces : List Piece → List Piece
  | [] => []
  | .unit held :: rest => if held = 0x3F then rest else queryPieces rest
  | .param _ :: rest => queryPieces rest

def withoutMark : List Piece → List Piece
  | .unit held :: rest => if held = 0x3F then rest else .unit held :: rest
  | pieces => pieces

/-- Without tabs and newlines, the parts between ampersands, each up to its first `=`. -/
def namePartsOf (pieces : List Piece) : List (List Piece) :=
  ((((withoutMark pieces).filter (Piece.tests SpecialUrl.isParsed true)).splitOnP
      (Piece.tests (fun unit => unit == 0x26) false)).filter fun part => !part.isEmpty).map
    fun part => part.takeWhile (Piece.tests (fun unit => unit != 0x3D) true)

def nameParts (path : JsString) : List (List Piece) :=
  namePartsOf (queryPieces (templatePieces path))

/-- The names that the template's query fixes, written with the values. -/
def queryNames (value : JsString → JsString) (path : JsString) : List JsString :=
  (nameParts path).map fun part => component (filled (encoded value) part)

/-- The keys of `new URLSearchParams(text)`. -/
def queryKeys (text : JsString) : List JsString := (SearchParams.parse text).map Prod.fst

/-- The names of the query of the template's own text. -/
def templateNames (path : JsString) : List JsString := queryKeys (queryPart path)

theorem settled_mark : Settled (fun unit => unit == 0x3F) false := by decide

theorem settled_ampersand : Settled (fun unit => unit == 0x26) false := by decide

theorem settled_equals : Settled (fun unit => unit != 0x3D) true := by decide

section
variable {value : JsString → JsString}

theorem queryPart_filled (pieces : List Piece) :
    queryPart (filled (encoded value) pieces) = filled (encoded value) (queryPieces pieces) := by
  have passed (front : JsString) (none : ∀ unit ∈ front, (unit == 0x3F) = false) (text : JsString) :
      queryPart (front ++ text) = queryPart text := by
    induction front with
    | nil => rfl
    | cons unit front ih =>
        rw [List.forall_mem_cons] at none
        rw [List.cons_append, queryPart, if_neg (beq_eq_false_iff_ne.mp none.1), ih none.2]
  induction pieces with
  | nil => rfl
  | cons piece pieces ih =>
      cases piece with
      | unit unit =>
          rw [filled_unit, queryPart, queryPieces]
          by_cases mark : unit = 0x3F
          · rw [if_pos mark, if_pos mark]
          · rw [if_neg mark, if_neg mark, ih]
      | param name =>
          rw [filled_param, passed _ (fun _ isIn => settled_mark.encoded isIn), queryPieces, ih]

theorem withoutMark_filled {pieces : List Piece}
    (values : ∀ name ∈ paramNames pieces, value name ≠ []) :
    SearchParams.withoutMark (filled (encoded value) pieces) =
      filled (encoded value) (withoutMark pieces) := by
  cases pieces with
  | nil => rfl
  | cons piece pieces =>
      cases piece with
      | unit unit =>
          rw [filled_unit, SearchParams.withoutMark, withoutMark]
          split
          next => rfl
          next => rfl
      | param name =>
          obtain ⟨first, rest, whole⟩ := List.exists_cons_of_ne_nil
            (encoded_ne_nil (values name List.mem_cons_self))
          have other : first ≠ 0x3F := beq_eq_false_iff_ne.mp
            (@Settled.encoded value _ _ settled_mark name first (whole ▸ List.mem_cons_self))
          rw [filled_param, whole, List.cons_append, SearchParams.withoutMark, if_neg other,
            withoutMark, filled_param, whole, List.cons_append]
          intro _ _ same
          cases (List.cons.inj same).1

theorem queryPieces_suffix (pieces : List Piece) : queryPieces pieces <:+ pieces := by
  induction pieces with
  | nil => exact List.suffix_refl _
  | cons piece pieces ih =>
      cases piece with
      | unit unit =>
          rw [queryPieces]
          split
          next => exact List.suffix_cons _ _
          next => exact ih.trans (List.suffix_cons _ _)
      | param name => exact ih.trans (List.suffix_cons _ _)

theorem withoutMark_suffix (pieces : List Piece) : withoutMark pieces <:+ pieces := by
  unfold withoutMark
  split
  next =>
    split
    next => exact List.suffix_cons _ _
    next => exact List.suffix_refl _
  next => exact List.suffix_refl _

/-- The names of a query that is set are those that its parts write. -/
theorem names_filled {pieces : List Piece}
    (values : ∀ name ∈ paramNames pieces, value name ≠ []) :
    (SearchParams.parse (SearchParams.search (filled (encoded value) pieces))).map Prod.fst =
      (namePartsOf pieces).map fun part => component (filled (encoded value) part) := by
  have among : (withoutMark pieces).filter (Piece.tests SpecialUrl.isParsed true) ⊆ pieces :=
    fun _ isIn => (withoutMark_suffix pieces).subset (List.mem_filter.mp isIn).1
  have empty : ∀ part ∈
      ((withoutMark pieces).filter (Piece.tests SpecialUrl.isParsed true)).splitOnP
        (Piece.tests (fun unit => unit == 0x26) false),
      (!(filled (encoded value) part).isEmpty) = !part.isEmpty := by
    intro part isPart
    cases part with
    | nil => rfl
    | cons piece part =>
        cases piece with
        | unit unit => rfl
        | param name =>
            have isIn := among ((JsString.splitOnP_part isPart).2 List.mem_cons_self)
            have some := encoded_ne_nil (values name (mem_paramNames.mpr isIn))
            rw [filled_param,
              List.isEmpty_eq_false_iff.mpr (List.append_ne_nil_of_left_ne_nil some _)]
            rfl
  rw [SearchParams.names_search, withoutMark_filled values, filter_filled (by decide),
    List.splitOn_eq_splitOnP, splitOnP_filled settled_ampersand, List.filter_map, List.map_map,
    namePartsOf, List.map_map]
  simp only [Function.comp_def]
  rw [List.filter_congr empty]
  apply List.map_congr_left
  intro part _
  rw [SearchParams.nameOf, takeWhile_filled settled_equals]

/-- The URL of a call holds the names that the template's query fixes. -/
theorem resolveOn_names (base : SpecialUrl) {path rendered : JsString}
    (values : ∀ name ∈ paramNames (templatePieces path), value name ≠ [])
    (isRendered : rendered = filled (encoded value) (templatePieces path)) :
    (resolveOn base rendered).searchParams.map Prod.fst = queryNames value path := by
  change (SearchParams.parse (SearchParams.search (queryPart rendered))).map Prod.fst = _
  rw [isRendered, queryPart_filled, names_filled]
  · rfl
  · exact fun name isIn =>
      values name (paramNames_subset (queryPieces_suffix _).subset isIn)

end

/-! ### Where the values play no part -/

/-- No placeholder ends in the template's query, and no tab or newline stands in it. -/
def FixedQuery (path : JsString) : Prop :=
  ∀ unit ∈ ([0x7D, 0x9, 0xA, 0xD] : JsString), unit ∉ queryPart path

instance (path : JsString) : Decidable (FixedQuery path) := List.decidableBAll _ _

/-- With no brace to close one, a text holds no placeholder. -/
theorem piecesFrom_of_not_mem {text : JsString} (unclosed : 0x7D ∉ text) :
    piecesFrom none text = text.map .unit ∧
      ∀ name, piecesFrom (some name) text = .unit 0x7B :: (name ++ text).map .unit := by
  induction text with
  | nil =>
      refine ⟨rfl, ?_⟩
      intro name
      rw [piecesFrom, List.append_nil]
  | cons unit text ih =>
      rw [List.mem_cons, not_or] at unclosed
      obtain ⟨outside, inside⟩ := ih unclosed.2
      constructor
      · rw [piecesFrom]
        by_cases opens : unit = 0x7B
        · rw [if_pos opens, inside, opens]
          rfl
        · rw [if_neg opens, outside]
          rfl
      · intro name
        rw [piecesFrom]
        by_cases opens : unit = 0x7B
        · rw [if_pos opens, inside, opens, List.nil_append, List.map_append]
          rfl
        · rw [if_neg opens, if_neg (Ne.symm unclosed.1), inside, List.append_assoc]
          rfl

theorem queryPieces_units {front : JsString} (solid : 0x3F ∉ front) (behind : List Piece) :
    queryPieces (front.map .unit ++ behind) = queryPieces behind := by
  induction front with
  | nil => rfl
  | cons unit front ih =>
      rw [List.mem_cons, not_or] at solid
      rw [List.map_cons, List.cons_append, queryPieces, if_neg (Ne.symm solid.1), ih solid.2]

theorem queryPieces_piecesFrom {text : JsString} (unclosed : 0x7D ∉ queryPart text) :
    queryPieces (piecesFrom none text) = (queryPart text).map .unit ∧
      ∀ name, 0x3F ∉ name →
        queryPieces (piecesFrom (some name) text) = (queryPart text).map .unit := by
  have opened {name : JsString} (solid : 0x3F ∉ name) : (0x3F : UInt16) ∉ 0x7B :: name := by
    rw [List.mem_cons, not_or]
    exact ⟨by decide, solid⟩
  induction text with
  | nil =>
      refine ⟨rfl, ?_⟩
      intro name solid
      have units := queryPieces_units (opened solid) []
      rw [List.append_nil] at units
      exact units
  | cons unit text ih =>
      rw [queryPart] at unclosed ⊢
      by_cases mark : unit = 0x3F
      · rw [if_pos mark] at unclosed ⊢
        obtain ⟨outside, inside⟩ := piecesFrom_of_not_mem unclosed
        constructor
        · rw [piecesFrom, mark, if_neg (by decide), queryPieces, if_pos rfl, outside]
        · intro name solid
          have units := queryPieces_units (opened solid) (.unit 0x3F :: text.map .unit)
          rw [queryPieces, if_pos rfl] at units
          rw [piecesFrom, mark, if_neg (by decide), if_neg (by decide), inside, List.map_append,
            List.map_append, List.append_assoc]
          exact units
      · rw [if_neg mark] at unclosed ⊢
        obtain ⟨outside, inside⟩ := ih unclosed
        constructor
        · rw [piecesFrom]
          by_cases opens : unit = 0x7B
          · rw [if_pos opens, inside [] List.not_mem_nil]
          · rw [if_neg opens, queryPieces, if_neg mark, outside]
        · intro name solid
          rw [piecesFrom]
          split
          next =>
            have units := queryPieces_units (opened solid) (piecesFrom (some []) text)
            rw [inside [] List.not_mem_nil] at units
            exact units
          next =>
            split
            next =>
              split
              next => exact outside
              next => exact outside
            next =>
              apply inside
              rw [List.mem_append, List.mem_singleton, not_or]
              exact ⟨solid, Ne.symm mark⟩

theorem filled_units (value : JsString → JsString) (text : JsString) :
    filled value (text.map .unit) = text := by
  induction text with
  | nil => rfl
  | cons unit text ih => rw [List.map_cons, filled_unit, ih]

theorem paramNames_units (text : JsString) : paramNames (text.map .unit) = [] := by
  induction text with
  | nil => rfl
  | cons unit text ih => exact ih

/-- A fixed query has the names of its text, whatever the values. -/
theorem queryNames_fixed {value : JsString → JsString} {path : JsString}
    (fixed : FixedQuery path) : queryNames value path = templateNames path := by
  have unclosed : 0x7D ∉ queryPart path := fixed 0x7D (by decide)
  have pieces := (queryPieces_piecesFrom unclosed).1
  have parsed : (SearchParams.withoutMark (queryPart path)).filter SpecialUrl.isParsed =
      SearchParams.withoutMark (queryPart path) := by
    apply List.filter_eq_self.mpr
    intro unit isIn
    rw [SpecialUrl.isParsed, Bool.not_eq_true', ← Bool.not_eq_true, List.contains_iff_mem]
    intro isBreak
    exact fixed unit (List.mem_cons_of_mem _ isBreak)
      ((SearchParams.withoutMark_suffix _).subset isIn)
  have literal : ∀ name ∈ paramNames ((queryPart path).map Piece.unit), value name ≠ [] := by
    intro name isIn
    rw [paramNames_units] at isIn
    cases isIn
  rw [queryNames, nameParts, templatePieces, pieces, ← names_filled literal, filled_units,
    SearchParams.names_search, parsed, templateNames, queryKeys, SearchParams.parse, List.map_map]
  rfl

end NextTime.HttpBinding
