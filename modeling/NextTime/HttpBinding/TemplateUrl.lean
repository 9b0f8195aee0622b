import NextTime.HttpBinding.Rendered

/-
The path of the URL that a template makes: its segments as a URL reads them, and where they
lead from the base path. A placeholder by itself is never read as dots, so with no backslash,
tab or newline about it is the template that says where.
-/

namespace NextTime.HttpBinding

open JsString (js)
open PercentEscapes (fullyDecoded)
open UriEncoding (percentEncode)
open SpecialUrl (Dots Route dotsOf keepsInPath)

/-! ### Segments as a URL reads them -/

/-- The pieces before the query. -/
def pathPieces (path : JsString) : List Piece :=
  (templatePieces path).takeWhile (Piece.tests (fun unit => unit != 0x3F) true)

/-- Without the slashes in front, and without tabs and newlines; a backslash is a slash. -/
def urlSegments (pieces : List Piece) : List (List Piece) :=
  ((pieces.dropWhile (Piece.tests (fun unit => unit == 0x2F) false)).filter
    (Piece.tests SpecialUrl.isParsed true)).splitOnP (Piece.tests SpecialUrl.isSlash false)

/-- A segment as a path holds it. -/
def written (value : JsString → JsString) (segment : List Piece) : JsString :=
  percentEncode keepsInPath (filled (encoded value) segment)

theorem mem_paramNames {pieces : List Piece} {name : JsString} :
    name ∈ paramNames pieces ↔ .param name ∈ pieces := by
  rw [paramNames, List.mem_filterMap]
  constructor
  · rintro ⟨piece, isIn, same⟩
    cases piece with
    | unit unit => cases same
    | param held => exact Option.some.inj same ▸ isIn
  · exact fun isIn => ⟨.param name, isIn, rfl⟩

theorem paramNames_subset {front back : List Piece} (among : front ⊆ back) :
    paramNames front ⊆ paramNames back :=
  fun _ isIn => mem_paramNames.mpr (among (mem_paramNames.mp isIn))

theorem urlSegment_subset {pieces segment : List Piece} (isSegment : segment ∈ urlSegments pieces) :
    segment ⊆ pieces := by
  intro piece isIn
  have kept := (JsString.splitOnP_part isSegment).2 isIn
  exact (List.dropWhile_suffix _).subset (List.mem_filter.mp kept).1

section
variable {value : JsString → JsString}

/-- The rendered path ends where the template's does. -/
theorem pathPart_filled (path : JsString) :
    pathPart (filled (encoded value) (templatePieces path)) =
      filled (encoded value) (pathPieces path) :=
  takeWhile_filled (by decide) _

/-- A URL reads the rendered path by the template's segments. -/
theorem segmentsOf_filled {pieces : List Piece}
    (values : ∀ name ∈ paramNames pieces, value name ≠ []) :
    SpecialUrl.segmentsOf ((filled (encoded value) pieces).dropWhile fun unit => unit == 0x2F) =
      (urlSegments pieces).map (written value) := by
  rw [dropWhile_filled (by decide) values, SpecialUrl.segmentsOf, filter_filled (by decide),
    splitOnP_filled (by decide), List.map_map]
  rfl

/-! ### Segments that are read as dots -/

theorem dotsOf_of_oneSegment {text : JsString} (one : OneSegment text) : dotsOf text = .none := by
  have single : ∀ dot ∈ SpecialUrl.DOTS, fullyDecoded dot = js "." := by decide
  have double : ∀ first ∈ SpecialUrl.DOTS, ∀ second ∈ SpecialUrl.DOTS,
      fullyDecoded (first ++ second) = js ".." := by decide
  have notSingle : ¬SpecialUrl.isSingleDot text = true := by
    rw [SpecialUrl.isSingleDot, List.contains_iff_mem]
    exact fun isIn => one.dot (single text isIn)
  have notDouble : ¬SpecialUrl.isDoubleDot text = true := by
    rw [SpecialUrl.isDoubleDot, List.any_eq_true]
    rintro ⟨first, isFirst, some⟩
    obtain ⟨second, isSecond, same⟩ := List.any_eq_true.mp some
    exact one.dots (of_decide_eq_true same ▸ double first isFirst second isSecond)
  rw [dotsOf, if_neg notDouble, if_neg notSingle]

theorem dotsOf_written {segment : List Piece} (one : OneSegment (filled value segment)) :
    dotsOf (written value segment) = .none := by
  apply dotsOf_of_oneSegment
  rw [written, oneSegment_percentEncode_iff, oneSegment_encoded_iff]
  exact one

/-! ### Where a template leads -/

variable (value) in
/-- What a segment is read as: a placeholder by itself is never dots. -/
def readsAs : List Piece → Dots
  | [.param _] => .none
  | segment => dotsOf (written value segment)

variable (value) in
def route (pieces : List Piece) : Route (List Piece) :=
  Route.walk [] (readsAs value) ⟨0, []⟩ (urlSegments pieces)

theorem oneSegment_param {name : JsString} (single : isSinglePathSegment (value name) = true) :
    OneSegment (filled value [.param name]) := by
  rw [filled_param]
  change OneSegment (value name ++ [])
  rw [List.append_nil]
  exact (isSegmentWithin_oneSegment single).2

theorem readsAs_eq {segment : List Piece}
    (single : ∀ name ∈ paramNames segment, isSinglePathSegment (value name) = true) :
    readsAs value segment = dotsOf (written value segment) := by
  unfold readsAs
  split
  next name => exact (dotsOf_written (oneSegment_param (single name List.mem_cons_self))).symm
  next => rfl

/-- The segments of a base path, without the empty ones at its end. -/
def basePath (base : SpecialUrl) : List JsString :=
  base.path.rdropWhile fun segment => segment.isEmpty

theorem resolveOn_path (base : SpecialUrl) (rendered : JsString) :
    (resolveOn base rendered).path =
      SpecialUrl.walk (basePath base) (SpecialUrl.segmentsOf
        ((pathPart rendered).dropWhile fun unit => unit == 0x2F)) := by
  have normal : ∀ segment ∈ basePath base, SpecialUrl.IsSegment segment :=
    fun segment isIn => base.normal segment ((List.rdropWhile_prefix _ _).subset isIn)
  change SpecialUrl.parsePath (withoutTrailingSlashes base.pathname ++ 0x2F :: _) = _
  rw [withoutTrailingSlashes, SpecialUrl.pathname, SpecialUrl.rdropWhile_joined base.normal]
  exact SpecialUrl.parsePath_joined normal _

/-- The URL of a rendered path is where the template's route ends. -/
theorem resolveOn_ends (base : SpecialUrl) {rendered : JsString} {pieces : List Piece}
    (single : ∀ name ∈ paramNames pieces, isSinglePathSegment (value name) = true)
    (isPath : pathPart rendered = filled (encoded value) pieces) :
    (resolveOn base rendered).path = (route value pieces).ends (written value) (basePath base) := by
  have values : ∀ name ∈ paramNames pieces, value name ≠ [] :=
    fun name isIn => (isSegmentWithin_oneSegment (single name isIn)).1
  have areRead : ∀ segment ∈ urlSegments pieces,
      readsAs value segment = dotsOf (written value segment) :=
    fun segment isSegment => readsAs_eq fun name isIn =>
      single name (paramNames_subset (urlSegment_subset isSegment) isIn)
  have starts : basePath base = Route.ends (written value) (basePath base) ⟨0, []⟩ := by
    rw [Route.ends, List.rdrop_zero, List.map_nil, List.append_nil]
  rw [resolveOn_path, isPath, segmentsOf_filled values]
  nth_rewrite 1 [starts]
  exact Route.walk_ends rfl areRead _

/-! ### Where the values play no part -/

/-- No backslash, tab or newline, which only a URL takes for a slash or for nothing. -/
def Unbroken (pieces : List Piece) : Prop :=
  ∀ unit ∈ [0x5C, 0x9, 0xA, 0xD], Piece.unit unit ∉ pieces

instance (pieces : List Piece) : Decidable (Unbroken pieces) := List.decidableBAll _ _

/-- What a segment is read as without its values: one with a placeholder is no dots. -/
def readsLiteral (segment : List Piece) : Dots :=
  if paramNames segment = [] then dotsOf (percentEncode keepsInPath (filled id segment)) else .none

def templateRoute (pieces : List Piece) : Route (List Piece) :=
  Route.walk [] readsLiteral ⟨0, []⟩ (urlSegments pieces)

variable (value) in
/-- Where a template leads: with values only where something breaks its segments. -/
def leads (pieces : List Piece) : Route (List Piece) :=
  if Unbroken pieces then templateRoute pieces else route value pieces

theorem filled_literal {segment : List Piece} (literal : paramNames segment = []) :
    filled value segment = filled id segment := by
  induction segment with
  | nil => rfl
  | cons piece segment ih =>
      cases piece with
      | unit unit => rw [filled_unit, filled_unit, ih literal]
      | param name => cases literal

/-- Without them the segments of the URL are the parts between slashes. -/
theorem mem_splitOn_of_urlSegments {pieces segment : List Piece} (unbroken : Unbroken pieces)
    (isSegment : segment ∈ urlSegments pieces) : segment ∈ pieces.splitOn (.unit 0x2F) := by
  have parsed : ∀ piece ∈ pieces, Piece.tests SpecialUrl.isParsed true piece = true := by
    intro piece isIn
    cases piece with
    | unit unit =>
        rw [Piece.tests, SpecialUrl.isParsed, Bool.not_eq_true', ← Bool.not_eq_true,
          List.contains_iff_mem]
        exact fun isBreak => unbroken unit (List.mem_cons_of_mem _ isBreak) isIn
    | param name => rfl
  have slashes : ∀ piece ∈ pieces,
      Piece.tests SpecialUrl.isSlash false piece = (piece == .unit 0x2F) := by
    intro piece isIn
    cases piece with
    | unit unit =>
        have other : unit ≠ 0x5C := fun same => unbroken unit (same ▸ List.mem_cons_self) isIn
        rw [Piece.tests, SpecialUrl.isSlash, decide_eq_false other, Bool.or_false, Bool.eq_iff_iff,
          decide_eq_true_eq, beq_iff_eq, Piece.unit.injEq]
    | param name => rfl
  rw [urlSegments] at isSegment
  induction pieces with
  | nil => exact isSegment
  | cons piece pieces ih =>
      rw [@List.dropWhile_cons Piece] at isSegment
      by_cases slash : piece = .unit 0x2F
      · rw [slash, Piece.tests, if_pos (by decide)] at isSegment
        rw [List.splitOn_cons_eq_if_modifyHead, if_pos (beq_iff_eq.mpr slash)]
        refine List.mem_cons_of_mem _ (ih ?_ isSegment ?_ ?_)
        · exact fun unit isBreak isIn => unbroken unit isBreak (List.mem_cons_of_mem _ isIn)
        · exact fun held isIn => parsed held (List.mem_cons_of_mem _ isIn)
        · exact fun held isIn => slashes held (List.mem_cons_of_mem _ isIn)
      · have kept : ¬Piece.tests (fun unit => unit == 0x2F) false piece = true := by
          cases piece with
          | unit unit => exact fun same => slash (congrArg _ (beq_iff_eq.mp same))
          | param name => exact Bool.false_ne_true
        rw [if_neg kept, List.filter_eq_self.mpr parsed] at isSegment
        rw [List.splitOn_eq_splitOnP, ← JsString.splitOnP_congr slashes]
        exact isSegment

/-- Where each part between slashes is one segment, the values do not change the route. -/
theorem route_eq_leads {pieces : List Piece}
    (beside : ∀ segment ∈ pieces.splitOn (.unit 0x2F), paramNames segment ≠ [] →
      (∀ name, segment ≠ [.param name]) → OneSegment (filled value segment)) :
    route value pieces = leads value pieces := by
  unfold leads
  split
  next unbroken =>
    apply Route.walk_congr
    intro segment isSegment
    unfold readsAs readsLiteral
    split
    next name => rfl
    next others =>
      by_cases literal : paramNames segment = []
      · rw [if_pos literal, written, filled_literal literal]
      · rw [if_neg literal]
        apply dotsOf_written
        exact beside segment (mem_splitOn_of_urlSegments unbroken isSegment) literal others
  next => rfl

end

end NextTime.HttpBinding
