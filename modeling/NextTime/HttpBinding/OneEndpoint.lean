import NextTime.HttpBinding.TemplateUrl
import NextTime.Library.TextParts

/-
When the params of a path leave the endpoint what its template names: the segments of the
rendered path in every round of decoding, and the URL it makes under the base URL.
-/

namespace NextTime.HttpBinding

open JsString (js)
open JsonText (NumberText)
open PercentEscapes (decode fullyDecoded Separates)

/-! ### Segments of a template -/

def templateSegments (path : JsString) : List (List Piece) :=
  (pathPieces path).splitOn (.unit 0x2F)

section
variable {value : JsString → JsString}

theorem filled_intercalate (segments : List (List Piece)) :
    filled value ([.unit 0x2F].intercalate segments) =
      [0x2F].intercalate (segments.map (filled value)) := by
  induction segments with
  | nil => rfl
  | cons segment segments ih =>
      cases segments with
      | nil =>
          rw [List.map_singleton, List.intercalate_singleton, List.intercalate_singleton]
      | cons next segments =>
          rw [List.map_cons, List.map_cons, List.intercalate_cons_cons,
            List.intercalate_cons_cons, filled_append, filled_append, ih, List.map_cons]
          rfl

theorem templateSegments_ne_nil (path : JsString) : templateSegments path ≠ [] :=
  List.splitOn_ne_nil _ _

/-- The rendered path is the renderings of the segments between slashes. -/
theorem pathPart_rendered (path : JsString) :
    pathPart (filled (encoded value) (templatePieces path)) =
      [0x2F].intercalate ((templateSegments path).map (filled (encoded value))) := by
  rw [pathPart_filled, ← filled_intercalate, templateSegments, List.intercalate_splitOn]

end

/-! ### Parts between slashes -/

theorem splitOn_intercalate_flatMap {separator : UInt16} {parts : List JsString}
    (some : parts ≠ []) :
    ([separator].intercalate parts).splitOn separator =
      parts.flatMap fun part => part.splitOn separator := by
  induction parts with
  | nil => exact absurd rfl some
  | cons part parts ih =>
      cases parts with
      | nil => rw [List.intercalate_singleton, List.flatMap_singleton]
      | cons next parts =>
          rw [List.intercalate_cons_cons, List.append_assoc, List.singleton_append,
            List.splitOn_append_cons_self, ih (List.cons_ne_nil next parts)]
          rfl

theorem length_le_flatMap_splitOn (separator : UInt16) (parts : List JsString) :
    parts.length ≤ (parts.flatMap fun part => part.splitOn separator).length ∧
      ((parts.flatMap fun part => part.splitOn separator).length = parts.length →
        ∀ part ∈ parts, separator ∉ part) := by
  induction parts with
  | nil => exact ⟨Nat.le_refl _, fun _ _ isIn => by cases isIn⟩
  | cons part parts ih =>
      have here := JsString.length_splitOn separator part
      rw [List.flatMap_cons, List.length_append, List.length_cons, here]
      constructor
      · omega
      · intro same held isIn
        rcases List.mem_cons.mp isIn with isHere | later
        · rw [isHere, ← List.count_eq_zero]
          omega
        · exact ih.2 (by omega) held later

theorem flatMap_splitOn_of_not_mem {separator : UInt16} {parts : List JsString}
    (solid : ∀ part ∈ parts, separator ∉ part) :
    (parts.flatMap fun part => part.splitOn separator) = parts := by
  induction parts with
  | nil => rfl
  | cons part parts ih =>
      rw [List.flatMap_cons, List.splitOn_eq_singleton (solid part List.mem_cons_self),
        ih fun held isIn => solid held (List.mem_cons_of_mem _ isIn), List.singleton_append]

/-- Parts are found again, each as it should be, exactly when none holds a separator. -/
theorem forall₂_splitOn_iff {Item : Type} {separator : UInt16} {Fits : Item → JsString → Prop}
    {items : List Item} (some : items ≠ []) (part : Item → JsString) :
    List.Forall₂ Fits items (([separator].intercalate (items.map part)).splitOn separator) ↔
      ∀ item ∈ items, separator ∉ part item ∧ Fits item (part item) := by
  rw [splitOn_intercalate_flatMap (mt List.map_eq_nil_iff.mp some)]
  have same : List.Forall₂ Fits items (items.map part) ↔ ∀ item ∈ items, Fits item (part item) := by
    rw [List.forall₂_map_right_iff, List.forall₂_same]
  constructor
  · intro fits
    have lengths := fits.length_eq.symm
    have solid := (length_le_flatMap_splitOn separator (items.map part)).2 (by
      rw [lengths, List.length_map])
    rw [flatMap_splitOn_of_not_mem solid] at fits
    exact fun item isIn => ⟨solid _ (List.mem_map_of_mem isIn), same.mp fits item isIn⟩
  · intro all
    rw [flatMap_splitOn_of_not_mem, same]
    · exact fun item isIn => (all item isIn).2
    · intro held isHeld
      obtain ⟨item, isIn, isPart⟩ := List.mem_map.mp isHeld
      exact isPart ▸ (all item isIn).1

/-! ### The endpoint -/

/-- A segment after some rounds of decoding: one with a placeholder is neither empty nor dots,
and any other is what its text is decoded to. -/
structure SegmentKept (rounds : Nat) (segment : List Piece) (part : JsString) : Prop where
  named : paramNames segment ≠ [] → part ≠ [] ∧ part ≠ js "." ∧ part ≠ js ".."
  literal : paramNames segment = [] → part = decode^[rounds] (filled id segment)

/-- The params change nothing of which endpoint is called: in every round of decoding the
rendered path has the template's segments, and its URL is under the base URL. -/
structure OneEndpoint (base : SpecialUrl) (path rendered : JsString) : Prop where
  segments : ∀ rounds, List.Forall₂ (SegmentKept rounds) (templateSegments path)
    ((decode^[rounds] (pathPart rendered)).splitOn 0x2F)
  scheme : (resolveOn base rendered).scheme = base.scheme
  host : (resolveOn base rendered).host = base.host
  under : basePath base <+: (resolveOn base rendered).path

/-- What a template and its values have to keep to. -/
structure Contained (value : JsString → JsString) (base : SpecialUrl) (path : JsString) : Prop where
  /-- No escape in the template's own text stands for a slash. -/
  literal : ∀ segment ∈ templateSegments path, paramNames segment = [] →
    0x2F ∉ fullyDecoded (filled id segment)
  /-- Where a placeholder is not a segment of its own, what it makes with the text beside it,
  the values as they are, is one segment and no dots however often it is decoded. -/
  beside : ∀ segment ∈ templateSegments path, paramNames segment ≠ [] →
    (∀ name, segment ≠ [.param name]) → OneSegment (filled value segment)
  /-- The template's dot segments, as a URL reads them, take nothing from the base path, or its
  segments go down again by what they took. -/
  under : (basePath base).rtake (leads value (pathPieces path)).up <+:
    (leads value (pathPieces path)).down.map (written value)

theorem mem_of_mem_templateSegments {path : JsString} {segment : List Piece}
    (isSegment : segment ∈ templateSegments path) {name : JsString}
    (isIn : name ∈ paramNames segment) : name ∈ paramNames (templatePieces path) := by
  rw [mem_paramNames] at isIn ⊢
  exact (List.takeWhile_prefix _).subset ((JsString.splitOn_part isSegment).2 isIn)

theorem filled_ne_nil {value : JsString → JsString} {segment : List Piece}
    (named : paramNames segment ≠ [])
    (values : ∀ name ∈ paramNames segment, value name ≠ []) : filled value segment ≠ [] := by
  obtain ⟨name, isName⟩ := List.exists_mem_of_ne_nil _ named
  intro empty
  exact values name isName
    (List.flatMap_eq_nil_iff.mp empty (.param name) (mem_paramNames.mp isName))

/-- One segment, in all rounds of decoding. -/
theorem segment_kept_iff {value : JsString → JsString} {segment : List Piece}
    (single : ∀ name ∈ paramNames segment, isSinglePathSegment (value name) = true) :
    (∀ rounds, 0x2F ∉ decode^[rounds] (filled (encoded value) segment) ∧
        SegmentKept rounds segment (decode^[rounds] (filled (encoded value) segment))) ↔
      (paramNames segment = [] → 0x2F ∉ fullyDecoded (filled id segment)) ∧
      (paramNames segment ≠ [] → (∀ name, segment ≠ [.param name]) →
        OneSegment (filled value segment)) := by
  have separates : Separates 0x2F := by decide
  have values (name : JsString) (isIn : name ∈ paramNames segment) : value name ≠ [] :=
    (isSegmentWithin_oneSegment (single name isIn)).1
  by_cases literal : paramNames segment = []
  · have same := @filled_literal (encoded value) segment literal
    rw [same]
    constructor
    · intro kept
      refine ⟨fun _ isIn => ?_, fun named => absurd literal named⟩
      obtain ⟨rounds, held⟩ := (PercentEscapes.mem_fullyDecoded_iff separates).mp isIn
      exact (kept rounds).1 held
    · intro contained rounds
      refine ⟨fun isIn => contained.1 literal ?_, fun named => absurd literal named, fun _ => rfl⟩
      exact (PercentEscapes.mem_fullyDecoded_iff separates).mpr ⟨rounds, isIn⟩
  · have some : filled (encoded value) segment ≠ [] :=
      filled_ne_nil literal fun name isIn => encoded_ne_nil (values name isIn)
    have every : (∀ rounds, 0x2F ∉ decode^[rounds] (filled (encoded value) segment) ∧
        SegmentKept rounds segment (decode^[rounds] (filled (encoded value) segment))) ↔
        OneSegment (filled value segment) := by
      rw [← oneSegment_encoded_iff, oneSegment_iff some]
      apply forall_congr'
      intro rounds
      apply and_congr_right
      intro _
      exact ⟨fun kept => kept.named literal,
        fun kept => ⟨fun _ => kept, fun empty => absurd empty literal⟩⟩
    rw [every]
    constructor
    · exact fun one => ⟨fun empty => absurd empty literal, fun _ _ => one⟩
    · intro contained
      by_cases alone : ∃ name, segment = [.param name]
      · obtain ⟨name, isParam⟩ := alone
        rw [isParam] at single ⊢
        exact oneSegment_param (single name List.mem_cons_self)
      · exact contained.2 literal (not_exists.mp alone)

/-- The params change nothing of which endpoint is called exactly when template and values
keep to what they have to. -/
theorem oneEndpoint_iff {Number : Type} (numbers : JsNumbers Number) {bag : Bag Number}
    (base : SpecialUrl) {path rendered : JsString}
    (renders : renderPath numbers bag path = .ok rendered) :
    OneEndpoint base path rendered ↔ Contained (bag.value numbers) base path := by
  obtain ⟨isRendered, single⟩ := renderPieces_ok numbers bag renders
  have separates : Separates 0x2F := by decide
  have parts : pathPart rendered = [0x2F].intercalate
      ((templateSegments path).map (filled (encoded (bag.value numbers)))) := by
    rw [isRendered, pathPart_rendered]
  have here : pathPart rendered = filled (encoded (bag.value numbers)) (pathPieces path) := by
    rw [isRendered, pathPart_filled]
  have under (beside : ∀ segment ∈ templateSegments path, paramNames segment ≠ [] →
      (∀ name, segment ≠ [.param name]) → OneSegment (filled (bag.value numbers) segment)) :
      basePath base <+: (resolveOn base rendered).path ↔
        (basePath base).rtake (leads (bag.value numbers) (pathPieces path)).up <+:
          (leads (bag.value numbers) (pathPieces path)).down.map (written (bag.value numbers)) := by
    have singles : ∀ name ∈ paramNames (pathPieces path),
        isSinglePathSegment (bag.value numbers name) = true :=
      fun name isIn => single name (paramNames_subset (List.takeWhile_prefix _).subset isIn)
    rw [resolveOn_ends base singles here, SpecialUrl.Route.prefix_ends_iff, route_eq_leads beside]
  have segments : (∀ rounds, List.Forall₂ (SegmentKept rounds) (templateSegments path)
      ((decode^[rounds] (pathPart rendered)).splitOn 0x2F)) ↔
      ∀ segment ∈ templateSegments path,
        (paramNames segment = [] → 0x2F ∉ fullyDecoded (filled id segment)) ∧
        (paramNames segment ≠ [] → (∀ name, segment ≠ [.param name]) →
          OneSegment (filled (bag.value numbers) segment)) := by
    have each (rounds : Nat) : List.Forall₂ (SegmentKept rounds) (templateSegments path)
        ((decode^[rounds] (pathPart rendered)).splitOn 0x2F) ↔
        ∀ segment ∈ templateSegments path,
          0x2F ∉ decode^[rounds] (filled (encoded (bag.value numbers)) segment) ∧
          SegmentKept rounds segment
            (decode^[rounds] (filled (encoded (bag.value numbers)) segment)) := by
      rw [parts, PercentEscapes.iterate_decode_intercalate separates, List.map_map]
      exact forall₂_splitOn_iff (templateSegments_ne_nil path) _
    simp only [each]
    rw [forall_comm]
    apply forall_congr'
    intro segment
    rw [forall_comm]
    apply imp_congr_right
    intro isSegment
    exact segment_kept_iff fun name isIn =>
      single name (mem_of_mem_templateSegments isSegment isIn)
  constructor
  · intro one
    have all := segments.mp one.segments
    have beside := fun segment isIn => (all segment isIn).2
    exact ⟨fun segment isIn => (all segment isIn).1, beside, (under beside).mp one.under⟩
  · intro contained
    refine ⟨segments.mpr ?_, rfl, rfl, (under contained.beside).mpr contained.under⟩
    exact fun segment isIn => ⟨contained.literal segment isIn, contained.beside segment isIn⟩

/-! ### Two placeholders in a segment -/

/-- `https://shop/api`. -/
def apiUrl : SpecialUrl where
  scheme := js "https"
  host := js "shop"
  path := [js "api"]
  searchParams := []
  filled := List.cons_ne_nil _ _
  normal := fun _ isIn => List.mem_singleton.mp isIn ▸
    ⟨List.all_eq_true.mp (by decide), by decide, by decide⟩

def itemPath : JsString := js "/items/\x7bitem\x7d"

def partsPath : JsString := js "/items/\x7bitem\x7d\x7bpart\x7d"

def itemBag (item part : JsString) : Bag NumberText :=
  ⟨[(js "item", .str item), (js "part", .str part)], fun _ => none⟩

theorem oneEndpoint_iff_item :
    OneEndpoint apiUrl itemPath (js "/items/a%2520b") := by
  have renders : renderPath JsNumbers.written (itemBag (js "a%20b") (js "")) itemPath =
      .ok (js "/items/a%2520b") := by rfl
  apply (oneEndpoint_iff JsNumbers.written apiUrl renders).mpr
  have segments : templateSegments itemPath =
      [[], (js "items").map .unit, [.param (js "item")]] := by rfl
  constructor
  · rw [segments, List.forall_mem_cons, List.forall_mem_cons, List.forall_mem_singleton]
    exact ⟨fun _ => by decide, fun _ => by decide, fun named => nomatch named⟩
  · rw [segments, List.forall_mem_cons, List.forall_mem_cons, List.forall_mem_singleton]
    exact ⟨fun named => absurd rfl named, fun named => absurd rfl named,
      fun _ beside => absurd rfl (beside (js "item"))⟩
  · have unbroken : Unbroken (pathPieces itemPath) := by decide
    have level : (templateRoute (pathPieces itemPath)).up = 0 := by decide
    rw [leads, if_pos unbroken, level]
    exact List.nil_prefix

/-- `%2` and `e` are each one segment, and side by side a dot. -/
theorem not_oneEndpoint_parts :
    renderPath JsNumbers.written (itemBag (js "%2") (js "e")) partsPath =
        .ok (js "/items/%252e") ∧
      ¬OneEndpoint apiUrl partsPath (js "/items/%252e") := by
  refine ⟨rfl, ?_⟩
  intro one
  have segments : templateSegments partsPath =
      [[], (js "items").map .unit, [.param (js "item"), .param (js "part")]] := by rfl
  have parts : (decode^[2] (pathPart (js "/items/%252e"))).splitOn 0x2F =
      [[], js "items", js "."] := by decide
  have kept := one.segments 2
  rw [segments, parts] at kept
  cases kept with
  | cons _ kept =>
      cases kept with
      | cons _ kept =>
          cases kept with
          | cons last _ => exact (last.named (List.cons_ne_nil _ _)).2.1 rfl

end NextTime.HttpBinding
