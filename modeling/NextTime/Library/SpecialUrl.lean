import NextTime.Library.UriEncoding
import Mathlib.Data.List.DropRight

/-
URLs of the schemes `http` and `https`: the segments of a path, as a path is read when it
is set, and the pathname they make. Nothing here names a particular program.
-/

namespace SpecialUrl

open JsString (js)
open UriEncoding (percentEncode)

/-! ### Segments -/

/-- Units of a path that are not percent-encoded, the slashes apart. A `^` is one, as Node 22 reads
a path; the URL Standard now encodes it. -/
def keepsInPath (unit : UInt16) : Bool :=
  0x21 ≤ unit && unit ≤ 0x7E &&
    !([0x22, 0x23, 0x2F, 0x3C, 0x3E, 0x3F, 0x5C, 0x60, 0x7B, 0x7D] : JsString).contains unit

def isSlash (unit : UInt16) : Bool := unit = 0x2F || unit = 0x5C

def DOTS : List JsString := [js ".", js "%2e", js "%2E"]

def isSingleDot (segment : JsString) : Bool := DOTS.contains segment

def isDoubleDot (segment : JsString) : Bool :=
  DOTS.any fun first => DOTS.any fun second => decide (segment = first ++ second)

/-- A segment as a path holds it. -/
structure IsSegment (segment : JsString) : Prop where
  units : ∀ unit ∈ segment, keepsInPath unit = true
  single : isSingleDot segment = false
  double : isDoubleDot segment = false

/-- One segment read onto a path. -/
def close (path : List JsString) (segment : JsString) (last : Bool) : List JsString :=
  if isDoubleDot segment then if last then path.dropLast ++ [[]] else path.dropLast
  else if isSingleDot segment then if last then path ++ [[]] else path
  else path ++ [segment]

def walk (path : List JsString) : List JsString → List JsString
  | [] => path
  | [segment] => close path segment true
  | segment :: next :: rest => walk (close path segment false) (next :: rest)

/-- Tabs and newlines are taken out of what is parsed. -/
def isParsed (unit : UInt16) : Bool := !([0x9, 0xA, 0xD] : JsString).contains unit

/-- The segments of a text, before any is read as a dot. -/
def segmentsOf (text : JsString) : List JsString :=
  ((text.filter isParsed).splitOnP isSlash).map (percentEncode keepsInPath)

/-- The path that a text is read as. -/
def parsePath (text : JsString) : List JsString :=
  match text.filter isParsed with
  | unit :: rest => walk [] (segmentsOf (if isSlash unit then rest else unit :: rest))
  | [] => walk [] (segmentsOf [])

theorem segmentsOf_ne_nil (text : JsString) : segmentsOf text ≠ [] := by
  unfold segmentsOf
  exact mt List.map_eq_nil_iff.mp (List.splitOnP_ne_nil _ _)

theorem isSegment_nil : IsSegment [] := ⟨fun _ isIn => (nomatch isIn), by decide, by decide⟩

theorem keepsInPath_hexadecimal {unit : UInt16} (hexadecimal : JsString.isHexadecimal unit = true) :
    keepsInPath unit = true := by
  have range := JsString.isHexadecimal_iff.mp hexadecimal
  have small : unit.toNat < 0x80 := by omega
  have each : ∀ value : Fin 0x80, JsString.isHexadecimal (UInt16.ofNat value) = true →
      keepsInPath (UInt16.ofNat value) = true := by decide
  have here := each ⟨unit.toNat, small⟩
  simp only [UInt16.ofNat_toNat] at here
  exact here hexadecimal

theorem keepsInPath_of_mem {text : JsString} {unit : UInt16}
    (isIn : unit ∈ percentEncode keepsInPath text) : keepsInPath unit = true := by
  rcases UriEncoding.mem_percentEncode isIn with kept | percent | hexadecimal
  · exact kept
  · rw [percent]
    decide
  · exact keepsInPath_hexadecimal hexadecimal

theorem keepsInPath_of_segmentsOf {text segment : JsString} (isIn : segment ∈ segmentsOf text) :
    ∀ unit ∈ segment, keepsInPath unit = true := by
  obtain ⟨read, _, isRead⟩ := List.mem_map.mp isIn
  rw [← isRead]
  exact fun _ held => keepsInPath_of_mem held

theorem isSegment_close {path : List JsString} (normal : ∀ held ∈ path, IsSegment held)
    {segment : JsString} (kept : ∀ unit ∈ segment, keepsInPath unit = true) (last : Bool) :
    ∀ held ∈ close path segment last, IsSegment held := by
  have shorter : ∀ held ∈ path.dropLast, IsSegment held :=
    fun held isIn => normal held (List.dropLast_subset path isIn)
  have longer (front : List JsString) (all : ∀ held ∈ front, IsSegment held) (back : JsString)
      (isBack : IsSegment back) : ∀ held ∈ front ++ [back], IsSegment held := by
    intro held isIn
    rcases List.mem_append.mp isIn with inFront | same
    · exact all held inFront
    · exact List.mem_singleton.mp same ▸ isBack
  unfold close
  split
  next =>
    split
    next => exact longer _ shorter [] isSegment_nil
    next => exact shorter
  next notDouble =>
    split
    next =>
      split
      next => exact longer _ normal [] isSegment_nil
      next => exact normal
    next notSingle =>
      exact longer _ normal segment
        ⟨kept, Bool.eq_false_of_not_eq_true notSingle, Bool.eq_false_of_not_eq_true notDouble⟩

theorem isSegment_walk {segments : List JsString} :
    ∀ {path : List JsString}, (∀ held ∈ path, IsSegment held) →
      (∀ segment ∈ segments, ∀ unit ∈ segment, keepsInPath unit = true) →
        ∀ held ∈ walk path segments, IsSegment held := by
  induction segments with
  | nil => exact fun normal _ => normal
  | cons segment segments ih =>
      intro path normal kept
      have closed := isSegment_close normal (kept segment List.mem_cons_self)
      cases segments with
      | nil => exact closed true
      | cons next rest =>
          exact ih (closed false) fun held isIn => kept held (List.mem_cons_of_mem _ isIn)

theorem walk_ne_nil {segments : List JsString} :
    ∀ {path : List JsString}, segments ≠ [] → walk path segments ≠ [] := by
  induction segments with
  | nil => exact fun some => absurd rfl some
  | cons segment segments ih =>
      intro path _
      cases segments with
      | nil =>
          rw [walk, close]
          split
          · simp
          · split <;> simp
      | cons next rest => exact ih (List.cons_ne_nil next rest)

theorem parsePath_eq (text : JsString) :
    ∃ behind, parsePath text = walk [] (segmentsOf behind) := by
  unfold parsePath
  split
  next => exact ⟨_, rfl⟩
  next => exact ⟨_, rfl⟩

/-! ### Where segments lead -/

/-- What a segment of a path is read as. -/
inductive Dots
  | none
  | single
  | double
deriving DecidableEq, Repr

def dotsOf (segment : JsString) : Dots :=
  if isDoubleDot segment then .double else if isSingleDot segment then .single else .none

/-- Where segments lead from a path: how many of its own are taken from its end, and what
stands behind the others. -/
structure Route (Item : Type) where
  up : Nat
  down : List Item

namespace Route

section
variable {Item : Type}

def back (route : Route Item) : Route Item :=
  if route.down = [] then ⟨route.up + 1, []⟩ else ⟨route.up, route.down.dropLast⟩

def onward (route : Route Item) (item : Item) : Route Item := ⟨route.up, route.down ++ [item]⟩

/-- One segment, read as dots or not; `blank` is the empty one. -/
def close (blank : Item) (route : Route Item) (item : Item) (last : Bool) : Dots → Route Item
  | .double => if last then route.back.onward blank else route.back
  | .single => if last then route.onward blank else route
  | .none => route.onward item

def walk (blank : Item) (reads : Item → Dots) (route : Route Item) : List Item → Route Item
  | [] => route
  | [item] => route.close blank item true (reads item)
  | item :: next :: rest =>
      walk blank reads (route.close blank item false (reads item)) (next :: rest)

/-- The path that a route leads to. -/
def ends (written : Item → JsString) (path : List JsString) (route : Route Item) : List JsString :=
  path.rdrop route.up ++ route.down.map written

variable {blank : Item} {written : Item → JsString} {path : List JsString}

theorem ends_onward (route : Route Item) (item : Item) :
    (route.onward item).ends written path = route.ends written path ++ [written item] := by
  rw [ends, ends, onward, List.map_append, List.map_singleton, List.append_assoc]

theorem ends_back (route : Route Item) :
    route.back.ends written path = (route.ends written path).dropLast := by
  unfold back
  split
  next none =>
    have one : path.rdrop (route.up + 1) = (path.rdrop route.up).dropLast := by
      rw [List.rdrop, List.rdrop, List.dropLast_eq_take, List.take_take, List.length_take]
      congr 1
      omega
    rw [ends, ends, none, List.map_nil, List.append_nil, List.append_nil, one]
  next some =>
    rw [ends, ends, List.dropLast_append_of_ne_nil (mt List.map_eq_nil_iff.mp some),
      List.map_dropLast]

theorem ends_close (empty : written blank = []) {item : Item} {reads : Item → Dots}
    (isRead : reads item = dotsOf (written item)) (route : Route Item) (last : Bool) :
    (route.close blank item last (reads item)).ends written path =
      SpecialUrl.close (route.ends written path) (written item) last := by
  rw [isRead, SpecialUrl.close, dotsOf]
  split
  next =>
    rw [close]
    cases last with
    | true => rw [if_pos rfl, if_pos rfl, ends_onward, ends_back, empty]
    | false => rw [if_neg Bool.false_ne_true, if_neg Bool.false_ne_true, ends_back]
  next =>
    split
    next =>
      rw [close]
      cases last with
      | true => rw [if_pos rfl, if_pos rfl, ends_onward, empty]
      | false => rw [if_neg Bool.false_ne_true, if_neg Bool.false_ne_true]
    next => rw [close, ends_onward]

/-- Segments are walked to where their route ends. -/
theorem walk_ends (empty : written blank = []) {reads : Item → Dots} {items : List Item}
    (areRead : ∀ item ∈ items, reads item = dotsOf (written item)) : ∀ route : Route Item,
    SpecialUrl.walk (route.ends written path) (items.map written) =
      (walk blank reads route items).ends written path := by
  induction items with
  | nil => exact fun _ => rfl
  | cons item items ih =>
      intro route
      have here := areRead item List.mem_cons_self
      have later := ih fun held isIn => areRead held (List.mem_cons_of_mem _ isIn)
      cases items with
      | nil => exact (ends_close empty here route true).symm
      | cons next rest =>
          rw [walk, ← later, ends_close empty here]
          rfl

/-- A route depends on what its segments are read as only. -/
theorem walk_congr {reads others : Item → Dots} {items : List Item}
    (same : ∀ item ∈ items, reads item = others item) : ∀ route : Route Item,
    walk blank reads route items = walk blank others route items := by
  induction items with
  | nil => exact fun _ => rfl
  | cons item items ih =>
      intro route
      have here := same item List.mem_cons_self
      have later := ih fun held isIn => same held (List.mem_cons_of_mem _ isIn)
      cases items with
      | nil => rw [walk, walk, here]
      | cons next rest => rw [walk, walk, here, later]

/-- A route ends under the path it starts from when it takes nothing of it away, or goes down
again by the same segments. -/
theorem prefix_ends_iff (route : Route Item) :
    path <+: route.ends written path ↔ path.rtake route.up <+: route.down.map written := by
  have whole : path.rdrop route.up ++ path.rtake route.up = path := List.take_append_drop _ path
  rw [ends]
  nth_rewrite 1 [← whole]
  exact List.prefix_append_right_inj _

end

end Route

end SpecialUrl

/-! ### URLs -/

/-- A URL of `http` or `https`, as far as it is set here. -/
structure SpecialUrl where
  scheme : JsString
  host : JsString
  path : List JsString
  searchParams : List (JsString × JsString)
  filled : path ≠ []
  normal : ∀ segment ∈ path, SpecialUrl.IsSegment segment

namespace SpecialUrl

open UriEncoding (percentEncode)

/-- The segments, each behind a slash. -/
def joined (path : List JsString) : JsString := path.flatMap fun segment => 0x2F :: segment

def pathname (url : SpecialUrl) : JsString := joined url.path

def setPathname (url : SpecialUrl) (text : JsString) : SpecialUrl :=
  { url with
    path := parsePath text
    filled := by
      obtain ⟨behind, same⟩ := parsePath_eq text
      rw [same]
      exact walk_ne_nil (segmentsOf_ne_nil behind)
    normal := by
      obtain ⟨behind, same⟩ := parsePath_eq text
      rw [same]
      exact isSegment_walk (fun _ isIn => nomatch isIn) fun _ isIn =>
        keepsInPath_of_segmentsOf isIn }

/-! ### A path that is set behind another -/

theorem isSlash_of_keeps {unit : UInt16} (kept : keepsInPath unit = true) :
    isSlash unit = false := by
  rw [← Bool.not_eq_true]
  intro slash
  rw [isSlash, Bool.or_eq_true, decide_eq_true_eq, decide_eq_true_eq] at slash
  rcases slash with same | same
  · rw [same] at kept
    exact absurd kept (by decide)
  · rw [same] at kept
    exact absurd kept (by decide)

theorem isParsed_of_keeps {unit : UInt16} (kept : keepsInPath unit = true) :
    isParsed unit = true := by
  rw [isParsed, Bool.not_eq_true', ← Bool.not_eq_true, List.contains_iff_mem]
  intro isIn
  simp only [List.mem_cons, List.not_mem_nil, or_false] at isIn
  rcases isIn with same | same | same
  · rw [same] at kept
    exact absurd kept (by decide)
  · rw [same] at kept
    exact absurd kept (by decide)
  · rw [same] at kept
    exact absurd kept (by decide)

theorem isAscii_of_keeps {unit : UInt16} (kept : keepsInPath unit = true) : unit < 0x80 := by
  rw [keepsInPath, Bool.and_eq_true, Bool.and_eq_true, decide_eq_true_eq, decide_eq_true_eq] at kept
  exact UInt16.lt_of_le_of_lt kept.1.2 (by decide)

theorem percentEncode_segment {segment : JsString} (normal : IsSegment segment) :
    percentEncode keepsInPath segment = segment :=
  UriEncoding.percentEncode_of_keeps fun unit isIn =>
    ⟨isAscii_of_keeps (normal.units unit isIn), normal.units unit isIn⟩

theorem segmentsOf_cons {segment rest : JsString} (normal : IsSegment segment) :
    segmentsOf (segment ++ 0x2F :: rest) = segment :: segmentsOf rest := by
  unfold segmentsOf
  have parsed : segment.filter isParsed = segment :=
    List.filter_eq_self.mpr fun unit isIn => isParsed_of_keeps (normal.units unit isIn)
  have solid : ∀ unit ∈ segment, isSlash unit = false :=
    fun unit isIn => isSlash_of_keeps (normal.units unit isIn)
  rw [List.filter_append, parsed, List.filter_cons_of_pos (by decide),
    List.splitOnP_append_cons_of_forall_mem solid 0x2F (by decide), List.map_cons,
    percentEncode_segment normal]

/-- What is set behind segments of a path is walked on from them. -/
theorem parsePath_joined {path : List JsString} (normal : ∀ segment ∈ path, IsSegment segment)
    (rest : JsString) :
    parsePath (joined path ++ 0x2F :: rest) = walk path (segmentsOf rest) := by
  have walked (front : List JsString) (normal : ∀ segment ∈ front, IsSegment segment) :
      ∀ path, walk path (front ++ segmentsOf rest) = walk (path ++ front) (segmentsOf rest) := by
    induction front with
    | nil => exact fun path => by rw [List.nil_append, List.append_nil]
    | cons segment front ih =>
        intro path
        have here := normal segment List.mem_cons_self
        obtain ⟨next, others, same⟩ := List.exists_cons_of_ne_nil
          (show front ++ segmentsOf rest ≠ [] from
            fun none => segmentsOf_ne_nil rest (List.append_eq_nil_iff.mp none).2)
        have closed : close path segment false = path ++ [segment] := by
          rw [close, here.double, here.single]
          rfl
        rw [List.cons_append, same, walk, closed, ← same,
          ih (fun held isIn => normal held (List.mem_cons_of_mem _ isIn)), List.append_assoc,
          List.singleton_append]
  have split (front : List JsString) (normal : ∀ segment ∈ front, IsSegment segment) :
      ∃ behind, joined front ++ 0x2F :: rest = 0x2F :: behind ∧
        segmentsOf behind = front ++ segmentsOf rest := by
    induction front with
    | nil => exact ⟨rest, rfl, rfl⟩
    | cons segment front ih =>
        obtain ⟨behind, same, segments⟩ :=
          ih fun held isIn => normal held (List.mem_cons_of_mem _ isIn)
        refine ⟨segment ++ 0x2F :: behind, ?_, ?_⟩
        · rw [joined, List.flatMap_cons, List.append_assoc, ← joined, same, List.cons_append]
        · rw [segmentsOf_cons (normal segment List.mem_cons_self), segments, List.cons_append]
  obtain ⟨behind, same, segments⟩ := split path normal
  have parsed (text : JsString) : segmentsOf (text.filter isParsed) = segmentsOf text := by
    unfold segmentsOf
    rw [List.filter_filter]
    simp only [Bool.and_self]
  rw [same, parsePath, List.filter_cons_of_pos (by decide)]
  simp only
  rw [if_pos (by decide), parsed, segments]
  exact walked path normal []

/-- A pathname without its trailing slashes is made of the segments before the empty ones at
its end. -/
theorem rdropWhile_joined {path : List JsString}
    (normal : ∀ segment ∈ path, IsSegment segment) :
    (joined path).rdropWhile (fun unit => unit == 0x2F) =
      joined (path.rdropWhile fun segment => segment.isEmpty) := by
  induction path using List.reverseRecOn with
  | nil => rfl
  | append_singleton path segment ih =>
      have here := normal segment (List.mem_append_right _ List.mem_cons_self)
      have behind : joined (path ++ [segment]) = joined path ++ 0x2F :: segment := by
        rw [joined, List.flatMap_append, List.flatMap_singleton, ← joined]
      rw [behind]
      rcases List.eq_nil_or_concat' segment with empty | ⟨front, last, whole⟩
      · rw [empty, List.rdropWhile_concat_pos _ _ _ (by decide),
          List.rdropWhile_concat_pos _ _ _ (by decide)]
        exact ih fun held isIn => normal held (List.mem_append_left _ isIn)
      · have notSlash : ¬(last == 0x2F) = true := by
          intro slash
          have kept := here.units last (whole ▸ List.mem_append_right _ List.mem_cons_self)
          rw [beq_iff_eq.mp slash] at kept
          exact absurd kept (by decide)
        rw [whole, ← List.cons_append, ← List.append_assoc,
          List.rdropWhile_concat_neg (fun unit => unit == 0x2F) _ _ notSlash,
          List.rdropWhile_concat_neg]
        · rw [List.append_assoc, List.cons_append, ← whole, behind]
        · simp

end SpecialUrl
