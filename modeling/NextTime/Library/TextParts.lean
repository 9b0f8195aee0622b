import NextTime.Library.JsString
import Mathlib.Data.List.Chain
import Mathlib.Data.List.Forall2

/-
Texts cut into parts at a separator, the parts read one by one. Nothing here names a
particular program.
-/

namespace JsString

def endsWith (text suffix : JsString) : Bool := suffix.isSuffixOf text

/-- Parts are read together exactly when each of them is. -/
theorem mapM_eq_some_iff {Part Value : Type} {read : Part → Option Value} {parts : List Part}
    {values : List Value} :
    parts.mapM read = some values ↔
      List.Forall₂ (fun part value => read part = some value) parts values := by
  induction parts generalizing values with
  | nil =>
      constructor
      · intro nothing
        cases nothing
        exact .nil
      · intro nothing
        cases nothing
        rfl
  | cons part rest ih =>
      rw [List.mapM_cons]
      constructor
      · intro together
        obtain ⟨value, first, others⟩ := Option.bind_eq_some_iff.mp together
        obtain ⟨more, readMore, same⟩ := Option.bind_eq_some_iff.mp others
        cases same
        exact .cons first (ih.mp readMore)
      · intro each
        cases each with
        | cons first others =>
            rw [first, ih.mpr others]
            rfl

/-- Parts read one by one are as many as what they are read as. -/
theorem length_eq_of_mapM {Part Value : Type} {read : Part → Option Value} {parts : List Part}
    {values : List Value} (together : parts.mapM read = some values) :
    values.length = parts.length :=
  (mapM_eq_some_iff.mp together).length_eq.symm

/-- The last of the parts is read as the last of the values. -/
theorem forall₂_concat_left {Part Value : Type} {Reads : Part → Value → Prop}
    {leading : List Part} {last : Part} {values : List Value}
    (each : List.Forall₂ Reads (leading ++ [last]) values) :
    ∃ before value, values = before ++ [value] ∧ List.Forall₂ Reads leading before ∧
      Reads last value := by
  induction leading generalizing values with
  | nil =>
      cases each with
      | cons readLast nothing =>
          cases nothing
          exact ⟨[], _, rfl, .nil, readLast⟩
  | cons part rest ih =>
      cases each with
      | @cons _ value _ values readPart others =>
          obtain ⟨before, final, rfl, readRest, readLast⟩ := ih others
          exact ⟨value :: before, final, rfl, .cons readPart readRest, readLast⟩

/-- A part holds no separator, and is of the items. -/
theorem splitOnP_part {Item : Type} {separates : Item → Bool} {items part : List Item}
    (isPart : part ∈ items.splitOnP separates) :
    (∀ item ∈ part, separates item = false) ∧ part ⊆ items := by
  induction items generalizing part with
  | nil =>
      rw [List.mem_singleton.mp isPart]
      exact ⟨fun _ isIn => (nomatch isIn), List.nil_subset _⟩
  | cons item items ih =>
      rw [List.splitOnP_cons_eq_if_modifyHead] at isPart
      by_cases cuts : separates item = true
      · rw [if_pos cuts] at isPart
        rcases List.mem_cons.mp isPart with empty | later
        · rw [empty]
          exact ⟨fun _ isIn => (nomatch isIn), List.nil_subset _⟩
        · exact ⟨(ih later).1, List.subset_cons_of_subset item (ih later).2⟩
      · rw [if_neg cuts] at isPart
        obtain ⟨first, rest, whole⟩ :=
          List.exists_cons_of_ne_nil (List.splitOnP_ne_nil separates items)
        rw [whole, List.modifyHead_cons] at isPart
        rcases List.mem_cons.mp isPart with isFirst | isRest
        · obtain ⟨solid, among⟩ := ih (whole ▸ List.mem_cons_self)
          rw [isFirst, List.forall_mem_cons]
          exact ⟨⟨Bool.eq_false_iff.mpr cuts, solid⟩, List.cons_subset_cons item among⟩
        · obtain ⟨solid, among⟩ := ih (whole ▸ List.mem_cons_of_mem _ isRest)
          exact ⟨solid, List.subset_cons_of_subset item among⟩

theorem splitOnP_congr {Item : Type} {separates cuts : Item → Bool} {items : List Item}
    (same : ∀ item ∈ items, separates item = cuts item) :
    items.splitOnP separates = items.splitOnP cuts := by
  induction items with
  | nil => rfl
  | cons item items ih =>
      rw [List.forall_mem_cons] at same
      rw [List.splitOnP_cons_eq_if_modifyHead, List.splitOnP_cons_eq_if_modifyHead, same.1,
        ih same.2]

theorem splitOn_part {Item : Type} [DecidableEq Item] {separator : Item} {items part : List Item}
    (isPart : part ∈ items.splitOn separator) : separator ∉ part ∧ part ⊆ items := by
  rw [List.splitOn_eq_splitOnP] at isPart
  obtain ⟨solid, among⟩ := splitOnP_part isPart
  exact ⟨fun isIn => beq_eq_false_iff_ne.mp (solid separator isIn) rfl, among⟩

/-- What stands in front without a separator belongs to the first part. -/
theorem splitOnP_append_of_forall {Item : Type} {separates : Item → Bool} {front : List Item}
    (solid : ∀ item ∈ front, separates item = false) (items : List Item) :
    (front ++ items).splitOnP separates = (items.splitOnP separates).modifyHead (front ++ ·) := by
  induction front with
  | nil =>
      rw [List.nil_append]
      cases items.splitOnP separates with
      | nil => rfl
      | cons => rfl
  | cons item front ih =>
      rw [List.forall_mem_cons] at solid
      rw [List.cons_append, List.splitOnP_cons_eq_if_modifyHead,
        if_neg (Bool.eq_false_iff.mp solid.1), ih solid.2, List.modifyHead_modifyHead]
      rfl

theorem splitOn_append_of_not_mem {separator : UInt16} {front : JsString}
    (solid : separator ∉ front) (text : JsString) :
    (front ++ text).splitOn separator = (text.splitOn separator).modifyHead (front ++ ·) := by
  rw [List.splitOn_eq_splitOnP, List.splitOn_eq_splitOnP]
  apply splitOnP_append_of_forall
  intro unit isIn
  rw [beq_eq_false_iff_ne]
  exact fun same => solid (same ▸ isIn)

/-- There is one part more than there are separators. -/
theorem length_splitOn (separator : UInt16) (text : JsString) :
    (text.splitOn separator).length = text.count separator + 1 := by
  induction text with
  | nil => rfl
  | cons unit rest ih =>
      rw [List.splitOn_cons_eq_if_modifyHead, List.count_cons]
      by_cases same : (unit == separator) = true
      · rw [if_pos same, if_pos same, List.length_cons, ih]
      · rw [if_neg same, if_neg same, List.length_modifyHead, ih]

theorem mem_intercalate {separator unit : UInt16} {parts : List JsString}
    (member : unit ∈ [separator].intercalate parts) :
    unit = separator ∨ ∃ part ∈ parts, unit ∈ part := by
  induction parts with
  | nil => contradiction
  | cons part rest ih =>
      cases rest with
      | nil =>
          rw [List.intercalate_singleton] at member
          exact .inr ⟨part, List.mem_cons_self, member⟩
      | cons next others =>
          rw [List.intercalate_cons_cons, List.append_assoc, List.mem_append,
            List.singleton_append, List.mem_cons] at member
          rcases member with inPart | same | inRest
          · exact .inr ⟨part, List.mem_cons_self, inPart⟩
          · exact .inl same
          · rcases ih inRest with same | ⟨found, inOthers, inFound⟩
            · exact .inl same
            · exact .inr ⟨found, List.mem_cons_of_mem part inOthers, inFound⟩

/-! ### Cutting at a doubled separator -/

/-- `split` at the separator standing twice in a row. -/
def splitOnPair (separator : UInt16) : JsString → List JsString
  | first :: second :: rest =>
      if first = separator ∧ second = separator then [] :: splitOnPair separator rest
      else (splitOnPair separator (second :: rest)).modifyHead (first :: ·)
  | text => [text]

theorem splitOnPair_ne_nil (separator : UInt16) (text : JsString) :
    splitOnPair separator text ≠ [] := by
  fun_induction splitOnPair separator text with
  | case1 => simp
  | case2 first second rest other ih =>
      cases cut : splitOnPair separator (second :: rest) with
      | nil => exact absurd cut ih
      | cons => simp
  | case3 => simp

theorem intercalate_splitOnPair (separator : UInt16) (text : JsString) :
    [separator, separator].intercalate (splitOnPair separator text) = text := by
  fun_induction splitOnPair separator text with
  | case1 first second rest both ih =>
      rw [List.intercalate_cons_of_ne_nil (splitOnPair_ne_nil _ _), ih, both.1, both.2]
      rfl
  | case2 first second rest other ih =>
      cases cut : splitOnPair separator (second :: rest) with
      | nil => exact absurd cut (splitOnPair_ne_nil _ _)
      | cons part parts =>
          rw [cut] at ih
          cases parts with
          | nil => simp_all
          | cons => simp_all
  | case3 => simp

/-- No two separators in a row, and none at the end. -/
structure Single (separator : UInt16) (text : JsString) : Prop where
  chain : text.IsChain fun first second => ¬(first = separator ∧ second = separator)
  last : text.getLast? ≠ some separator

theorem Single.tail {separator first : UInt16} {rest : JsString}
    (single : Single separator (first :: rest)) : Single separator rest where
  chain := List.IsChain.tail single.chain
  last := by
    intro ends
    cases rest with
    | nil => contradiction
    | cons second more => exact single.last (by rw [List.getLast?_cons_cons, ends])

/-- A text of single separators is the first part of what stands before a doubled one. -/
theorem splitOnPair_append {separator : UInt16} {text : JsString}
    (single : Single separator text) (rest : JsString) :
    splitOnPair separator (text ++ separator :: separator :: rest) =
      text :: splitOnPair separator rest := by
  induction text with
  | nil => simp [splitOnPair]
  | cons first more ih =>
      have cut := ih single.tail
      cases more with
      | nil =>
          have other : ¬(first = separator ∧ separator = separator) := by
            rintro ⟨rfl, _⟩
            exact single.last rfl
          simp only [List.cons_append, List.nil_append] at cut ⊢
          rw [splitOnPair, if_neg other, cut]
          rfl
      | cons second others =>
          have apart := (List.isChain_cons_cons.mp single.chain).1
          simp only [List.cons_append] at cut ⊢
          rw [splitOnPair, if_neg apart, cut]
          rfl

theorem splitOnPair_single {separator : UInt16} {text : JsString}
    (single : Single separator text) : splitOnPair separator text = [text] := by
  induction text with
  | nil => rfl
  | cons first more ih =>
      have cut := ih single.tail
      cases more with
      | nil => rfl
      | cons second others =>
          have apart := (List.isChain_cons_cons.mp single.chain).1
          rw [splitOnPair, if_neg apart, cut]
          rfl

theorem single_of_not_mem {separator : UInt16} {text : JsString} (solid : separator ∉ text) :
    Single separator text where
  chain := by
    induction text with
    | nil => exact .nil
    | cons first rest ih =>
        simp only [List.mem_cons, not_or] at solid
        cases rest with
        | nil => exact .singleton first
        | cons second more =>
            apply List.IsChain.cons_cons
            · rintro ⟨same, _⟩
              exact solid.1 same.symm
            · exact ih solid.2
  last := fun ends => solid (List.mem_of_getLast? ends)

theorem single_append {separator : UInt16} {front text : JsString}
    (solid : separator ∉ front) (single : Single separator text) (some : text ≠ [])
    (leads : text.head? ≠ .some separator) : Single separator (front ++ separator :: text) where
  chain := by
    rw [List.isChain_split]
    constructor
    · rw [List.isChain_append]
      constructor
      · exact (single_of_not_mem solid).chain
      · constructor
        · exact .singleton separator
        · rintro unit ends _ _ ⟨rfl, _⟩
          exact solid (List.mem_of_getLast? ends)
    · cases text with
      | nil => contradiction
      | cons first rest =>
          apply List.IsChain.cons_cons
          · rintro ⟨_, rfl⟩
            exact leads rfl
          · exact single.chain
  last := by
    rw [List.getLast?_append_cons, List.getLast?_cons_of_ne_nil some]
    exact single.last

/-- Parts of which none is empty leave single separators between them. -/
theorem single_intercalate {separator : UInt16} {parts : List JsString}
    (solid : ∀ part ∈ parts, part ≠ [] ∧ separator ∉ part) :
    Single separator ([separator].intercalate parts) := by
  induction parts with
  | nil => exact single_of_not_mem List.not_mem_nil
  | cons part rest ih =>
      rw [List.forall_mem_cons] at solid
      have inner := ih solid.2
      cases rest with
      | nil =>
          rw [List.intercalate_singleton]
          exact single_of_not_mem solid.1.2
      | cons next others =>
          have nextSolid := (List.forall_mem_cons.mp solid.2).1
          cases next with
          | nil => exact absurd rfl nextSolid.1
          | cons first more =>
              have begins : ∃ behind, [separator].intercalate ((first :: more) :: others) =
                  first :: behind := by
                cases others with
                | nil => exact ⟨more, by simp⟩
                | cons => exact ⟨_, by rw [List.intercalate_cons_cons]; rfl⟩
              obtain ⟨behind, same⟩ := begins
              rw [List.intercalate_cons_cons, List.append_assoc]
              rw [same] at inner ⊢
              apply single_append solid.1.2 inner
              · simp
              · rintro same
                exact nextSolid.2 (by simp [Option.some.inj same])

end JsString
