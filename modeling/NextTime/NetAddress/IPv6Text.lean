import NextTime.NetAddress.IPv4Literal

/-
IPv6 addresses as texts: the parser, the text grammar of an address, and the texts the
parser takes that are none.
-/

namespace NextTime.NetAddress

open JsString

def colon : UInt16 := 0x3A

def percent : UInt16 := 0x25

/-! ### The parser -/

def beforeZone (input : JsString) : JsString := input.takeWhile (· != percent)

/-- Three dots between parts of one to three decimal digits. -/
def isQuadText (text : JsString) : Bool :=
  (text.splitOn dot).length == 4 && (text.splitOn dot).all isQuadPart

/-- The leftmost match of a dotted quad at the end of a text, and what is before it. -/
def embedded : JsString → Option (JsString × JsString)
  | [] => none
  | unit :: rest =>
      if isQuadText (unit :: rest) then some ([], unit :: rest)
      else (embedded rest).map fun (before, quad) => (unit :: before, quad)

def Octets.groups (octets : Octets) : List Nat :=
  [octets.first * 256 + octets.second, octets.third * 256 + octets.fourth]

/-- One colon at the end is the quad's separator, and two are the compression. -/
def dropSeparator (before : JsString) : JsString :=
  if endsWith before [colon] && !endsWith before [colon, colon] then before.dropLast
  else before

def isGroup (group : JsString) : Bool :=
  1 ≤ group.length && group.length ≤ 4 && group.all isHexadecimal

def parseGroup (group : JsString) : Option Nat :=
  if isGroup group then some (parseInt 16 group) else none

def parseGroups (side : JsString) : Option (List Nat) :=
  if side.isEmpty then some [] else (side.splitOn colon).mapM parseGroup

/-- The groups on the sides of `::`, and the two of a dotted quad behind them. -/
def parseSides (head : JsString) (v4Tail : List Nat) : Option (List Nat) :=
  match splitOnPair colon head with
  | [side] => do
      let groups ← parseGroups side
      if (groups ++ v4Tail).length = 8 then some (groups ++ v4Tail) else none
  | [before, behind] => do
      let headGroups ← parseGroups before
      let tailGroups ← parseGroups behind
      let combinedTail := tailGroups ++ v4Tail
      if 8 < headGroups.length + combinedTail.length then none
      else some (headGroups ++
        List.replicate (8 - headGroups.length - combinedTail.length) 0 ++ combinedTail)
  | _ => none

def parseIPv6 (input : JsString) : Option (List Nat) :=
  let withoutZone := beforeZone input
  match embedded withoutZone with
  | none => parseSides withoutZone []
  | some (before, quad) =>
      match parseIPv4 quad with
      | none => none
      | some v4 => parseSides (dropSeparator before) v4.groups

/-! ### The text grammar -/

/-- One to four hexadecimal digits. -/
inductive Group : JsString → Nat → Prop
  | digits {text : JsString} (some : 1 ≤ text.length) (few : text.length ≤ 4)
      (all : ∀ unit ∈ text, isHexadecimal unit = true) : Group text (parseInt 16 text)

/-- Groups with single colons between them. -/
inductive Groups : JsString → List Nat → Prop
  | separated {parts : List JsString} {groups : List Nat}
      (each : List.Forall₂ Group parts groups) : Groups ([colon].intercalate parts) groups

/-- The decimal value of a byte, in one to three digits. -/
def DecimalByte (part : JsString) (byte : Fin 256) : Prop :=
  isQuadPart part = true ∧ parseInt 10 part = byte

inductive DottedQuad : JsString → Octets → Prop
  | bytes {a b c d : JsString} {octets : Octets} (first : DecimalByte a octets.first)
      (second : DecimalByte b octets.second) (third : DecimalByte c octets.third)
      (fourth : DecimalByte d octets.fourth) :
      DottedQuad (a ++ dot :: (b ++ dot :: (c ++ dot :: d))) octets

/-- How an address ends: in groups, in a dotted quad, or in groups and a quad behind a
colon. -/
inductive Ending : JsString → List Nat → Prop
  | groups {text : JsString} {groups : List Nat} (plain : Groups text groups) :
      Ending text groups
  | quad {quad : JsString} {octets : Octets} (dotted : DottedQuad quad octets) :
      Ending quad octets.groups
  | groupsAndQuad {text quad : JsString} {groups : List Nat} {octets : Octets}
      (plain : Groups text groups) (some : groups ≠ []) (dotted : DottedQuad quad octets) :
      Ending (text ++ colon :: quad) (groups ++ octets.groups)

/-- An address in full, or with one `::` that stands for a zero group at least. -/
inductive Ipv6Text : JsString → List Nat → Prop
  | full {text : JsString} {groups : List Nat} (ending : Ending text groups)
      (eight : groups.length = 8) : Ipv6Text text groups
  | compressed {before behind : JsString} {left right : List Nat} (front : Groups before left)
      (ending : Ending behind right) (few : left.length + right.length ≤ 7) :
      Ipv6Text (before ++ colon :: colon :: behind)
        (left ++ List.replicate (8 - left.length - right.length) 0 ++ right)

/-! ### Texts that are taken for addresses -/

/-- The text before a quad cannot give it a digit more. -/
def Longest (before quad : JsString) : Prop :=
  before.getLast?.any isDecimal = true → (quad.takeWhile (· != dot)).length = 3

/-- A dotted quad with no colon before it, the text before it taken as long as it can be. -/
inductive Glued : JsString → List Nat → Prop
  | quad {text quad : JsString} {groups : List Nat} {octets : Octets} (plain : Groups text groups)
      (some : groups ≠ []) (dotted : DottedQuad quad octets)
      (longest : Longest text quad) :
      Glued (text ++ quad) (groups ++ octets.groups)

/-- A `::` with eight groups beside it, or a dotted quad glued to the group before it. -/
inductive Misread : JsString → Prop
  | idle {before behind : JsString} {left right : List Nat} (front : Groups before left)
      (ending : Ending behind right) (eight : left.length + right.length = 8) :
      Misread (before ++ colon :: colon :: behind)
  | gluedFull {text : JsString} {groups : List Nat} (glued : Glued text groups)
      (eight : groups.length = 8) : Misread text
  | gluedCompressed {before behind : JsString} {left right : List Nat}
      (front : Groups before left) (glued : Glued behind right)
      (few : left.length + right.length ≤ 8) : Misread (before ++ colon :: colon :: behind)

/-! ### Groups -/

theorem isGroup_iff {group : JsString} :
    isGroup group = true ↔
      1 ≤ group.length ∧ group.length ≤ 4 ∧ ∀ unit ∈ group, isHexadecimal unit = true := by
  simp [isGroup, and_assoc]

theorem parseGroup_iff {group : JsString} {value : Nat} :
    parseGroup group = some value ↔ Group group value := by
  constructor
  · intro read
    rw [parseGroup] at read
    by_cases digits : isGroup group = true
    · rw [if_pos digits] at read
      cases read
      obtain ⟨some, few, all⟩ := isGroup_iff.mp digits
      exact .digits some few all
    · rw [if_neg digits] at read
      contradiction
  · intro reads
    cases reads with
    | digits some few all => rw [parseGroup, if_pos (isGroup_iff.mpr ⟨some, few, all⟩)]

theorem Group.not_mem {group : JsString} {value : Nat} (reads : Group group value)
    {unit : UInt16} (other : isHexadecimal unit = false) : unit ∉ group := by
  intro member
  cases reads with
  | digits _ _ all =>
      rw [all unit member] at other
      contradiction

theorem Group.ne_nil {group : JsString} {value : Nat} (reads : Group group value) :
    group ≠ [] := by
  rintro rfl
  cases reads with
  | digits some => contradiction

theorem group_of_mem {parts : List JsString} {groups : List Nat}
    (each : List.Forall₂ Group parts groups) : ∀ part ∈ parts, ∃ value, Group part value := by
  induction each with
  | nil => simp
  | cons reads _ ih =>
      rw [List.forall_mem_cons]
      exact ⟨⟨_, reads⟩, ih⟩

theorem solid_parts {parts : List JsString} {groups : List Nat}
    (each : List.Forall₂ Group parts groups) : ∀ part ∈ parts, part ≠ [] ∧ colon ∉ part := by
  intro part member
  obtain ⟨value, reads⟩ := group_of_mem each part member
  exact ⟨reads.ne_nil, reads.not_mem rfl⟩

theorem Groups.single {text : JsString} {groups : List Nat} (plain : Groups text groups) :
    Single colon text := by
  cases plain with
  | separated each => exact single_intercalate (solid_parts each)

theorem Groups.nil : Groups [] [] := .separated .nil

theorem Groups.eq_nil_iff {text : JsString} {groups : List Nat} (plain : Groups text groups) :
    text = [] ↔ groups = [] := by
  cases plain with
  | separated each =>
      cases each with
      | nil => simp
      | @cons part _ parts _ reads others =>
          cases part with
          | nil => exact absurd rfl reads.ne_nil
          | cons first more => simp [List.intercalate_cons_cons_left]

theorem Groups.no_dot {text : JsString} {groups : List Nat} (plain : Groups text groups) :
    dot ∉ text := by
  intro member
  cases plain with
  | separated each =>
      rcases mem_intercalate member with isColon | ⟨part, inParts, inPart⟩
      · contradiction
      · obtain ⟨value, reads⟩ := group_of_mem each part inParts
        exact reads.not_mem rfl inPart

/-- A side is read as the groups between its colons. -/
theorem parseGroups_iff {side : JsString} {groups : List Nat} :
    parseGroups side = some groups ↔ Groups side groups := by
  constructor
  · intro read
    rw [parseGroups] at read
    by_cases empty : side.isEmpty = true
    · rw [if_pos empty] at read
      cases read
      rw [List.isEmpty_iff.mp empty]
      exact .nil
    · rw [if_neg empty] at read
      have joined : [colon].intercalate (side.splitOn colon) = side :=
        List.intercalate_splitOn colon
      rw [← joined]
      exact .separated ((mapM_eq_some_iff.mp read).imp fun _ _ => parseGroup_iff.mp)
  · intro plain
    by_cases empty : side = []
    · rw [plain.eq_nil_iff.mp empty, empty]
      rfl
    · rw [parseGroups, if_neg (by simpa using empty)]
      cases plain with
      | @separated parts _ each =>
          have some : parts ≠ [] := by
            rintro rfl
            exact empty rfl
          have solid := solid_parts each
          rw [List.splitOn_intercalate colon (fun part member => (solid part member).2) some]
          exact mapM_eq_some_iff.mpr (each.imp fun _ _ => parseGroup_iff.mpr)

/-! ### The sides of a compression -/

theorem parseSides_full {text : JsString} {groups : List Nat} (plain : Groups text groups)
    (v4Tail : List Nat) :
    parseSides text v4Tail =
      if (groups ++ v4Tail).length = 8 then some (groups ++ v4Tail) else none := by
  rw [parseSides, splitOnPair_single plain.single]
  simp only [parseGroups_iff.mpr plain]
  rfl

theorem splitOnPair_groups {before behind : JsString} {left right : List Nat}
    (front : Groups before left) (back : Groups behind right) :
    splitOnPair colon (before ++ colon :: colon :: behind) = [before, behind] := by
  rw [splitOnPair_append front.single, splitOnPair_single back.single]

theorem parseSides_compressed {before behind : JsString} {left right : List Nat}
    (front : Groups before left) (back : Groups behind right) (v4Tail : List Nat) :
    parseSides (before ++ colon :: colon :: behind) v4Tail =
      if 8 < left.length + (right ++ v4Tail).length then none
      else some (left ++ List.replicate (8 - left.length - (right ++ v4Tail).length) 0 ++
        (right ++ v4Tail)) := by
  rw [parseSides, splitOnPair_groups front back]
  simp only [parseGroups_iff.mpr front, parseGroups_iff.mpr back]
  rfl

/-- What is read is in full, or has one compression. -/
theorem parseSides_some {head : JsString} {v4Tail groups : List Nat}
    (read : parseSides head v4Tail = some groups) :
    (∃ side, Groups head side ∧ groups = side ++ v4Tail ∧ groups.length = 8) ∨
      ∃ before behind left right, head = before ++ colon :: colon :: behind ∧
        Groups before left ∧ Groups behind right ∧
          left.length + (right ++ v4Tail).length ≤ 8 ∧
            groups = left ++ List.replicate (8 - left.length - (right ++ v4Tail).length) 0 ++
              (right ++ v4Tail) := by
  have joined := intercalate_splitOnPair colon head
  rw [parseSides] at read
  split at read
  next side cut =>
    left
    rw [cut, List.intercalate_singleton] at joined
    obtain ⟨parsed, readSide, rest⟩ := Option.bind_eq_some_iff.mp read
    by_cases eight : (parsed ++ v4Tail).length = 8
    · rw [if_pos eight] at rest
      cases rest
      exact ⟨parsed, joined ▸ parseGroups_iff.mp readSide, rfl, eight⟩
    · rw [if_neg eight] at rest
      contradiction
  next before behind cut =>
    right
    rw [cut] at joined
    obtain ⟨left, readLeft, rest⟩ := Option.bind_eq_some_iff.mp read
    obtain ⟨right, readRight, rest⟩ := Option.bind_eq_some_iff.mp rest
    by_cases many : 8 < left.length + (right ++ v4Tail).length
    · rw [if_pos many] at rest
      contradiction
    · rw [if_neg many] at rest
      refine ⟨before, behind, left, right, ?_, parseGroups_iff.mp readLeft,
        parseGroups_iff.mp readRight, by omega, (Option.some.inj rest).symm⟩
      rw [← joined]
      simp
  next => contradiction

/-! ### The quad at the end -/

theorem DecimalByte.no_dot {part : JsString} {byte : Fin 256} (reads : DecimalByte part byte) :
    dot ∉ part := by
  intro member
  have decimal := (isQuadPart_iff.mp reads.1).2.2 dot member
  contradiction

theorem DottedQuad.splitOn {a b c d : JsString} {first second third fourth : Fin 256}
    (readA : DecimalByte a first) (readB : DecimalByte b second) (readC : DecimalByte c third)
    (readD : DecimalByte d fourth) :
    (a ++ dot :: (b ++ dot :: (c ++ dot :: d))).splitOn dot = [a, b, c, d] := by
  rw [List.splitOn_append_cons_self_of_not_mem readA.no_dot,
    List.splitOn_append_cons_self_of_not_mem readB.no_dot,
    List.splitOn_append_cons_self_of_not_mem readC.no_dot,
    List.splitOn_eq_singleton readD.no_dot]

/-- The strict parser reads the dotted quads. -/
theorem parseIPv4_dottedQuad_iff {quad : JsString} {octets : Octets} :
    parseIPv4 quad = some octets ↔ DottedQuad quad octets := by
  rw [parseIPv4_iff]
  constructor
  · intro each
    have joined : [dot].intercalate (quad.splitOn dot) = quad := List.intercalate_splitOn dot
    match split : quad.splitOn dot, each.length_eq with
    | [a, b, c, d], _ =>
        rw [split, Octets.bytes] at each
        simp only [List.forall₂_cons] at each
        obtain ⟨readA, readB, readC, readD, _⟩ := each
        rw [split] at joined
        rw [← joined]
        simpa using DottedQuad.bytes readA readB readC readD
  · intro dotted
    cases dotted with
    | bytes readA readB readC readD =>
        rw [DottedQuad.splitOn readA readB readC readD]
        exact .cons readA (.cons readB (.cons readC (.cons readD .nil)))

theorem isQuadText_iff {text : JsString} :
    isQuadText text = true ↔ ∃ a b c d, text.splitOn dot = [a, b, c, d] ∧
      isQuadPart a = true ∧ isQuadPart b = true ∧ isQuadPart c = true ∧ isQuadPart d = true := by
  rw [isQuadText, Bool.and_eq_true, beq_iff_eq]
  constructor
  · rintro ⟨four, all⟩
    match split : text.splitOn dot, four with
    | [a, b, c, d], _ =>
        rw [split] at all
        simp only [List.all_cons, List.all_nil, Bool.and_eq_true, and_true] at all
        exact ⟨a, b, c, d, rfl, all⟩
  · rintro ⟨a, b, c, d, split, all⟩
    rw [split]
    simpa using all

theorem DottedQuad.isQuadText {quad : JsString} {octets : Octets}
    (dotted : DottedQuad quad octets) : isQuadText quad = true := by
  cases dotted with
  | bytes readA readB readC readD =>
      rw [isQuadText_iff]
      exact ⟨_, _, _, _, DottedQuad.splitOn readA readB readC readD, readA.1, readB.1, readC.1,
        readD.1⟩

theorem takeWhile_eq_head {text part : JsString} {parts : List JsString}
    (split : text.splitOn dot = part :: parts) : text.takeWhile (· != dot) = part := by
  induction text generalizing part with
  | nil =>
      cases split
      rfl
  | cons unit rest ih =>
      rw [List.splitOn_cons_eq_if_modifyHead] at split
      by_cases same : (unit == dot) = true
      · rw [if_pos same] at split
        cases split
        rw [List.takeWhile_cons_of_neg (by simpa using same)]
      · rw [if_neg same] at split
        cases inner : rest.splitOn dot with
        | nil => exact absurd inner (List.splitOn_ne_nil dot rest)
        | cons head others =>
            rw [inner] at split
            cases split
            rw [List.takeWhile_cons_of_pos (by simpa using same), ih inner]

/-- What stands before a quad and makes no longer part of it is no part of the match. -/
theorem isQuadText_append_iff {front quad : JsString} (isQuad : isQuadText quad = true) :
    isQuadText (front ++ quad) = true ↔ (∀ unit ∈ front, isDecimal unit = true) ∧
      front.length + (quad.takeWhile (· != dot)).length ≤ 3 := by
  obtain ⟨a, b, c, d, split, isA, isB, isC, isD⟩ := isQuadText_iff.mp isQuad
  rw [takeWhile_eq_head split]
  have digitsA := isQuadPart_iff.mp isA
  constructor
  · intro isLonger
    obtain ⟨a', b', c', d', split', isA', _⟩ := isQuadText_iff.mp isLonger
    have solid : dot ∉ front := by
      have quadDots := length_splitOn dot quad
      have allDots := length_splitOn dot (front ++ quad)
      rw [split'] at allDots
      rw [split] at quadDots
      rw [List.count_append] at allDots
      simp only [List.length_cons, List.length_nil] at quadDots allDots
      rw [← List.count_eq_zero]
      omega
    rw [splitOn_append_of_not_mem solid, split] at split'
    simp only [List.modifyHead_cons, List.cons.injEq] at split'
    have digits := isQuadPart_iff.mp isA'
    rw [← split'.1, List.length_append] at digits
    constructor
    · intro unit member
      exact digits.2.2 unit (List.mem_append_left a member)
    · exact digits.2.1
  · rintro ⟨decimal, few⟩
    have solid : dot ∉ front := fun member => by
      have isDigit := decimal dot member
      contradiction
    rw [isQuadText_iff]
    refine ⟨front ++ a, b, c, d, ?_, ?_, isB, isC, isD⟩
    · rw [splitOn_append_of_not_mem solid, split]
      rfl
    · rw [isQuadPart_iff, List.length_append]
      refine ⟨by omega, few, ?_⟩
      intro unit member
      cases List.mem_append.mp member with
      | inl inFront => exact decimal unit inFront
      | inr inA => exact digitsA.2.2 unit inA

theorem embedded_append {before quad : JsString} (isQuad : isQuadText quad = true)
    (longest : Longest before quad) : embedded (before ++ quad) = some (before, quad) := by
  induction before with
  | nil =>
      cases quad with
      | nil => contradiction
      | cons unit rest => rw [List.nil_append, embedded, if_pos isQuad]
  | cons unit rest ih =>
      have notQuad : ¬isQuadText (unit :: (rest ++ quad)) = true := by
        intro longer
        obtain ⟨decimal, few⟩ := (@isQuadText_append_iff (unit :: rest) quad isQuad).mp longer
        have three := longest (by
          rw [List.getLast?_eq_some_getLast (List.cons_ne_nil unit rest), Option.any_some]
          exact decimal _ (List.getLast_mem _))
        rw [List.length_cons] at few
        omega
      have shorter : Longest rest quad := by
        intro ends
        cases rest with
        | nil => contradiction
        | cons second more => exact longest (by rw [List.getLast?_cons_cons]; exact ends)
      rw [List.cons_append, embedded, if_neg notQuad, ih shorter]
      rfl

theorem embedded_no_dot {text : JsString} (solid : dot ∉ text) : embedded text = none := by
  induction text with
  | nil => rfl
  | cons unit rest ih =>
      have notQuad : ¬isQuadText (unit :: rest) = true := by
        rw [isQuadText, List.splitOn_eq_singleton solid]
        simp
      simp only [List.mem_cons, not_or] at solid
      rw [embedded, if_neg notQuad, ih solid.2]
      rfl

theorem embedded_length_le {quad : JsString} (isQuad : isQuadText quad = true)
    (before : JsString) : ∃ found, embedded (before ++ quad) = some found ∧
      found.1.length ≤ before.length := by
  induction before with
  | nil => exact ⟨_, embedded_append isQuad nofun, by simp⟩
  | cons unit rest ih =>
      rw [List.cons_append, embedded]
      by_cases longer : isQuadText (unit :: (rest ++ quad)) = true
      · rw [if_pos longer]
        exact ⟨_, rfl, by simp⟩
      · obtain ⟨found, same, few⟩ := ih
        rw [if_neg longer, same]
        exact ⟨_, rfl, by simpa using few⟩

theorem embedded_quad {text before quad : JsString}
    (found : embedded text = some (before, quad)) :
    text = before ++ quad ∧ isQuadText quad = true := by
  induction text generalizing before with
  | nil => contradiction
  | cons unit rest ih =>
      rw [embedded] at found
      by_cases isQuad : isQuadText (unit :: rest) = true
      · rw [if_pos isQuad] at found
        cases found
        exact ⟨rfl, isQuad⟩
      · rw [if_neg isQuad] at found
        obtain ⟨⟨inner, tail⟩, innerFound, same⟩ := Option.map_eq_some_iff.mp found
        cases same
        obtain ⟨split, tailQuad⟩ := ih innerFound
        exact ⟨by rw [split]; rfl, tailQuad⟩

/-- What is found is as long as it can be. -/
theorem embedded_longest {text before quad : JsString}
    (found : embedded text = some (before, quad)) : Longest before quad := by
  obtain ⟨split, isQuad⟩ := embedded_quad found
  intro ends
  by_contra short
  obtain ⟨a, b, c, d, parts, isA, _⟩ := isQuadText_iff.mp isQuad
  have digits := isQuadPart_iff.mp isA
  rw [takeWhile_eq_head parts] at short
  cases before using List.reverseRecOn with
  | nil => contradiction
  | append_singleton front unit =>
      rw [List.getLast?_concat, Option.any_some] at ends
      have longer : isQuadText ([unit] ++ quad) = true := by
        rw [isQuadText_append_iff isQuad, takeWhile_eq_head parts, List.length_singleton]
        exact ⟨List.forall_mem_singleton.mpr ends, by omega⟩
      obtain ⟨other, found', few⟩ := embedded_length_le longer front
      rw [split, List.append_assoc, found'] at found
      cases found
      rw [List.length_append, List.length_singleton] at few
      omega

/-! ### The head of the groups and the tail of a quad -/

theorem dropSeparator_other {front : JsString} {unit : UInt16} (other : unit ≠ colon) :
    dropSeparator (front ++ [unit]) = front ++ [unit] := by
  simp [dropSeparator, endsWith, List.isSuffixOf, other.symm]

theorem dropSeparator_pair (front : JsString) :
    dropSeparator (front ++ [colon, colon]) = front ++ [colon, colon] := by
  simp [dropSeparator, endsWith, List.isSuffixOf]

theorem dropSeparator_single {front : JsString} (other : front.getLast? ≠ some colon) :
    dropSeparator (front ++ [colon]) = front := by
  cases front using List.reverseRecOn with
  | nil => rfl
  | append_singleton more unit =>
      have apart : unit ≠ colon := by
        rintro rfl
        exact other List.getLast?_concat
      simp [dropSeparator, endsWith, List.isSuffixOf, apart.symm]

/-- What `parseIPv6` reads groups from, and the groups it has already. -/
def headAndTail (text : JsString) : Option (JsString × List Nat) :=
  match embedded text with
  | none => some (text, [])
  | some (before, quad) => (parseIPv4 quad).map fun v4 => (dropSeparator before, v4.groups)

theorem parseIPv6_eq (input : JsString) :
    parseIPv6 input =
      (headAndTail (beforeZone input)).bind fun cut => parseSides cut.1 cut.2 := by
  rw [parseIPv6, headAndTail]
  cases embedded (beforeZone input) with
  | none => rfl
  | some found =>
      obtain ⟨before, quad⟩ := found
      cases read : parseIPv4 quad with
      | none => simp [read]
      | some v4 => simp [read]

/-- Something other than a colon stands before the quad. -/
def gluedQuad (text : JsString) : Bool :=
  (embedded text).any fun found => !found.1.isEmpty && !endsWith found.1 [colon]

theorem headAndTail_quad {before quad : JsString} {octets : Octets}
    (dotted : DottedQuad quad octets) (longest : Longest before quad) :
    headAndTail (before ++ quad) = some (dropSeparator before, octets.groups) := by
  rw [headAndTail, embedded_append dotted.isQuadText longest]
  simp only [parseIPv4_dottedQuad_iff.mpr dotted]
  rfl

theorem gluedQuad_quad {before quad : JsString} {octets : Octets}
    (dotted : DottedQuad quad octets) (longest : Longest before quad) :
    gluedQuad (before ++ quad) = (!before.isEmpty && !endsWith before [colon]) := by
  rw [gluedQuad, embedded_append dotted.isQuadText longest]
  rfl

theorem longest_nil (quad : JsString) : Longest [] quad := nofun

theorem longest_of_colon (front quad : JsString) : Longest (front ++ [colon]) quad := by
  intro ends
  rw [List.getLast?_concat] at ends
  contradiction

/-- What may stand before the end of an address: nothing, or groups and the compression. -/
inductive Front : JsString → Prop
  | nothing : Front []
  | compression {before : JsString} {left : List Nat} (front : Groups before left) :
      Front (before ++ [colon, colon])

theorem Front.no_dot {front : JsString} (fits : Front front) : dot ∉ front := by
  cases fits with
  | nothing => simp
  | compression groups =>
      intro member
      rcases List.mem_append.mp member with inGroups | inColons
      · exact groups.no_dot inGroups
      · contradiction

/-- Behind a front, an ending is groups and the tail of a quad, and no quad is glued. -/
theorem Ending.headAndTail {front behind : JsString} {right : List Nat}
    (ending : Ending behind right) (fits : Front front) :
    ∃ head tail groups, headAndTail (front ++ behind) = some (front ++ head, tail) ∧
      Groups head groups ∧ right = groups ++ tail ∧ gluedQuad (front ++ behind) = false := by
  cases ending with
  | groups plain =>
      have none : embedded (front ++ behind) = none := by
        apply embedded_no_dot
        intro member
        rcases List.mem_append.mp member with inFront | inGroups
        · exact fits.no_dot inFront
        · exact plain.no_dot inGroups
      refine ⟨behind, [], right, ?_, plain, by simp, ?_⟩
      · rw [NetAddress.headAndTail, none]
      · rw [gluedQuad, none]
        rfl
  | @quad _ octets dotted =>
      have longest : Longest front behind := by
        cases fits with
        | nothing => exact longest_nil _
        | @compression before _ _ => simpa using longest_of_colon (before ++ [colon]) behind
      have kept : dropSeparator front = front := by
        cases fits with
        | nothing => rfl
        | compression _ => exact dropSeparator_pair _
      have unglued : (!front.isEmpty && !endsWith front [colon]) = false := by
        cases fits with
        | nothing => rfl
        | compression _ => simp [endsWith, List.isSuffixOf]
      refine ⟨[], octets.groups, [], ?_, .nil, rfl, ?_⟩
      · rw [headAndTail_quad dotted longest, kept, List.append_nil]
      · rw [gluedQuad_quad dotted longest, unglued]
  | @groupsAndQuad text quad groups octets plain some dotted =>
      have split : front ++ (text ++ colon :: quad) = front ++ text ++ [colon] ++ quad := by simp
      have longest := longest_of_colon (front ++ text) quad
      have other : (front ++ text).getLast? ≠ .some colon := by
        rw [List.getLast?_append_of_ne_nil front (mt plain.eq_nil_iff.mp some)]
        exact plain.single.last
      refine ⟨text, octets.groups, groups, ?_, plain, rfl, ?_⟩
      · rw [split, headAndTail_quad dotted longest, dropSeparator_single other]
      · rw [split, gluedQuad_quad dotted longest]
        simp [endsWith, List.isSuffixOf]

/-- A glued ending is groups and the tail of a quad too. -/
theorem Glued.headAndTail {behind : JsString} {right : List Nat} (glued : Glued behind right)
    (front : JsString) :
    ∃ head tail groups, headAndTail (front ++ behind) = some (front ++ head, tail) ∧
      Groups head groups ∧ right = groups ++ tail ∧ gluedQuad (front ++ behind) = true := by
  cases glued with
  | @quad text quad groups octets plain some dotted longest =>
      have textSome := mt plain.eq_nil_iff.mp some
      have last : (front ++ text).getLast? = text.getLast? :=
        List.getLast?_append_of_ne_nil front textSome
      have stillLongest : Longest (front ++ text) quad := by
        rw [Longest, last]
        exact longest
      have nonempty : front ++ text ≠ [] := by simp [textSome]
      obtain ⟨more, unit, same⟩ := (List.eq_nil_or_concat _).resolve_left nonempty
      rw [List.concat_eq_append] at same
      have apart : unit ≠ colon := by
        rintro rfl
        apply plain.single.last
        rw [← last, same, List.getLast?_concat]
      refine ⟨text, octets.groups, groups, ?_, plain, rfl, ?_⟩
      · rw [← List.append_assoc, headAndTail_quad dotted stillLongest, same]
        rw [dropSeparator_other apart]
      · rw [← List.append_assoc, gluedQuad_quad dotted stillLongest, same]
        simp [endsWith, List.isSuffixOf, List.isPrefixOf, apart.symm]

theorem Ending.cut_full {text : JsString} {right : List Nat} (ending : Ending text right) :
    ∃ head tail groups, NetAddress.headAndTail text = some (head, tail) ∧ Groups head groups ∧
      right = groups ++ tail ∧ gluedQuad text = false := by
  simpa using ending.headAndTail .nothing

theorem Ending.cut_compressed {before behind : JsString} {left right : List Nat}
    (ending : Ending behind right) (front : Groups before left) :
    ∃ head tail groups, NetAddress.headAndTail (before ++ colon :: colon :: behind) =
        some (before ++ colon :: colon :: head, tail) ∧ Groups head groups ∧
          right = groups ++ tail ∧ gluedQuad (before ++ colon :: colon :: behind) = false := by
  simpa using ending.headAndTail (.compression front)

theorem Glued.cut_compressed {behind : JsString} {right : List Nat} (glued : Glued behind right)
    (before : JsString) :
    ∃ head tail groups, NetAddress.headAndTail (before ++ colon :: colon :: behind) =
        some (before ++ colon :: colon :: head, tail) ∧ Groups head groups ∧
          right = groups ++ tail ∧ gluedQuad (before ++ colon :: colon :: behind) = true := by
  simpa using glued.headAndTail (before ++ [colon, colon])

/-! ### What the parser takes -/

/-- The groups a text is read as, its zone taken off. -/
def readGroups (text : JsString) : Option (List Nat) :=
  (headAndTail text).bind fun cut => parseSides cut.1 cut.2

/-- Eight groups in full are read as they are, the quad glued or not. -/
theorem readGroups_full {text head : JsString} {tail groups : List Nat}
    (cut : headAndTail text = some (head, tail)) (plain : Groups head groups)
    (eight : (groups ++ tail).length = 8) : readGroups text = some (groups ++ tail) := by
  rw [readGroups, cut, Option.bind_some, parseSides_full plain, if_pos eight]

theorem readGroups_compressed {text before head : JsString} {tail left groups : List Nat}
    (cut : headAndTail text = some (before ++ colon :: colon :: head, tail))
    (front : Groups before left) (plain : Groups head groups)
    (few : left.length + (groups ++ tail).length ≤ 8) :
    readGroups text = some (left ++
      List.replicate (8 - left.length - (groups ++ tail).length) 0 ++ (groups ++ tail)) := by
  rw [readGroups, cut, Option.bind_some]
  dsimp only
  rw [parseSides_compressed front plain, if_neg (by omega)]

/-- An address is read as its groups. -/
theorem Ipv6Text.read {text : JsString} {groups : List Nat} (address : Ipv6Text text groups) :
    readGroups text = some groups := by
  cases address with
  | full ending eight =>
      obtain ⟨head, tail, parsed, cut, plain, rfl, _⟩ := ending.cut_full
      exact readGroups_full cut plain eight
  | compressed front ending few =>
      obtain ⟨head, tail, parsed, cut, plain, rfl, _⟩ := ending.cut_compressed front
      exact readGroups_compressed cut front plain (by omega)

/-- A text that is misread is read. -/
theorem Misread.read {text : JsString} (misread : Misread text) :
    ∃ groups, readGroups text = some groups := by
  cases misread with
  | idle front ending eight =>
      obtain ⟨head, tail, parsed, cut, plain, rfl, _⟩ := ending.cut_compressed front
      exact ⟨_, readGroups_compressed cut front plain (by omega)⟩
  | gluedFull glued eight =>
      obtain ⟨head, tail, parsed, cut, plain, rfl, _⟩ := glued.headAndTail []
      exact ⟨_, readGroups_full cut plain eight⟩
  | gluedCompressed front glued few =>
      obtain ⟨head, tail, parsed, cut, plain, rfl, _⟩ := glued.cut_compressed _
      exact ⟨_, readGroups_compressed cut front plain few⟩

/-- How many groups stand beside a compression. -/
def besideCompression (text : JsString) : Option Nat := do
  let cut ← headAndTail text
  match splitOnPair colon cut.1 with
  | [before, behind] =>
      some ((← parseGroups before).length + ((← parseGroups behind) ++ cut.2).length)
  | _ => none

theorem besideCompression_full {text head : JsString} {tail groups : List Nat}
    (cut : headAndTail text = some (head, tail)) (plain : Groups head groups) :
    besideCompression text = none := by
  rw [besideCompression, cut]
  simp [splitOnPair_single plain.single]

theorem besideCompression_compressed {text before head : JsString} {tail left groups : List Nat}
    (cut : headAndTail text = some (before ++ colon :: colon :: head, tail))
    (front : Groups before left) (plain : Groups head groups) :
    besideCompression text = some (left.length + (groups ++ tail).length) := by
  rw [besideCompression, cut]
  simp [splitOnPair_groups front plain, parseGroups_iff.mpr front, parseGroups_iff.mpr plain]

/-- An address has no glued quad, and not eight groups beside its compression. -/
theorem Ipv6Text.not_glued_idle {text : JsString} {groups : List Nat}
    (address : Ipv6Text text groups) :
    gluedQuad text = false ∧ besideCompression text ≠ some 8 := by
  cases address with
  | full ending eight =>
      obtain ⟨head, tail, parsed, cut, plain, _, unglued⟩ := ending.cut_full
      constructor
      · exact unglued
      · rw [besideCompression_full cut plain]
        simp
  | compressed front ending few =>
      obtain ⟨head, tail, parsed, cut, plain, rfl, unglued⟩ := ending.cut_compressed front
      constructor
      · exact unglued
      · rw [besideCompression_compressed cut front plain]
        intro same
        injection same
        omega

/-- No address is misread. -/
theorem Ipv6Text.not_misread {text : JsString} {groups : List Nat}
    (address : Ipv6Text text groups) : ¬Misread text := by
  obtain ⟨unglued, notIdle⟩ := address.not_glued_idle
  intro misread
  cases misread with
  | idle front ending eight =>
      obtain ⟨head, tail, parsed, cut, plain, rfl, _⟩ := ending.cut_compressed front
      rw [besideCompression_compressed cut front plain, eight] at notIdle
      contradiction
  | gluedFull glued _ =>
      obtain ⟨_, _, _, _, _, _, isGlued⟩ := glued.headAndTail []
      rw [List.nil_append, unglued] at isGlued
      contradiction
  | gluedCompressed front glued _ =>
      obtain ⟨_, _, _, _, _, _, isGlued⟩ := glued.cut_compressed _
      rw [unglued] at isGlued
      contradiction

/-- Groups of which none is left out are an address or idle around their compression. -/
theorem address_or_idle {before behind : JsString} {left right : List Nat}
    (front : Groups before left) (ending : Ending behind right)
    (few : left.length + right.length ≤ 8) :
    Ipv6Text (before ++ colon :: colon :: behind)
        (left ++ List.replicate (8 - left.length - right.length) 0 ++ right) ∨
      Misread (before ++ colon :: colon :: behind) := by
  by_cases eight : left.length + right.length = 8
  · exact .inr (.idle front ending eight)
  · exact .inl (.compressed front ending (by omega))

theorem address_or_misread_plain {text : JsString} {groups : List Nat}
    (read : parseSides text [] = some groups) : Ipv6Text text groups ∨ Misread text := by
  rcases parseSides_some read with ⟨side, plain, same, eight⟩ |
    ⟨before, behind, left, right, split, front, back, few, same⟩
  · rw [List.append_nil] at same
    subst same
    exact .inl (.full (.groups plain) eight)
  · rw [List.append_nil] at same few
    rw [same, split]
    exact address_or_idle front (.groups back) few

/-- Behind one colon a quad ends the address. -/
theorem address_or_misread_separated {before quad : JsString} {octets : Octets}
    {groups : List Nat} (dotted : DottedQuad quad octets)
    (read : parseSides before octets.groups = some groups)
    (single : before.getLast? ≠ some colon) :
    Ipv6Text (before ++ colon :: quad) groups ∨ Misread (before ++ colon :: quad) := by
  rcases parseSides_some read with ⟨side, plain, same, eight⟩ |
    ⟨front, behind, left, right, split, front', back, few, same⟩
  · have some : side ≠ [] := by
      rintro rfl
      rw [same] at eight
      simp [Octets.groups] at eight
    subst same
    exact .inl (.full (.groupsAndQuad plain some dotted) eight)
  · have some : right ≠ [] := by
      rintro rfl
      rw [split, back.eq_nil_iff.mpr rfl] at single
      simp at single
    have ending : Ending (behind ++ colon :: quad) (right ++ octets.groups) :=
      .groupsAndQuad back some dotted
    rw [same, split, List.append_assoc]
    exact address_or_idle front' ending few

/-- Behind a compression a quad ends the address, and behind a group it is glued. -/
theorem address_or_misread_adjacent {before quad : JsString} {octets : Octets}
    {groups : List Nat} (dotted : DottedQuad quad octets) (longest : Longest before quad)
    (read : parseSides before octets.groups = some groups) :
    Ipv6Text (before ++ quad) groups ∨ Misread (before ++ quad) := by
  rcases parseSides_some read with ⟨side, plain, same, eight⟩ |
    ⟨front, behind, left, right, split, front', back, few, same⟩
  · have some : side ≠ [] := by
      rintro rfl
      rw [same] at eight
      simp [Octets.groups] at eight
    subst same
    exact .inr (.gluedFull (.quad plain some dotted longest) eight)
  · subst split
    rw [same, List.append_assoc]
    by_cases some : right = []
    · rw [back.eq_nil_iff.mpr some, some]
      rw [some] at few
      exact address_or_idle front' (.quad dotted) few
    · have solid : behind ≠ [] := mt back.eq_nil_iff.mp some
      have stillLongest : Longest behind quad := by
        intro ends
        apply longest
        rw [List.getLast?_append_of_ne_nil _ (List.cons_ne_nil _ _), List.getLast?_cons_cons,
          List.getLast?_cons_of_ne_nil solid]
        exact ends
      exact .inr (.gluedCompressed front' (.quad back some dotted stillLongest) few)

theorem dropSeparator_cases (before : JsString) :
    (∃ front, before = front ++ [colon] ∧ front.getLast? ≠ some colon) ∨
      dropSeparator before = before := by
  by_cases single : ∃ front, before = front ++ [colon] ∧ front.getLast? ≠ some colon
  · exact .inl single
  · right
    cases before using List.reverseRecOn with
    | nil => rfl
    | append_singleton front unit =>
        by_cases last : unit = colon
        · subst last
          cases front using List.reverseRecOn with
          | nil => exact absurd ⟨[], rfl, by simp⟩ single
          | append_singleton more second =>
              by_cases pair : second = colon
              · subst pair
                simpa using dropSeparator_pair more
              · exact absurd ⟨_, rfl, by rwa [List.getLast?_concat, ne_eq, Option.some.injEq]⟩
                  single
        · exact dropSeparator_other last

/-- Every text that is read is an address or misread. -/
theorem address_or_misread {text : JsString} {groups : List Nat}
    (read : readGroups text = some groups) : Ipv6Text text groups ∨ Misread text := by
  rw [readGroups, headAndTail] at read
  cases found : embedded text with
  | none =>
      rw [found] at read
      exact address_or_misread_plain read
  | some cut =>
      obtain ⟨before, quad⟩ := cut
      rw [found] at read
      cases readQuad : parseIPv4 quad with
      | none =>
          simp only [readQuad] at read
          contradiction
      | some octets =>
          simp only [readQuad, Option.map_some, Option.bind_some] at read
          obtain ⟨split, _⟩ := embedded_quad found
          have longest := embedded_longest found
          have dotted := parseIPv4_dottedQuad_iff.mp readQuad
          subst split
          rcases dropSeparator_cases before with ⟨front, same, single⟩ | kept
          · subst same
            rw [dropSeparator_single single] at read
            simpa using address_or_misread_separated dotted read single
          · rw [kept] at read
            exact address_or_misread_adjacent dotted longest read

/-- The parser reads an IPv6 text as its grammar does exactly when it is not misread. -/
theorem parseIPv6_grammar_iff (input : JsString) :
    (∀ groups, parseIPv6 input = some groups ↔ Ipv6Text (beforeZone input) groups) ↔
      ¬Misread (beforeZone input) := by
  have parse : parseIPv6 input = readGroups (beforeZone input) := parseIPv6_eq input
  rw [parse]
  constructor
  · intro agrees misread
    obtain ⟨groups, read⟩ := misread.read
    exact ((agrees groups).mp read).not_misread misread
  · intro plain groups
    constructor
    · intro read
      exact (address_or_misread read).resolve_right plain
    · exact Ipv6Text.read

/-- `::` is taken to stand for no group at all. -/
theorem parseIPv6_idle_compression :
    ¬∀ input groups, parseIPv6 input = some groups ↔ Ipv6Text (beforeZone input) groups := by
  intro agrees
  have read : parseIPv6 (js "1:2:3:4::5:6:7:8") = some [1, 2, 3, 4, 5, 6, 7, 8] := by
    decide +kernel
  have address := (agrees _ _).mp read
  have idle : besideCompression (beforeZone (js "1:2:3:4::5:6:7:8")) = some 8 := by
    decide +kernel
  exact address.not_glued_idle.2 idle

end NextTime.NetAddress
