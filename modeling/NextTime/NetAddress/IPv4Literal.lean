import NextTime.Library.Numerals
import NextTime.Library.TextParts

/-
IPv4 addresses as texts: the strict dotted quad, every notation `inet_aton` knows, and
the order in which the two are tried.
-/

namespace NextTime.NetAddress

open JsString

def dot : UInt16 := 0x2E

/-- The four octets of an IPv4 address. -/
structure Octets where
  first : Fin 256
  second : Fin 256
  third : Fin 256
  fourth : Fin 256
  deriving DecidableEq

def Octets.bytes (octets : Octets) : List Nat :=
  [octets.first, octets.second, octets.third, octets.fourth]

/-! ### The strict dotted quad -/

/-- One to three decimal digits. -/
def isQuadPart (part : JsString) : Bool :=
  1 ≤ part.length && part.length ≤ 3 && part.all isDecimal

def octet (part : JsString) : Option (Fin 256) :=
  if isQuadPart part then
    if small : parseInt 10 part < 256 then some ⟨parseInt 10 part, small⟩ else none
  else none

def parseIPv4 (input : JsString) : Option Octets :=
  match input.splitOn dot with
  | [first, second, third, fourth] => do
      some ⟨← octet first, ← octet second, ← octet third, ← octet fourth⟩
  | _ => none

/-! ### The notations of `inet_aton` -/

def isHexPart : JsString → Bool
  | 0x30 :: mark :: digits =>
      (mark == 0x78 || mark == 0x58) && !digits.isEmpty && digits.all isHexadecimal
  | _ => false

def isOctalPart : JsString → Bool
  | 0x30 :: digits => !digits.isEmpty && digits.all isOctal
  | _ => false

def isDecimalPart : JsString → Bool
  | [0x30] => true
  | first :: digits => isDecimal first && first != 0x30 && digits.all isDecimal
  | [] => false

def parseAtonPart (part : JsString) : Option Nat :=
  if isHexPart part then some (parseInt 16 (part.drop 2))
  else if isOctalPart part then some (parseInt 8 part)
  else if isDecimalPart part then some (parseInt 10 part)
  else none

/-- The parts before the last at their places, the first at the highest. -/
def placed : Nat → List Nat → Nat
  | _, [] => 0
  | place, value :: rest => value * 2 ^ (8 * place) + placed (place - 1) rest

instance neZeroOctet : NeZero 256 := ⟨by decide⟩

def octetsOf (total : Nat) : Octets where
  first := Fin.ofNat 256 (total / 16777216)
  second := Fin.ofNat 256 (total / 65536)
  third := Fin.ofNat 256 (total / 256)
  fourth := Fin.ofNat 256 total

/-- The address of the values of one to four parts. -/
def combine (values : List Nat) : Option Octets :=
  let leading := values.dropLast
  let lastMax := 2 ^ (8 * (4 - leading.length)) - 1
  let lastValue := values.getLastD 0
  let total := lastValue + placed 3 leading
  if leading.any (0xff < ·) then none
  else if lastMax < lastValue then none
  else if 0xffffffff < total then none
  else some (octetsOf total)

def parseIPv4Literal (input : JsString) : Option Octets :=
  match parseIPv4 input with
  | some strict => some strict
  | none =>
      if input.isEmpty then none
      else if 4 < (input.splitOn dot).length then none
      else ((input.splitOn dot).mapM parseAtonPart).bind combine

/-! ### What `inet_aton` reads -/

/-- A part in decimal, in hexadecimal behind `0x` or in octal behind a zero. -/
inductive AtonPart : JsString → Nat → Prop
  | hexadecimal {mark : UInt16} {digits : JsString} (marked : mark = 0x78 ∨ mark = 0x58)
      (some : digits ≠ []) (all : ∀ unit ∈ digits, isHexadecimal unit = true) :
      AtonPart (0x30 :: mark :: digits) (parseInt 16 digits)
  | octal {digits : JsString} (all : ∀ unit ∈ digits, isOctal unit = true) :
      AtonPart (0x30 :: digits) (parseInt 8 digits)
  | decimal {first : UInt16} {digits : JsString} (leads : isDecimal first = true)
      (nonzero : first ≠ 0x30) (all : ∀ unit ∈ digits, isDecimal unit = true) :
      AtonPart (first :: digits) (parseInt 10 (first :: digits))

/-- The parts before the last are a byte each, and the last one is all bytes that remain. -/
inductive InetAton (address : Octets) : JsString → Prop
  | parts {leading : List JsString} {last : JsString} (few : leading.length ≤ 3)
      (bytes : List.Forall₂ AtonPart leading (address.bytes.take leading.length))
      (remaining : AtonPart last
        (Nat.ofDigits 256 (address.bytes.drop leading.length).reverse)) :
      InetAton address ([dot].intercalate (leading ++ [last]))

/-! ### The general notation is read as `inet_aton` reads it -/

theorem isHexPart_iff {part : JsString} :
    isHexPart part = true ↔ ∃ mark digits, part = 0x30 :: mark :: digits ∧
      (mark = 0x78 ∨ mark = 0x58) ∧ digits ≠ [] ∧ ∀ unit ∈ digits, isHexadecimal unit = true := by
  constructor
  · intro hexadecimal
    unfold isHexPart at hexadecimal
    split at hexadecimal
    next mark digits =>
      simp only [Bool.and_eq_true, Bool.or_eq_true, beq_iff_eq, Bool.not_eq_true',
        List.isEmpty_eq_false_iff, List.all_eq_true] at hexadecimal
      exact ⟨mark, digits, rfl, hexadecimal.1.1, hexadecimal.1.2, hexadecimal.2⟩
    next => contradiction
  · rintro ⟨mark, digits, rfl, marked, some, all⟩
    simp only [isHexPart, Bool.and_eq_true, Bool.or_eq_true, beq_iff_eq, Bool.not_eq_true',
      List.isEmpty_eq_false_iff, List.all_eq_true]
    exact ⟨⟨marked, some⟩, all⟩

theorem isOctalPart_iff {part : JsString} :
    isOctalPart part = true ↔ ∃ digits, part = 0x30 :: digits ∧ digits ≠ [] ∧
      ∀ unit ∈ digits, isOctal unit = true := by
  constructor
  · intro octal
    unfold isOctalPart at octal
    split at octal
    next digits =>
      simp only [Bool.and_eq_true, Bool.not_eq_true', List.isEmpty_eq_false_iff,
        List.all_eq_true] at octal
      exact ⟨digits, rfl, octal⟩
    next => contradiction
  · rintro ⟨digits, rfl, some, all⟩
    simp only [isOctalPart, Bool.and_eq_true, Bool.not_eq_true', List.isEmpty_eq_false_iff,
      List.all_eq_true]
    exact ⟨some, all⟩

theorem isDecimalPart_iff {part : JsString} :
    isDecimalPart part = true ↔ part = [0x30] ∨ ∃ first digits, part = first :: digits ∧
      isDecimal first = true ∧ first ≠ 0x30 ∧ ∀ unit ∈ digits, isDecimal unit = true := by
  constructor
  · intro decimal
    unfold isDecimalPart at decimal
    split at decimal
    next => left; rfl
    next first digits _ =>
      simp only [Bool.and_eq_true, bne_iff_ne, List.all_eq_true] at decimal
      right
      exact ⟨first, digits, rfl, decimal.1.1, decimal.1.2, decimal.2⟩
    next => contradiction
  · rintro (rfl | ⟨first, digits, rfl, leads, nonzero, all⟩)
    · rfl
    · rw [isDecimalPart]
      · simp only [Bool.and_eq_true, bne_iff_ne, List.all_eq_true]
        exact ⟨⟨leads, nonzero⟩, all⟩
      · rintro rfl rfl
        exact nonzero rfl

theorem parseInt_zero (radix : Nat) (digits : JsString) :
    parseInt radix (0x30 :: digits) = parseInt radix digits := by
  simp [parseInt_cons, digit]

/-- Neither a hexadecimal mark nor a decimal one is an octal digit. -/
theorem not_isOctal_mark {mark : UInt16} (marked : mark = 0x78 ∨ mark = 0x58) :
    isOctal mark = false := by
  rcases marked with rfl | rfl <;> rfl

/-- A part is read exactly as `inet_aton` reads it. -/
theorem parseAtonPart_iff {part : JsString} {value : Nat} :
    parseAtonPart part = some value ↔ AtonPart part value := by
  constructor
  · intro read
    rw [parseAtonPart] at read
    by_cases hexadecimal : isHexPart part = true
    · rw [if_pos hexadecimal] at read
      obtain ⟨mark, digits, rfl, marked, some, all⟩ := isHexPart_iff.mp hexadecimal
      cases read
      exact .hexadecimal marked some all
    · rw [if_neg hexadecimal] at read
      by_cases octal : isOctalPart part = true
      · rw [if_pos octal] at read
        obtain ⟨digits, rfl, _, all⟩ := isOctalPart_iff.mp octal
        cases read
        rw [parseInt_zero]
        exact .octal all
      · rw [if_neg octal] at read
        by_cases decimal : isDecimalPart part = true
        · rw [if_pos decimal] at read
          cases read
          rcases isDecimalPart_iff.mp decimal with rfl | ⟨first, digits, rfl, leads, nonzero, all⟩
          · have none : ∀ unit ∈ ([] : JsString), isOctal unit = true := by simp
            exact .octal none
          · exact .decimal leads nonzero all
        · rw [if_neg decimal] at read
          contradiction
  · intro reads
    cases reads with
    | @hexadecimal mark digits marked some all =>
        rw [parseAtonPart, if_pos (isHexPart_iff.mpr ⟨mark, digits, rfl, marked, some, all⟩)]
        rfl
    | @octal digits all =>
        have unmarked : ¬isHexPart (0x30 :: digits) = true := by
          intro hexadecimal
          obtain ⟨mark, rest, same, marked, _⟩ := isHexPart_iff.mp hexadecimal
          injection same with _ same
          have markOctal := all mark (same ▸ List.mem_cons_self)
          rw [not_isOctal_mark marked] at markOctal
          contradiction
        rw [parseAtonPart, if_neg unmarked]
        by_cases none : digits = []
        · subst none
          rfl
        · rw [if_pos (isOctalPart_iff.mpr ⟨digits, rfl, none, all⟩), parseInt_zero]
    | @decimal first digits leads nonzero all =>
        have notHex : ¬isHexPart (first :: digits) = true := by
          intro hexadecimal
          obtain ⟨mark, rest, same, _⟩ := isHexPart_iff.mp hexadecimal
          injection same with same
          exact nonzero same
        have notOctal : ¬isOctalPart (first :: digits) = true := by
          intro octal
          obtain ⟨rest, same, _⟩ := isOctalPart_iff.mp octal
          injection same with same
          exact nonzero same
        rw [parseAtonPart, if_neg notHex, if_neg notOctal, if_pos (isDecimalPart_iff.mpr
          (Or.inr ⟨first, digits, rfl, leads, nonzero, all⟩))]

/-- A part is hexadecimal digits and at most the mark of them. -/
theorem AtonPart.not_mem {part : JsString} {value : Nat} (reads : AtonPart part value)
    {unit : UInt16} (other : isHexadecimal unit = false) (unmarked : unit ≠ 0x78 ∧ unit ≠ 0x58) :
    unit ∉ part := by
  have apart : ∀ digit : UInt16, isHexadecimal digit = true → unit ≠ digit := by
    rintro digit isDigit rfl
    rw [isDigit] at other
    contradiction
  intro member
  cases reads with
  | hexadecimal marked _ all =>
      rcases List.mem_cons.mp member with isZero | member
      · exact apart 0x30 rfl isZero
      · rcases List.mem_cons.mp member with rfl | inDigits
        · exact marked.elim unmarked.1 unmarked.2
        · exact apart unit (all unit inDigits) rfl
  | octal all =>
      rcases List.mem_cons.mp member with isZero | inDigits
      · exact apart 0x30 rfl isZero
      · have decimal := isDecimal_of_isOctal (all unit inDigits)
        exact apart unit (isHexadecimal_of_isDecimal decimal) rfl
  | decimal leads _ all =>
      rcases List.mem_cons.mp member with rfl | inDigits
      · exact apart unit (isHexadecimal_of_isDecimal leads) rfl
      · exact apart unit (isHexadecimal_of_isDecimal (all unit inDigits)) rfl

theorem atonPart_of_mem {parts : List JsString} {values : List Nat}
    (each : List.Forall₂ AtonPart parts values) : ∀ part ∈ parts, ∃ value, AtonPart part value := by
  induction each with
  | nil => simp
  | cons reads _ ih =>
      rw [List.forall_mem_cons]
      exact ⟨⟨_, reads⟩, ih⟩

/-- The parts of an address are all there are between its dots. -/
theorem splitOn_parts {leading : List JsString} {last : JsString} {values : List Nat}
    {lastValue : Nat} (bytes : List.Forall₂ AtonPart leading values)
    (remaining : AtonPart last lastValue) :
    ([dot].intercalate (leading ++ [last])).splitOn dot = leading ++ [last] := by
  apply List.splitOn_intercalate
  · intro part member
    cases List.mem_append.mp member with
    | inl inLeading =>
        obtain ⟨value, reads⟩ := atonPart_of_mem bytes part inLeading
        exact reads.not_mem rfl (by decide)
    | inr isLast =>
        rw [List.mem_singleton.mp isLast]
        exact remaining.not_mem rfl (by decide)
  · simp

theorem combine_some_iff {leading : List Nat} {lastValue : Nat} {address : Octets} :
    combine (leading ++ [lastValue]) = some address ↔
      (∀ value ∈ leading, value ≤ 255) ∧ lastValue ≤ 2 ^ (8 * (4 - leading.length)) - 1 ∧
        lastValue + placed 3 leading ≤ 0xffffffff ∧
          octetsOf (lastValue + placed 3 leading) = address := by
  simp only [combine, List.dropLast_concat, List.getLastD_concat]
  split
  next large =>
    simp only [List.any_eq_true, decide_eq_true_eq] at large
    obtain ⟨value, member, large⟩ := large
    constructor
    · intro nothing
      contradiction
    · intro fits
      have small := fits.1 value member
      omega
  next small =>
    simp only [List.any_eq_true, decide_eq_true_eq, not_exists, not_and, Nat.not_lt] at small
    split
    next large =>
      constructor
      · intro nothing
        contradiction
      · intro fits
        have lastSmall := fits.2.1
        omega
    next lastSmall =>
      split
      next large =>
        constructor
        · intro nothing
          contradiction
        · intro fits
          have totalSmall := fits.2.2.1
          omega
      next totalSmall =>
        constructor
        · intro same
          exact ⟨small, by omega, by omega, Option.some.inj same⟩
        · intro fits
          rw [fits.2.2.2]

/-- Four bytes are read off a number exactly when it is theirs in base 256. -/
theorem octetsOf_bounded_iff {total : Nat} {address : Octets} :
    total ≤ 0xffffffff ∧ octetsOf total = address ↔
      total = address.first * 16777216 + address.second * 65536 + address.third * 256 +
        address.fourth := by
  obtain ⟨first, second, third, fourth⟩ := address
  simp only [octetsOf, Octets.mk.injEq, Fin.ext_iff, Fin.val_ofNat]
  omega

/-- The values of the parts make the address whose bytes they are. -/
theorem combine_iff {leading : List Nat} {lastValue : Nat} {address : Octets}
    (few : leading.length ≤ 3) :
    combine (leading ++ [lastValue]) = some address ↔
      leading = address.bytes.take leading.length ∧
        lastValue = Nat.ofDigits 256 (address.bytes.drop leading.length).reverse := by
  rw [combine_some_iff, octetsOf_bounded_iff]
  obtain ⟨first, second, third, fourth⟩ := address
  match leading, few with
  | [], _ =>
      simp [placed, Octets.bytes, Nat.ofDigits_cons]
      omega
  | [a], _ =>
      simp [placed, Octets.bytes, Nat.ofDigits_cons]
      omega
  | [a, b], _ =>
      simp [placed, Octets.bytes, Nat.ofDigits_cons]
      omega
  | [a, b, c], _ =>
      simp [placed, Octets.bytes, Nat.ofDigits_cons]
      omega
/-- The general notation is read exactly as `inet_aton` reads it. -/
theorem bind_combine_iff {input : JsString} {address : Octets}  :
    (input.splitOn dot).length ≤ 4 ∧
        ((input.splitOn dot).mapM parseAtonPart).bind combine = some address ↔
      InetAton address input := by
  constructor
  · rintro ⟨few, read⟩
    obtain ⟨values, parts, combined⟩ := Option.bind_eq_some_iff.mp read
    have each : List.Forall₂ AtonPart (input.splitOn dot) values :=
      (mapM_eq_some_iff.mp parts).imp fun _ _ => parseAtonPart_iff.mp
    have joined : [dot].intercalate (input.splitOn dot) = input := List.intercalate_splitOn dot
    have nonempty := List.splitOn_ne_nil dot input
    generalize input.splitOn dot = split at each joined few nonempty
    cases split using List.reverseRecOn with
    | nil => contradiction
    | append_singleton leading last =>
        rw [List.length_append, List.length_singleton] at few
        obtain ⟨before, value, rfl, readLeading, readLast⟩ := forall₂_concat_left each
        have sameLength := readLeading.length_eq
        obtain ⟨bytes, remaining⟩ := (combine_iff (by omega)).mp combined
        rw [← joined]
        rw [bytes] at readLeading
        rw [remaining] at readLast
        rw [← sameLength] at readLeading readLast
        exact .parts (by omega) readLeading readLast
  · intro reads
    cases reads with
    | @parts leading last few bytes remaining =>
        have sameLength := bytes.length_eq
        have each := List.rel_append bytes (.cons remaining .nil)
        have parts := mapM_eq_some_iff.mpr (each.imp fun _ _ => parseAtonPart_iff.mpr)
        rw [splitOn_parts bytes remaining]
        constructor
        · rw [List.length_append, List.length_singleton]
          omega
        · rw [parts, Option.bind_some, combine_iff (by omega), ← sameLength]
          constructor
          · rfl
          · rfl

/-! ### The two readings of a dotted quad -/

/-- Four parts of one to three decimal digits, each of at most 255. -/
def StrictQuad (input : JsString) : Prop :=
  (input.splitOn dot).length = 4 ∧
    ∀ part ∈ input.splitOn dot, isQuadPart part = true ∧ parseInt 10 part ≤ 255

/-- A part of several digits that begins with zero and, in decimal, stands for eight or
more. -/
def ZeroLed (part : JsString) : Prop :=
  2 ≤ part.length ∧ part.head? = some 0x30 ∧ 8 ≤ parseInt 10 part

theorem octet_eq_some_iff {part : JsString} {value : Fin 256} :
    octet part = some value ↔ isQuadPart part = true ∧ parseInt 10 part = value := by
  by_cases digits : isQuadPart part = true
  · rw [octet, if_pos digits]
    by_cases small : parseInt 10 part < 256
    · rw [dif_pos small, Option.some.injEq, Fin.ext_iff]
      exact ⟨fun same => ⟨digits, same⟩, And.right⟩
    · rw [dif_neg small]
      constructor
      · intro nothing
        contradiction
      · intro same
        omega
  · rw [octet, if_neg digits]
    constructor
    · intro nothing
      contradiction
    · intro same
      exact absurd same.1 digits

/-- The strict parser reads four parts, in decimal. -/
theorem parseIPv4_iff {input : JsString} {address : Octets} :
    parseIPv4 input = some address ↔
      List.Forall₂ (fun part value => isQuadPart part = true ∧ parseInt 10 part = value)
        (input.splitOn dot) address.bytes := by
  obtain ⟨first, second, third, fourth⟩ := address
  rw [parseIPv4, Octets.bytes]
  split
  next a b c d same =>
    rw [same]
    simp only [Option.bind_eq_bind, Option.bind_eq_some_iff, octet_eq_some_iff,
      Option.some.injEq, Octets.mk.injEq]
    constructor
    · rintro ⟨_, readA, _, readB, _, readC, _, readD, rfl, rfl, rfl, rfl⟩
      exact .cons readA (.cons readB (.cons readC (.cons readD .nil)))
    · intro each
      simp only [List.forall₂_cons] at each
      obtain ⟨readA, readB, readC, readD, _⟩ := each
      exact ⟨first, readA, second, readB, third, readC, fourth, readD, rfl, rfl, rfl, rfl⟩
  next other =>
    constructor
    · intro nothing
      contradiction
    · intro each
      have four := each.length_eq
      match split : input.splitOn dot, four with
      | [a, b, c, d], _ => exact absurd split (other a b c d)

theorem strictQuad_iff {input : JsString} :
    StrictQuad input ↔ ∃ address, parseIPv4 input = some address := by
  constructor
  · rintro ⟨four, parts⟩
    match split : input.splitOn dot, four with
    | [a, b, c, d], _ =>
        rw [split] at parts
        simp only [List.forall_mem_cons] at parts
        obtain ⟨readA, readB, readC, readD, _⟩ := parts
        refine ⟨⟨⟨parseInt 10 a, by omega⟩, ⟨parseInt 10 b, by omega⟩, ⟨parseInt 10 c, by omega⟩,
          ⟨parseInt 10 d, by omega⟩⟩, ?_⟩
        rw [parseIPv4_iff, split]
        exact .cons ⟨readA.1, rfl⟩ (.cons ⟨readB.1, rfl⟩ (.cons ⟨readC.1, rfl⟩
          (.cons ⟨readD.1, rfl⟩ .nil)))
  · rintro ⟨address, read⟩
    have each := parseIPv4_iff.mp read
    constructor
    · exact each.length_eq
    · obtain ⟨first, second, third, fourth⟩ := address
      match split : input.splitOn dot, each.length_eq with
      | [a, b, c, d], _ =>
          rw [split, Octets.bytes] at each
          simp only [List.forall₂_cons] at each
          obtain ⟨readA, readB, readC, readD, _⟩ := each
          simp only [List.forall_mem_cons]
          exact ⟨⟨readA.1, by omega⟩, ⟨readB.1, by omega⟩, ⟨readC.1, by omega⟩,
            ⟨readD.1, by omega⟩, by simp⟩

theorem combine_quad {values : List Nat} {address : Octets} (four : values.length = 4) :
    combine values = some address ↔ values = address.bytes := by
  match values, four with
  | [a, b, c, d], _ =>
      have read := @combine_iff [a, b, c] d address (by simp)
      rw [List.cons_append, List.cons_append, List.cons_append, List.nil_append] at read
      rw [read]
      simp [Octets.bytes, and_assoc]

/-- Four parts are read by `inet_aton` as a byte each. -/
theorem inetAton_quad_iff {input : JsString} {address : Octets}
    (four : (input.splitOn dot).length = 4) :
    InetAton address input ↔ List.Forall₂ AtonPart (input.splitOn dot) address.bytes := by
  rw [← bind_combine_iff]
  constructor
  · rintro ⟨_, read⟩
    obtain ⟨values, parts, combined⟩ := Option.bind_eq_some_iff.mp read
    rw [combine_quad (by rw [length_eq_of_mapM parts, four])] at combined
    rw [← combined]
    exact (mapM_eq_some_iff.mp parts).imp fun _ _ => parseAtonPart_iff.mp
  · intro each
    constructor
    · omega
    · have parts := mapM_eq_some_iff.mpr (each.imp fun _ _ => parseAtonPart_iff.mpr)
      rw [parts, Option.bind_some, combine_quad]
      · rfl

theorem isQuadPart_iff {part : JsString} :
    isQuadPart part = true ↔
      1 ≤ part.length ∧ part.length ≤ 3 ∧ ∀ unit ∈ part, isDecimal unit = true := by
  simp [isQuadPart, and_assoc]

/-- Behind a zero, two digits at most are alike in base eight and ten below eight only. -/
theorem octal_alike_iff {digits : JsString} (few : digits.length ≤ 2)
    (all : ∀ unit ∈ digits, isDecimal unit = true) :
    (∀ unit ∈ digits, isOctal unit = true) ∧ parseInt 8 digits = parseInt 10 digits ↔
      parseInt 10 digits < 8 := by
  match digits, few with
  | [], _ => simp [parseInt]
  | [a], _ =>
      rw [List.forall_mem_singleton] at all
      rw [List.forall_mem_singleton, isOctal_iff_digit all, parseInt_singleton,
        parseInt_singleton]
      simp
  | [a, b], _ =>
      rw [List.forall_mem_cons, List.forall_mem_singleton] at all
      rw [List.forall_mem_cons, List.forall_mem_singleton, isOctal_iff_digit all.1,
        isOctal_iff_digit all.2, parseInt_pair, parseInt_pair]
      omega

/-- A part of one to three decimal digits is read alike by both unless a zero leads it. -/
theorem atonPart_decimal_iff {part : JsString} (isPart : isQuadPart part = true) :
    AtonPart part (parseInt 10 part) ↔ ¬ZeroLed part := by
  obtain ⟨some, few, all⟩ := isQuadPart_iff.mp isPart
  cases part with
  | nil => contradiction
  | cons first rest =>
      rw [List.length_cons] at few
      rw [List.forall_mem_cons] at all
      by_cases zero : first = 0x30
      · subst zero
        have alike := octal_alike_iff (by omega) all.2
        constructor
        · rintro reads ⟨several, _, large⟩
          rw [parseInt_zero] at reads large
          generalize value : parseInt 10 rest = number at reads
          cases reads with
          | hexadecimal marked =>
              have markDecimal := (List.forall_mem_cons.mp all.2).1
              rcases marked with rfl | rfl <;> contradiction
          | octal octal =>
              have small := alike.mp ⟨octal, value.symm⟩
              omega
          | decimal leads nonzero => contradiction
        · intro plain
          rw [parseInt_zero]
          have small : parseInt 10 rest < 8 := by
            by_contra large
            have several : 2 ≤ (0x30 :: rest).length := by
              cases rest with
              | nil => simp [parseInt] at large
              | cons => simp
            exact plain ⟨several, rfl, by rw [parseInt_zero]; omega⟩
          obtain ⟨octal, same⟩ := alike.mpr small
          rw [← same]
          exact .octal octal
      · constructor
        · rintro _ ⟨_, zeroLed, _⟩
          exact zero (Option.some.inj zeroLed)
        · intro _
          exact .decimal all.1 zero all.2

/-- Some part of a strict dotted quad is octal to `inet_aton`, and taken as decimal. -/
def OctalTakenAsDecimal (input : JsString) : Prop :=
  StrictQuad input ∧ ∃ part ∈ input.splitOn dot, ZeroLed part

/-- A strict quad is `inet_aton`'s address too exactly when no zero leads a part. -/
theorem inetAton_strict_iff {input : JsString} {strict : Octets}
    (read : parseIPv4 input = some strict) :
    InetAton strict input ↔ ∀ part ∈ input.splitOn dot, ¬ZeroLed part := by
  have each := parseIPv4_iff.mp read
  have four : (input.splitOn dot).length = 4 := each.length_eq
  rw [inetAton_quad_iff four]
  clear four read
  generalize input.splitOn dot = parts at each
  generalize strict.bytes = values at each
  induction each with
  | nil => simp
  | cons readPart _ ih =>
      rw [List.forall₂_cons, List.forall_mem_cons, ← readPart.2]
      exact and_congr (atonPart_decimal_iff readPart.1) ih

/-- Whatever is no strict quad is read as `inet_aton` reads it. -/
theorem parseIPv4Literal_of_not_strict {input : JsString} {address : Octets}
    (notStrict : parseIPv4 input = none) :
    parseIPv4Literal input = some address ↔ InetAton address input := by
  rw [← bind_combine_iff, parseIPv4Literal, notStrict]
  by_cases empty : input.isEmpty = true
  · rw [if_pos empty, List.isEmpty_iff.mp empty]
    constructor
    · intro nothing
      contradiction
    · rintro ⟨_, reads⟩
      contradiction
  · rw [if_neg empty]
    by_cases many : 4 < (input.splitOn dot).length
    · rw [if_pos many]
      constructor
      · intro nothing
        contradiction
      · intro reads
        omega
    · rw [if_neg many]
      constructor
      · intro reads
        exact ⟨by omega, reads⟩
      · exact And.right

/-- An IPv4 literal is read as `inet_aton` reads it exactly when no part that is octal to
`inet_aton` stands in a strict dotted quad. -/
theorem parseIPv4Literal_inetAton_iff (input : JsString) :
    (∀ address, parseIPv4Literal input = some address ↔ InetAton address input) ↔
      ¬OctalTakenAsDecimal input := by
  cases read : parseIPv4 input with
  | some strict =>
      have strictQuad := strictQuad_iff.mpr ⟨strict, read⟩
      have literal : parseIPv4Literal input = some strict := by rw [parseIPv4Literal, read]
      rw [literal]
      constructor
      · rintro agrees ⟨_, part, member, led⟩
        have inetAton := (agrees strict).mp rfl
        exact (inetAton_strict_iff read).mp inetAton part member led
      · intro plain
        have inetAton : InetAton strict input := by
          rw [inetAton_strict_iff read]
          intro part member led
          exact plain ⟨strictQuad, part, member, led⟩
        intro address
        constructor
        · intro same
          cases same
          exact inetAton
        · intro other
          have strictRead := (bind_combine_iff.mpr inetAton).2
          have otherRead := (bind_combine_iff.mpr other).2
          exact strictRead.symm.trans otherRead
  | none =>
      have notStrict : ¬OctalTakenAsDecimal input := by
        rintro ⟨strictQuad, _⟩
        obtain ⟨strict, other⟩ := strictQuad_iff.mp strictQuad
        rw [read] at other
        contradiction
      simp only [notStrict, not_false_eq_true, iff_true]
      intro address
      exact parseIPv4Literal_of_not_strict read

/-- The octal `010` is ten to the parser and eight to `inet_aton`. -/
theorem parseIPv4Literal_octal :
    ¬∀ input address, parseIPv4Literal input = some address ↔ InetAton address input := by
  intro agrees
  have taken := (agrees (js "010.0.0.1") ⟨10, 0, 0, 1⟩).mp (by decide +kernel)
  have read := (bind_combine_iff.mpr taken).2
  have octal : ((js "010.0.0.1").splitOn dot).mapM parseAtonPart = some [8, 0, 0, 1] := by
    decide +kernel
  rw [octal] at read
  contradiction

end NextTime.NetAddress
