import NextTime.Library.JsString
import NextTime.Library.RollingHash
import NextTime.Library.SafeIntegers

/-
The keys of the windows of a text: two rolling hashes packed into one number. An operation
whose double is not the exact integer has no result.
-/

namespace NextTime.EvalSeal

open RollingHash (polynomial polynomial_grows polynomial_leaves visitUntil)
open SafeIntegers

/-- How many units of a text count as a copy of it. -/
def SEAL_SPAN_CHARS : Nat := 40

def P1 : Int := 2147483647
def P2 : Int := 2147483629
def B1 : Int := 911382323
def B2 : Int := 972663749
def SECOND_BITS : Int := 2 ^ 22

def mulMod (a b p : Int) : Option Int := do
  let high ← mul (← rem (← mul a (floorDiv b 65536)) p) 65536
  let low ← mul a (← rem b 65536)
  rem (← add high low) p

def powMod (base : Int) : Nat → Int → Option Int
  | 0, _ => some 1
  | exponent + 1, p => do mulMod (← powMod base exponent p) base p

/-- What the leaving unit was multiplied by. -/
def LEAD1 : Option Int := powMod B1 (SEAL_SPAN_CHARS - 1) P1
def LEAD2 : Option Int := powMod B2 (SEAL_SPAN_CHARS - 1) P2

/-- `text.charCodeAt(i)`, which is no number behind the text. -/
def charCodeAt (text : JsString) (i : Nat) : Option Int := text[i]?.map fun unit => unit.toNat

structure Hashes where
  h1 : Int
  h2 : Int

/-- `(h - mulMod(leaving, LEAD, P) + P) % P`. -/
def leave (h leaving lead p : Int) : Option Int := do
  rem (← add (← sub h (← mulMod leaving lead p)) p) p

/-- `(mulMod(h, B, P) + unit) % P`. -/
def enter (h unit base p : Int) : Option Int := do
  rem (← add (← mulMod h base p) unit) p

def leaveWindow (normalized : JsString) (i : Nat) (hashes : Hashes) : Option Hashes := do
  if i < SEAL_SPAN_CHARS then return hashes
  let leaving ← charCodeAt normalized (i - SEAL_SPAN_CHARS)
  let h1 ← leave hashes.h1 leaving (← LEAD1) P1
  let h2 ← leave hashes.h2 leaving (← LEAD2) P2
  return ⟨h1, h2⟩

/-- The hashes of the window that ends at `i`. -/
def slide (normalized : JsString) (i : Nat) (hashes : Hashes) : Option Hashes := do
  let unit ← charCodeAt normalized i
  let hashes ← leaveWindow normalized i hashes
  let h1 ← enter hashes.h1 unit B1 P1
  let h2 ← enter hashes.h2 unit B2 P2
  return ⟨h1, h2⟩

def packKey (hashes : Hashes) : Option Int := do
  add (← mul hashes.h1 SECOND_BITS) (← rem hashes.h2 SECOND_BITS)

section
variable {State : Type} (visit : State → Int → State × Bool) (normalized : JsString)

/-- The rest of the loop, with the units that remain from `i` on. -/
def windowLoop : (remaining i : Nat) → Hashes → State → Option (State × Bool)
  | 0, _, _, state => some (state, false)
  | remaining + 1, i, hashes, state => do
      let hashes ← slide normalized i hashes
      if SEAL_SPAN_CHARS - 1 ≤ i then
        let key ← packKey hashes
        let (state, found) := visit state key
        if found then return (state, true)
        windowLoop remaining (i + 1) hashes state
      else windowLoop remaining (i + 1) hashes state

/-- Calls `visit` with the key of every window, in order; stops when `visit` returns true. -/
def eachWindowKey (state : State) : Option (State × Bool) :=
  if normalized.length < SEAL_SPAN_CHARS then some (state, false)
  else windowLoop visit normalized normalized.length 0 ⟨0, 0⟩ state

end

/-! ### The key of a window -/

def units (window : JsString) : List Int := window.map fun unit => (unit.toNat : Int)

/-- The packed pair of the polynomials of a window's units, in exact integers. -/
def windowKey (window : JsString) : Int :=
  polynomial B1 (units window) % P1 * SECOND_BITS + polynomial B2 (units window) % P2 % SECOND_BITS

/-- The window that ends at `i`: the units from `i - 39` to `i`. -/
def windowAt (text : JsString) (i : Nat) : JsString :=
  (text.drop (i - (SEAL_SPAN_CHARS - 1))).take SEAL_SPAN_CHARS

/-- The positions a window of the text ends at, in order. -/
def windowEnds (text : JsString) : List Nat :=
  (List.range text.length).filter fun i => SEAL_SPAN_CHARS - 1 ≤ i

/-! ### Every double is exact -/

/-- A remainder of one of the two primes, or a unit. -/
structure Small (value : Int) : Prop where
  nonnegative : 0 ≤ value
  below : value < 2 ^ 31

theorem small_emod {p : Int} (positive : 0 < p) (narrow : p ≤ 2 ^ 31) (value : Int) :
    Small (value % p) :=
  ⟨Int.emod_nonneg value positive.ne', lt_of_lt_of_le (Int.emod_lt_of_pos value positive) narrow⟩

theorem mulMod_eq {a b p : Int} (smallA : Small a) (smallB : Small b) (positive : 0 < p)
    (narrow : p ≤ 2 ^ 31) : mulMod a b p = some (a * b % p) := by
  have halves := Int.mul_ediv_add_emod b 65536
  have upper : 0 ≤ b / 65536 := Int.ediv_nonneg smallB.nonnegative (by decide)
  have upperBelow : b / 65536 < 2 ^ 15 := by
    have below := smallB.below
    omega
  have lower : 0 ≤ b % 65536 := Int.emod_nonneg b (by decide)
  have lowerBelow : b % 65536 < 65536 := Int.emod_lt_of_pos b (by decide)
  have first : 0 ≤ a * (b / 65536) := Int.mul_nonneg smallA.nonnegative upper
  have firstBelow := mul_lt smallA.nonnegative upper smallA.below upperBelow
  have high := small_emod positive narrow (a * (b / 65536))
  have second : 0 ≤ a * (b % 65536) := Int.mul_nonneg smallA.nonnegative lower
  have secondBelow := mul_lt smallA.nonnegative lower smallA.below lowerBelow
  have highNonnegative := high.nonnegative
  have highBelow := high.below
  have product : mul a (floorDiv b 65536) = some (a * (b / 65536)) := by
    apply mul_eq
    · unfold LIMIT floorDiv
      omega
    · unfold LIMIT floorDiv
      omega
  have shifted : mul (a * (b / 65536) % p) 65536 = some (a * (b / 65536) % p * 65536) := by
    apply mul_eq
    · unfold LIMIT
      omega
    · unfold LIMIT
      omega
  have low : mul a (b % 65536) = some (a * (b % 65536)) := by
    apply mul_eq
    · unfold LIMIT
      omega
    · unfold LIMIT
      omega
  have sum : add (a * (b / 65536) % p * 65536) (a * (b % 65536)) =
      some (a * (b / 65536) % p * 65536 + a * (b % 65536)) := by
    apply add_eq
    · unfold LIMIT
      omega
    · unfold LIMIT
      omega
  have whole : (a * (b / 65536) % p * 65536 + a * (b % 65536)) % p = a * b % p := by
    have shift : a * (b / 65536) % p * 65536 ≡ a * (b / 65536) * 65536 [ZMOD p] :=
      (Int.mod_modEq _ _).mul_right 65536
    have all := shift.add_right (a * (b % 65536))
    have same : a * (b / 65536) * 65536 + a * (b % 65536) = a * b := by
      calc a * (b / 65536) * 65536 + a * (b % 65536)
          = a * (65536 * (b / 65536) + b % 65536) := by ring
        _ = a * b := by rw [halves]
    rw [same] at all
    exact all
  rw [mulMod, product, Option.bind_eq_bind, Option.bind_some, rem_eq first, Option.bind_some,
    shifted, Option.bind_some, rem_eq smallB.nonnegative, Option.bind_some, low, Option.bind_some,
    sum, Option.bind_some, rem_eq (by omega), whole]

theorem powMod_eq {base p : Int} (smallBase : Small base) (positive : 1 < p) (narrow : p ≤ 2 ^ 31)
    (exponent : Nat) : powMod base exponent p = some (base ^ exponent % p) := by
  induction exponent with
  | zero => rw [powMod, pow_zero, Int.emod_eq_of_lt (by decide) positive]
  | succ exponent ih =>
      have before := small_emod (by omega) narrow (base ^ exponent)
      have times : base ^ exponent % p * base ≡ base ^ exponent * base [ZMOD p] :=
        (Int.mod_modEq _ _).mul_right base
      rw [powMod, ih, Option.bind_eq_bind, Option.bind_some,
        mulMod_eq before smallBase (by omega) narrow, pow_succ, times]

theorem leave_eq {h leaving lead p : Int} (smallH : Small h) (smallUnit : Small leaving)
    (smallLead : Small lead) (positive : 0 < p) (narrow : p ≤ 2 ^ 31) :
    leave h leaving lead p = some ((h - leaving * lead % p + p) % p) := by
  have gone := Int.emod_lt_of_pos (leaving * lead) positive
  have goneNonnegative := Int.emod_nonneg (leaving * lead) positive.ne'
  have nonnegative := smallH.nonnegative
  have below := smallH.below
  have difference : sub h (leaving * lead % p) = some (h - leaving * lead % p) := by
    apply sub_eq
    · unfold LIMIT
      omega
    · unfold LIMIT
      omega
  have sum : add (h - leaving * lead % p) p = some (h - leaving * lead % p + p) := by
    apply add_eq
    · unfold LIMIT
      omega
    · unfold LIMIT
      omega
  rw [leave, mulMod_eq smallUnit smallLead positive narrow, Option.bind_eq_bind, Option.bind_some,
    difference, Option.bind_some, sum, Option.bind_some, rem_eq (by omega)]

theorem enter_eq {h unit base p : Int} (smallH : Small h) (smallUnit : Small unit)
    (smallBase : Small base) (positive : 0 < p) (narrow : p ≤ 2 ^ 31) :
    enter h unit base p = some ((h * base % p + unit) % p) := by
  have product := small_emod positive narrow (h * base)
  have productNonnegative := product.nonnegative
  have productBelow := product.below
  have nonnegative := smallUnit.nonnegative
  have below := smallUnit.below
  have sum : add (h * base % p) unit = some (h * base % p + unit) := by
    apply add_eq
    · unfold LIMIT
      omega
    · unfold LIMIT
      omega
  rw [enter, mulMod_eq smallH smallBase positive narrow, Option.bind_eq_bind, Option.bind_some, sum,
    Option.bind_some, rem_eq (by omega)]

/-! ### The window slides -/

theorem small_unit (unit : UInt16) : Small (unit.toNat : Int) := by
  have below := unit.toNat_lt
  constructor
  · omega
  · omega

theorem small_B1 : Small B1 := ⟨by decide, by decide⟩

theorem small_B2 : Small B2 := ⟨by decide, by decide⟩

theorem positive_P1 : 0 < P1 := by decide

theorem positive_P2 : 0 < P2 := by decide

theorem narrow_P1 : P1 ≤ 2 ^ 31 := by decide

theorem narrow_P2 : P2 ≤ 2 ^ 31 := by decide

/-- The units before `i` that the hashes are of: those of the window, or all while it fills. -/
def held (text : JsString) (i : Nat) : JsString := (text.take i).drop (i - SEAL_SPAN_CHARS)

structure HashesOf (window : JsString) (hashes : Hashes) : Prop where
  first : hashes.h1 = polynomial B1 (units window) % P1
  second : hashes.h2 = polynomial B2 (units window) % P2

theorem HashesOf.smallFirst {window : JsString} {hashes : Hashes} (holds : HashesOf window hashes) :
    Small hashes.h1 := by
  rw [holds.first]
  exact small_emod positive_P1 narrow_P1 _

theorem HashesOf.smallSecond {window : JsString} {hashes : Hashes}
    (holds : HashesOf window hashes) : Small hashes.h2 := by
  rw [holds.second]
  exact small_emod positive_P2 narrow_P2 _

theorem length_held {text : JsString} {i : Nat} (inText : i ≤ text.length) :
    (held text i).length = min i SEAL_SPAN_CHARS := by
  rw [held, List.length_drop, List.length_take]
  omega

/-- A full window is the unit that leaves in front of the rest. -/
theorem held_eq_cons {text : JsString} {i : Nat} (full : SEAL_SPAN_CHARS ≤ i)
    (inText : i < text.length) :
    ∃ leaving, text[i - SEAL_SPAN_CHARS]? = some leaving ∧
      held text i = leaving :: (text.take i).drop (i + 1 - SEAL_SPAN_CHARS) := by
  have behind : i - SEAL_SPAN_CHARS < text.length := by
    unfold SEAL_SPAN_CHARS at *
    omega
  have taken : i - SEAL_SPAN_CHARS < (text.take i).length := by
    rw [List.length_take]
    unfold SEAL_SPAN_CHARS at *
    omega
  refine ⟨text[i - SEAL_SPAN_CHARS], List.getElem?_eq_getElem behind, ?_⟩
  rw [held, List.drop_eq_getElem_cons taken, List.getElem_take,
    show i - SEAL_SPAN_CHARS + 1 = i + 1 - SEAL_SPAN_CHARS by unfold SEAL_SPAN_CHARS at *; omega]

/-- What is left of the window once the leaving unit is out. -/
theorem leaveWindow_eq {text : JsString} {i : Nat} {hashes : Hashes} (inText : i < text.length)
    (holds : HashesOf (held text i) hashes) :
    ∃ left, leaveWindow text i hashes = some left ∧
      HashesOf ((text.take i).drop (i + 1 - SEAL_SPAN_CHARS)) left := by
  by_cases filling : i < SEAL_SPAN_CHARS
  · refine ⟨hashes, ?_, ?_⟩
    · rw [leaveWindow, if_pos filling]
      rfl
    · have whole : i - SEAL_SPAN_CHARS = i + 1 - SEAL_SPAN_CHARS := by omega
      rw [← whole]
      exact holds
  · have full : SEAL_SPAN_CHARS ≤ i := Nat.le_of_not_lt filling
    obtain ⟨leaving, isLeaving, isHeld⟩ := held_eq_cons full inText
    have count : (units ((text.take i).drop (i + 1 - SEAL_SPAN_CHARS))).length =
        SEAL_SPAN_CHARS - 1 := by
      have length := length_held inText.le
      rw [isHeld, List.length_cons] at length
      rw [units, List.length_map]
      omega
    have lead1 : LEAD1 = some (B1 ^ (SEAL_SPAN_CHARS - 1) % P1) :=
      powMod_eq small_B1 (by decide) (by decide) _
    have lead2 : LEAD2 = some (B2 ^ (SEAL_SPAN_CHARS - 1) % P2) :=
      powMod_eq small_B2 (by decide) (by decide) _
    have unit : charCodeAt text (i - SEAL_SPAN_CHARS) = some (leaving.toNat : Int) := by
      rw [charCodeAt, isLeaving]
      rfl
    have first := leave_eq holds.smallFirst (small_unit leaving)
      (small_emod positive_P1 narrow_P1 (B1 ^ (SEAL_SPAN_CHARS - 1))) positive_P1 narrow_P1
    have second := leave_eq holds.smallSecond (small_unit leaving)
      (small_emod positive_P2 narrow_P2 (B2 ^ (SEAL_SPAN_CHARS - 1))) positive_P2 narrow_P2
    refine ⟨⟨(hashes.h1 - leaving.toNat * (B1 ^ (SEAL_SPAN_CHARS - 1) % P1) % P1 + P1) % P1,
      (hashes.h2 - leaving.toNat * (B2 ^ (SEAL_SPAN_CHARS - 1) % P2) % P2 + P2) % P2⟩, ?_, ?_⟩
    · rw [leaveWindow, if_neg filling, lead1, lead2, unit, Option.bind_eq_bind, Option.bind_some,
        Option.bind_some, first, Option.bind_some, Option.bind_some, second]
      rfl
    · have isFirst := holds.first
      have isSecond := holds.second
      rw [isHeld] at isFirst isSecond
      constructor
      · rw [← count]
        exact polynomial_leaves isFirst
      · rw [← count]
        exact polynomial_leaves isSecond

theorem slide_eq {text : JsString} {i : Nat} {hashes : Hashes} (inText : i < text.length)
    (holds : HashesOf (held text i) hashes) :
    ∃ next, slide text i hashes = some next ∧ HashesOf (held text (i + 1)) next := by
  obtain ⟨left, leaves, isLeft⟩ := leaveWindow_eq inText holds
  have unit : charCodeAt text i = some (text[i].toNat : Int) := by
    rw [charCodeAt, List.getElem?_eq_getElem inText]
    rfl
  have first := enter_eq isLeft.smallFirst (small_unit text[i]) small_B1 positive_P1 narrow_P1
  have second := enter_eq isLeft.smallSecond (small_unit text[i]) small_B2 positive_P2 narrow_P2
  have grown : units (held text (i + 1)) =
      units ((text.take i).drop (i + 1 - SEAL_SPAN_CHARS)) ++ [(text[i].toNat : Int)] := by
    have inside : i + 1 - SEAL_SPAN_CHARS ≤ (text.take i).length := by
      rw [List.length_take]
      unfold SEAL_SPAN_CHARS
      omega
    rw [held, List.take_succ_eq_append_getElem inText, List.drop_append_of_le_length inside, units,
      List.map_append]
    rfl
  refine ⟨⟨(left.h1 * B1 % P1 + text[i].toNat) % P1, (left.h2 * B2 % P2 + text[i].toNat) % P2⟩,
    ?_, ?_⟩
  · rw [slide, unit, leaves, Option.bind_eq_bind, Option.bind_some, Option.bind_eq_bind,
      Option.bind_some, first, Option.bind_some, second]
    rfl
  · constructor
    · rw [grown]
      exact polynomial_grows isLeft.first _
    · rw [grown]
      exact polynomial_grows isLeft.second _

theorem packKey_eq {window : JsString} {hashes : Hashes} (holds : HashesOf window hashes) :
    packKey hashes = some (windowKey window) ∧ 0 ≤ windowKey window ∧ windowKey window < LIMIT := by
  have firstNonnegative := Int.emod_nonneg (polynomial B1 (units window)) (show P1 ≠ 0 by decide)
  have firstBelow := Int.emod_lt_of_pos (polynomial B1 (units window)) (show 0 < P1 by decide)
  have second := Int.emod_nonneg (polynomial B2 (units window) % P2)
    (show SECOND_BITS ≠ 0 by decide)
  have secondBelow := Int.emod_lt_of_pos (polynomial B2 (units window) % P2)
    (show 0 < SECOND_BITS by decide)
  have secondNonnegative := holds.smallSecond.nonnegative
  rw [holds.second] at secondNonnegative
  unfold P1 at firstNonnegative firstBelow
  unfold SECOND_BITS at second secondBelow
  have product : mul (polynomial B1 (units window) % P1) SECOND_BITS =
      some (polynomial B1 (units window) % P1 * SECOND_BITS) := by
    apply mul_eq
    · unfold LIMIT SECOND_BITS P1
      omega
    · unfold LIMIT SECOND_BITS P1
      omega
  have bounds : 0 ≤ windowKey window ∧ windowKey window < LIMIT := by
    unfold windowKey LIMIT SECOND_BITS P1
    constructor
    · omega
    · omega
  refine ⟨?_, bounds⟩
  rw [packKey, holds.first, holds.second, product, Option.bind_eq_bind, Option.bind_some,
    rem_eq secondNonnegative, Option.bind_some]
  exact add_eq (by unfold windowKey LIMIT at bounds; unfold LIMIT; omega) bounds.2

/-! ### Every window once, in order -/

theorem held_succ_eq_windowAt {text : JsString} {i : Nat} (full : SEAL_SPAN_CHARS - 1 ≤ i) :
    held text (i + 1) = windowAt text i := by
  have start : i + 1 - SEAL_SPAN_CHARS = i - (SEAL_SPAN_CHARS - 1) := by
    unfold SEAL_SPAN_CHARS
    omega
  have count : i + 1 - (i - (SEAL_SPAN_CHARS - 1)) = SEAL_SPAN_CHARS := by
    unfold SEAL_SPAN_CHARS at *
    omega
  rw [held, windowAt, List.drop_take, start, count]

section
variable {State : Type} (visit : State → Int → State × Bool)

/-- The keys of the windows that end at the positions from `i` on. -/
def keysFrom (text : JsString) (remaining i : Nat) : List Int :=
  ((List.range' i remaining).filter fun place => SEAL_SPAN_CHARS - 1 ≤ place).map fun place =>
    windowKey (windowAt text place)

/-- By induction on the units that remain: before each, the hashes are those of the window. -/
theorem windowLoop_eq {text : JsString} (remaining i : Nat) (hashes : Hashes) (state : State)
    (rest : i + remaining = text.length) (holds : HashesOf (held text i) hashes) :
    windowLoop visit text remaining i hashes state =
      some (visitUntil visit (keysFrom text remaining i) state) := by
  induction remaining generalizing i hashes state with
  | zero => rfl
  | succ remaining ih =>
      obtain ⟨next, slides, isNext⟩ := slide_eq (by omega) holds
      have onwards := fun after => ih (i + 1) next after (by omega) isNext
      rw [windowLoop, slides, Option.bind_eq_bind, Option.bind_some, keysFrom, List.range'_succ]
      by_cases full : SEAL_SPAN_CHARS - 1 ≤ i
      · rw [held_succ_eq_windowAt full] at isNext
        have kept : (decide (SEAL_SPAN_CHARS - 1 ≤ i)) = true := decide_eq_true full
        rw [if_pos full, (packKey_eq isNext).1, Option.bind_eq_bind, Option.bind_some,
          List.filter_cons, if_pos kept, List.map_cons, visitUntil]
        cases visit state (windowKey (windowAt text i)) with
        | mk after found =>
            cases found with
            | true => rfl
            | false => exact onwards after
      · have skipped : ¬ decide (SEAL_SPAN_CHARS - 1 ≤ i) = true := fun is =>
          full (of_decide_eq_true is)
        rw [if_neg full, List.filter_cons, if_neg skipped]
        exact onwards state

/-- The loop over doubles is exact, and visits the key of every window, computed from scratch, once
and in order until the visitor stops it. -/
theorem eachWindowKey_eq (normalized : JsString) (state : State) :
    eachWindowKey visit normalized state =
        some (visitUntil visit
          ((windowEnds normalized).map fun i => windowKey (windowAt normalized i)) state) ∧
      ∀ window, 0 ≤ windowKey window ∧ windowKey window < LIMIT := by
  have bounds (window : JsString) : 0 ≤ windowKey window ∧ windowKey window < LIMIT :=
    (@packKey_eq window ⟨_, _⟩ ⟨rfl, rfl⟩).2
  refine ⟨?_, bounds⟩
  have start : HashesOf (held normalized 0) ⟨0, 0⟩ := ⟨rfl, rfl⟩
  have loop := windowLoop_eq visit normalized.length 0 ⟨0, 0⟩ state (Nat.zero_add _) start
  rw [eachWindowKey]
  by_cases short : normalized.length < SEAL_SPAN_CHARS
  · have nowhere : windowEnds normalized = [] := by
      apply List.filter_eq_nil_iff.mpr
      intro i isIn
      have inText := List.mem_range.mp isIn
      rw [decide_eq_true_eq]
      unfold SEAL_SPAN_CHARS at *
      omega
    rw [if_pos short, nowhere]
    rfl
  · rw [if_neg short, loop, keysFrom, windowEnds, List.range_eq_range']

end

end NextTime.EvalSeal
