import Mathlib.Data.List.Sort

/-
The kernel's list of revoked Handles, one page at a time. Postgres keeps
`revoked_at` to the microsecond and the wire carries milliseconds: the times of
a row are microseconds here, those of an answer milliseconds.
-/

namespace NextTime.LlmProxy

/-- A row of `capability_handles` with a `revoked_at`. A `jti` is a UUID, ordered as its number. -/
structure RevokedHandle where
  jti : Nat
  revokedAt : Nat
  expiresAt : Nat
deriving DecidableEq, Repr

structure RevocationCursor where
  revokedAt : Nat
  jti : Nat
deriving DecidableEq, Repr

namespace RevocationCursor

/-- `(revoked_at, jti) > cursor`. -/
def before (cursor : RevocationCursor) (row : RevokedHandle) : Bool :=
  decide (cursor.revokedAt < row.revokedAt) ||
    decide (cursor.revokedAt = row.revokedAt) && decide (cursor.jti < row.jti)

theorem before_iff {cursor : RevocationCursor} {row : RevokedHandle} :
    cursor.before row = true ↔
      cursor.revokedAt < row.revokedAt ∨
        cursor.revokedAt = row.revokedAt ∧ cursor.jti < row.jti := by
  rw [before, Bool.or_eq_true, Bool.and_eq_true, decide_eq_true_iff, decide_eq_true_iff,
    decide_eq_true_iff]

end RevocationCursor

namespace RevokedHandle

def cursor (row : RevokedHandle) : RevocationCursor :=
  { revokedAt := row.revokedAt, jti := row.jti }

/-- `order by revoked_at asc, jti asc`. -/
def notAfter (row other : RevokedHandle) : Prop :=
  row.revokedAt < other.revokedAt ∨ row.revokedAt = other.revokedAt ∧ row.jti ≤ other.jti

instance : DecidableRel notAfter := fun _ _ =>
  inferInstanceAs (Decidable (_ ∨ _ ∧ _))

instance : Std.Total notAfter where
  total row other := by
    unfold notAfter
    omega

instance : IsTrans RevokedHandle notAfter where
  trans row other third first second := by
    unfold notAfter at first second ⊢
    omega

end RevokedHandle

/-- A Postgres time on the wire. -/
def millis (micros : Nat) : Nat := micros / 1000

structure RevocationPage where
  revoked : List RevokedHandle
  now : Nat
  next : Option RevocationCursor
deriving DecidableEq, Repr

/-- The rows of the query, in its order: revoked since, not expired, after the cursor. -/
def revokedSince (rows : List RevokedHandle) (clock : Nat) (since : Int)
    (after : Option RevocationCursor) : List RevokedHandle :=
  (rows.filter fun row =>
    decide (since * 1000 ≤ row.revokedAt) && decide (clock < row.expiresAt) &&
      after.all (·.before row)).insertionSort RevokedHandle.notAfter

/-- One row past the page proves there is a next one. The clock of the answer is read by
a statement of its own, just before. -/
def listRevokedSince (rows : List RevokedHandle) (now clock : Nat) (since : Int) (limit : Nat)
    (after : Option RevocationCursor) : RevocationPage :=
  let listed := revokedSince rows clock since after
  let page := listed.take limit
  { revoked := page
    now := millis now
    next := if limit < listed.length then page.getLast?.map (·.cursor) else none }

/-! ### What a page holds -/

theorem mem_revokedSince {rows : List RevokedHandle} {clock : Nat} {since : Int}
    {after : Option RevocationCursor} {row : RevokedHandle} :
    row ∈ revokedSince rows clock since after ↔
      row ∈ rows ∧ since * 1000 ≤ row.revokedAt ∧ clock < row.expiresAt ∧
        ∀ cursor, after = some cursor → cursor.before row = true := by
  unfold revokedSince
  rw [List.mem_insertionSort, List.mem_filter, Bool.and_eq_true, Bool.and_eq_true,
    decide_eq_true_iff, decide_eq_true_iff, Option.all_eq_true]
  constructor
  · intro held
    exact ⟨held.1, held.2.1.1, held.2.1.2, held.2.2⟩
  · intro held
    exact ⟨held.1, ⟨held.2.1, held.2.2.1⟩, held.2.2.2⟩

theorem pairwise_revokedSince (rows : List RevokedHandle) (clock : Nat) (since : Int)
    (after : Option RevocationCursor) :
    (revokedSince rows clock since after).Pairwise RevokedHandle.notAfter :=
  List.pairwise_insertionSort _ _

/-- In order and not the same row: strictly behind. -/
theorem before_of_notAfter {row other : RevokedHandle} (ordered : row.notAfter other)
    (different : other.cursor ≠ row.cursor) : row.cursor.before other = true := by
  unfold RevokedHandle.notAfter at ordered
  have apart : ¬ (other.revokedAt = row.revokedAt ∧ other.jti = row.jti) := by
    intro same
    apply different
    unfold RevokedHandle.cursor
    rw [same.1, same.2]
  rw [RevocationCursor.before_iff]
  change row.revokedAt < other.revokedAt ∨ row.revokedAt = other.revokedAt ∧ row.jti < other.jti
  omega

/-- A listed row is on the page, or there is a next page and the row is past its cursor,
unless it stands at the very place of the page's last row. -/
theorem listed_or_next {rows : List RevokedHandle} {now clock : Nat} {since : Int} {limit : Nat}
    {after : Option RevocationCursor} (room : 0 < limit) {row : RevokedHandle}
    (listed : row ∈ revokedSince rows clock since after) :
    (∃ shown ∈ (listRevokedSince rows now clock since limit after).revoked,
        shown.cursor = row.cursor) ∨
      ∃ cursor, (listRevokedSince rows now clock since limit after).next = some cursor ∧
        cursor.before row = true := by
  have ordered := pairwise_revokedSince rows clock since after
  have parts := List.take_append_drop limit (revokedSince rows clock since after)
  rw [← parts, List.pairwise_append] at ordered
  rw [← parts, List.mem_append] at listed
  cases listed with
  | inl onPage => exact Or.inl ⟨row, onPage, rfl⟩
  | inr later =>
      have more : limit < (revokedSince rows clock since after).length := by
        have some' : 0 < ((revokedSince rows clock since after).drop limit).length :=
          List.length_pos_of_mem later
        rw [List.length_drop] at some'
        omega
      have filled : (revokedSince rows clock since after).take limit ≠ [] := by
        apply List.ne_nil_of_length_pos
        rw [List.length_take]
        omega
      have last := List.getLast?_eq_some_getLast filled
      have shown := List.getLast_mem filled
      by_cases same : row.cursor = (((revokedSince rows clock since after).take limit).getLast
          filled).cursor
      · exact Or.inl ⟨_, shown, same.symm⟩
      · apply Or.inr
        refine ⟨_, ?_, before_of_notAfter (ordered.2.2 _ shown row later) same⟩
        simp only [listRevokedSince, if_pos more, last, Option.map_some]

/-- The cursor of the next page is the place of this page's last row. -/
theorem next_last {rows : List RevokedHandle} {now clock : Nat} {since : Int} {limit : Nat}
    {after : Option RevocationCursor} {cursor : RevocationCursor}
    (next : (listRevokedSince rows now clock since limit after).next = some cursor) :
    ∃ row, (listRevokedSince rows now clock since limit after).revoked.getLast? = some row ∧
      cursor = row.cursor := by
  simp only [listRevokedSince] at next ⊢
  split at next
  next =>
    obtain ⟨row, last, equal⟩ := Option.map_eq_some_iff.mp next
    exact ⟨row, last, equal.symm⟩
  next => cases next

end NextTime.LlmProxy
