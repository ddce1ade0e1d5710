import LightClient.Bytes.Cursor
import Mathlib.Algebra.GroupWithZero.Nat
/-!
# Reading what a layout has written

A value's bytes, with anything behind them, are read as that value, and the cursor then stands at what is
behind (`next_append`). So a program of reads on a record that was written field by field reads the fields
one by one (`run_value_bind`). Of a record that ends before its fields do, the failure names the end of the
first field that is not whole (`Read.Needs`, `cutEnd`).
-/
namespace LightClient

variable {α β : Type}

namespace Layout

theorem bytes_pair (A : Layout α) (B : Layout β) (p : α × β) :
    (A.pair B).bytes p = A.bytes p.1 ++ B.bytes p.2 := rfl

theorem bytes_map (A : Layout α) (read : α → β) (write : β → α) (h : ∀ a, write (read a) = a)
    (h' : ∀ b, read (write b) = b) (b : β) : (A.map read write h h').bytes b = A.bytes (write b) := rfl

theorem parse_eq_error_iff (L : Layout α) (record : String) (bs : Bytes) (flaw : Malformed) :
    L.parse record bs = .error flaw ↔ bs.length ≠ L.size ∧ flaw = ⟨record, L.size, bs.length⟩ := by
  unfold parse
  split
  · rename_i h
    simp [h]
  · rename_i h
    simp [h, eq_comm]

theorem exists_parse_eq_ok_iff (L : Layout α) (record : String) (bs : Bytes) :
    (∃ a, L.parse record bs = .ok a) ↔ bs.length = L.size := by
  unfold parse
  split
  · rename_i h
    simp [h]
  · rename_i h
    simp [h]

/-- Enough bytes begin with those of some value. -/
theorem exists_bytes_append (L : Layout α) {bs : Bytes} (h : L.size ≤ bs.length) :
    ∃ a rest, bs = L.bytes a ++ rest := by
  have hlen : (bs.take L.size).length = L.size := List.length_take_of_le h
  refine ⟨L.decode ⟨bs.take L.size, hlen⟩, bs.drop L.size, ?_⟩
  rw [bytes, L.encode_decode, List.take_append_drop]

end Layout

/-- The place after `n` bytes, with the bytes that are behind it. -/
def Cursor.advance (c : Cursor) (n : Nat) (rest : Bytes) : Cursor := ⟨c.record, c.consumed + n, rest⟩

theorem Cursor.next_append {L : Layout α} {c : Cursor} {a : α} {rest : Bytes}
    (h : c.rest = L.bytes a ++ rest) : c.next L = (.ok a, c.advance L.size rest) := by
  have hlen : (L.bytes a).length = L.size := L.length_bytes a
  have hle : L.size ≤ c.remaining := by
    rw [remaining, h, List.length_append, hlen]
    exact Nat.le_add_right _ _
  have htake : c.rest.take L.size = L.bytes a := by rw [h, List.take_left' hlen]
  have hdrop : c.rest.drop L.size = rest := by rw [h, List.drop_left' hlen]
  have hdecode (o : Octets L.size) (ho : o.toList = L.bytes a) : L.decode o = a := by
    rw [show o = L.encode a from Tuple.ext ho, L.decode_encode]
  simp only [next, take, hle, dite_true, Except.map, hdrop, advance]
  rw [hdecode _ htake]

namespace Read

theorem octets_eq_value (n : Nat) : octets n = value (Layout.octets n) := by
  funext c
  simp only [octets, value, Cursor.next, ExceptT.mk, Layout.octets]
  rcases c.take n with ⟨_ | o, c'⟩ <;> rfl

theorem run_bind_of_ok {program : Read α} {c c' : Cursor} {a : α} (h : ExceptT.run program c = (.ok a, c'))
    (f : α → Read β) : ExceptT.run (program >>= f) c = ExceptT.run (f a) c' := by
  rw [ExceptT.run_bind]
  simp only [bind, StateT.bind, h]

/-- A program that ends by renaming what another one has read. -/
theorem fst_run_bind_pure (program : Read α) (f : α → β) (c : Cursor) :
    (ExceptT.run (program >>= fun a => pure (f a)) c).1 = (ExceptT.run program c).1.map f := by
  rw [ExceptT.run_bind]
  simp only [bind, StateT.bind]
  rcases ExceptT.run program c with ⟨_ | a, c'⟩ <;> rfl

theorem run_value_bind {L : Layout α} (f : α → Read β) {c : Cursor} {a : α} {rest : Bytes}
    (h : c.rest = L.bytes a ++ rest) :
    ExceptT.run (value L >>= f) c = ExceptT.run (f a) (c.advance L.size rest) :=
  run_bind_of_ok (Cursor.next_append h) f

theorem run_remaining_bind (f : Nat → Read β) (c : Cursor) :
    ExceptT.run (remaining >>= f) c = ExceptT.run (f c.remaining) c := rfl

end Read

/-! ## Records that end before their fields do -/

/-- Of fields that follow each other, the end of the first one that is not whole in `n` bytes. -/
def cutEnd : List Nat → Nat → Nat
  | [], _ => 0
  | size :: sizes, n => if n < size then size else size + cutEnd sizes (n - size)

theorem lt_cutEnd {sizes : List Nat} {n : Nat} (h : n < sizes.sum) :
    n < cutEnd sizes n ∧ cutEnd sizes n ≤ sizes.sum := by
  induction sizes generalizing n with
  | nil => simp at h
  | cons size sizes ih =>
    rw [List.sum_cons] at h ⊢
    rw [cutEnd]
    split
    · omega
    · have := ih (n := n - size) (by omega)
      omega

theorem Cursor.next_of_short {L : Layout α} {c : Cursor} (h : c.remaining < L.size) :
    c.next L = (.error ⟨c.record, c.consumed + L.size, c.total⟩, c) := by
  simp only [next, take, Nat.not_le.mpr h, dite_false, Except.map]

namespace Read

/-- A program that reads fields of some sizes, whatever they hold: from fewer bytes it fails, and names the end
of the field that it could not read. -/
def Needs (program : Read α) (sizes : List Nat) : Prop :=
  ∀ c : Cursor, c.remaining < sizes.sum →
    (ExceptT.run program c).1 = .error ⟨c.record, c.consumed + cutEnd sizes c.remaining, c.total⟩

theorem needs_nil (program : Read α) : Needs program [] := fun _ h => absurd h (Nat.not_lt_zero _)

theorem needs_value_bind {L : Layout α} {f : α → Read β} {sizes : List Nat} (h : ∀ a, Needs (f a) sizes) :
    Needs (value L >>= f) (L.size :: sizes) := by
  intro c hc
  rw [List.sum_cons] at hc
  by_cases hshort : c.remaining < L.size
  · have hfail : ExceptT.run (value L) c = (.error ⟨c.record, c.consumed + L.size, c.total⟩, c) :=
      Cursor.next_of_short hshort
    rw [ExceptT.run_bind]
    simp only [bind, StateT.bind, hfail, cutEnd, hshort, if_true]
    rfl
  · obtain ⟨a, rest, hrest⟩ := L.exists_bytes_append (Nat.not_lt.mp hshort)
    have hlength : c.remaining = L.size + rest.length := by
      rw [Cursor.remaining, hrest, List.length_append, Layout.length_bytes]
    have hafter : (c.advance L.size rest).remaining = c.remaining - L.size := by
      simp only [Cursor.advance, Cursor.remaining] at hlength ⊢
      omega
    rw [run_value_bind f hrest, h a _ (by omega), hafter, cutEnd, if_neg hshort]
    simp only [Cursor.advance, Cursor.total, Cursor.remaining] at hlength ⊢
    congr 2 <;> omega

end Read

/-! ## Numbers at a place -/

/-- The number that two bytes spell at a place. -/
def numberAt (place : Nat) (bs : Bytes) : Nat := leNat ((bs.drop place).take 2)

theorem numberAt_bytes {L : Layout α} {place : Nat} (h : L.size ≤ place) (a : α) (rest : Bytes) :
    numberAt place (L.bytes a ++ rest) = numberAt (place - L.size) rest := by
  have hlength : (L.bytes a).length = L.size := L.length_bytes a
  rw [numberAt, numberAt, ← Nat.add_sub_cancel' h, ← List.drop_drop, List.drop_left' hlength, Nat.add_sub_cancel_left]

theorem numberAt_append {place : Nat} {bs : Bytes} (h : place + 2 ≤ bs.length) (rest : Bytes) :
    numberAt place (bs ++ rest) = numberAt place bs := by
  rw [numberAt, List.drop_append_of_le_length (by omega), List.take_append_of_le_length, numberAt]
  rw [List.length_drop]
  omega

theorem numberAt_u16 (n : UInt16) (rest : Bytes) : numberAt 0 (Layout.u16.bytes n ++ rest) = n.toNat := by
  have hlength : (Layout.u16.bytes n).length = 2 := Layout.length_bytes ..
  rw [numberAt, List.drop_zero, List.take_left' hlength]
  exact leNat_leBytes_of_lt n.toNat_lt

end LightClient
