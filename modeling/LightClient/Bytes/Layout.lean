import LightClient.Bytes.Malformed
import LightClient.Bytes.Tuple
/-!
# Fixed layouts

A `Layout α` gives the values of `α` a size in bytes and a one-to-one correspondence with the byte
strings of that size. Layouts are built from those of single numbers and byte strings by placing one
after the other (`pair`), by repeating one (`tuple`) and by renaming (`map`), and each of these
keeps the two laws `decode_encode` and `encode_decode`. So a record with a layout is read exactly
when its length is right, and what was read is written back byte for byte
(`parse_bytes`, `parse_eq_ok_iff`).
-/
namespace LightClient

/-- A correspondence between values and the byte strings of one size. -/
structure Layout (α : Type) where
  size : Nat
  encode : α → Octets size
  decode : Octets size → α
  decode_encode : ∀ a, decode (encode a) = a
  encode_decode : ∀ b, encode (decode b) = b

namespace Layout

variable {α β : Type}

/-- The bytes of a value. -/
def bytes (L : Layout α) (a : α) : Bytes := (L.encode a).toList

/-- The value that a record of the right length holds. -/
def parse (L : Layout α) (record : String) (bs : Bytes) : Except Malformed α :=
  if h : bs.length = L.size then .ok (L.decode ⟨bs, h⟩)
  else .error ⟨record, L.size, bs.length⟩

@[simp] theorem length_bytes (L : Layout α) (a : α) : (L.bytes a).length = L.size :=
  (L.encode a).length_toList

theorem parse_bytes (L : Layout α) (record : String) (a : α) :
    L.parse record (L.bytes a) = .ok a := by
  have h : (L.bytes a).length = L.size := L.length_bytes a
  simp only [parse, h, dite_true]
  exact congrArg Except.ok (L.decode_encode a)

theorem parse_eq_ok_iff (L : Layout α) (record : String) (bs : Bytes) (a : α) :
    L.parse record bs = .ok a ↔ bs = L.bytes a := by
  constructor
  · intro h
    simp only [parse] at h
    split at h
    · injection h with h
      subst h
      simp [bytes, L.encode_decode]
    · cases h
  · rintro rfl
    exact L.parse_bytes record a

theorem bytes_inj (L : Layout α) {a b : α} (h : L.bytes a = L.bytes b) : a = b := by
  have : L.encode a = L.encode b := Tuple.ext h
  rw [← L.decode_encode a, this, L.decode_encode]

/-! ## Numbers and byte strings -/

/-- A byte string of known length stands for itself. -/
def octets (n : Nat) : Layout (Octets n) where
  size := n
  encode b := b
  decode b := b
  decode_encode _ := rfl
  encode_decode _ := rfl

/-- A kind of number that the naturals below `256 ^ w` count without gap or repetition. -/
def number (w : Nat) (toNat : α → Nat) (ofNat : Nat → α) (lt : ∀ a, toNat a < Nat.pow 256 w)
    (ofNat_toNat : ∀ a, ofNat (toNat a) = a)
    (toNat_ofNat : ∀ n, n < Nat.pow 256 w → toNat (ofNat n) = n) : Layout α where
  size := w
  encode a := ⟨leBytes w (toNat a), length_leBytes w _⟩
  decode b := ofNat (leNat b.toList)
  decode_encode a := by
    rw [leNat_leBytes, Nat.mod_eq_of_lt (lt a), ofNat_toNat]
  encode_decode b := by
    ext1
    have h : leNat b.toList < Nat.pow 256 w := by
      simpa using leNat_lt b.toList
    rw [toNat_ofNat _ h]
    simpa using leBytes_leNat b.toList

/-- One byte. -/
def u8 : Layout UInt8 :=
  number 1 UInt8.toNat UInt8.ofNat (fun a => a.toNat_lt) (fun _ => UInt8.ofNat_toNat)
    (fun _ h => UInt8.toNat_ofNat_of_lt h)

/-- Two bytes, unsigned. -/
def u16 : Layout UInt16 :=
  number 2 UInt16.toNat UInt16.ofNat (fun a => a.toNat_lt) (fun _ => UInt16.ofNat_toNat)
    (fun _ h => UInt16.toNat_ofNat_of_lt h)

/-- Four bytes, unsigned. -/
def u32 : Layout UInt32 :=
  number 4 UInt32.toNat UInt32.ofNat (fun a => a.toNat_lt) (fun _ => UInt32.ofNat_toNat)
    (fun _ h => UInt32.toNat_ofNat_of_lt h)

/-- Eight bytes, unsigned. -/
def u64 : Layout UInt64 :=
  number 8 UInt64.toNat UInt64.ofNat (fun a => a.toNat_lt) (fun _ => UInt64.ofNat_toNat)
    (fun _ h => UInt64.toNat_ofNat_of_lt h)

/-! ## Composition -/

/-- One value after the other. -/
def pair (A : Layout α) (B : Layout β) : Layout (α × β) where
  size := A.size + B.size
  encode p := (A.encode p.1).append (B.encode p.2)
  decode b := (A.decode b.front, B.decode b.back)
  decode_encode p := by simp [A.decode_encode, B.decode_encode]
  encode_decode b := by simp [A.encode_decode, B.encode_decode]

/-- The same bytes under another name. -/
def map (A : Layout α) (read : α → β) (write : β → α) (write_read : ∀ a, write (read a) = a)
    (read_write : ∀ b, read (write b) = b) : Layout β where
  size := A.size
  encode b := A.encode (write b)
  decode o := read (A.decode o)
  decode_encode b := by rw [A.decode_encode, read_write]
  encode_decode o := by rw [write_read, A.encode_decode]

/-- Eight bytes, two's complement. -/
def i64 : Layout Int64 :=
  u64.map UInt64.toInt64 Int64.toUInt64 (fun a => a.toUInt64_toInt64) (fun b => b.toInt64_toUInt64)

/-- The bytes of each value of a list, one value after the other. -/
def listBytes (A : Layout α) : List α → Bytes
  | [] => []
  | a :: as => A.bytes a ++ A.listBytes as

/-- The first `n` values that a byte string of the right length holds. -/
def listOf (A : Layout α) : (n : Nat) → Octets (n * A.size) → List α
  | 0, _ => []
  | n + 1, b =>
    have h : (n + 1) * A.size = A.size + n * A.size := by rw [Nat.succ_mul, Nat.add_comm]
    let c : Octets (A.size + n * A.size) := ⟨b.toList, h ▸ b.length_toList⟩
    A.decode c.front :: A.listOf n c.back

theorem length_listBytes (A : Layout α) (as : List α) :
    (A.listBytes as).length = as.length * A.size := by
  induction as with
  | nil => simp [listBytes]
  | cons a as ih => simp [listBytes, ih, Nat.succ_mul, Nat.add_comm]

theorem length_listOf (A : Layout α) (n : Nat) (b : Octets (n * A.size)) :
    (A.listOf n b).length = n := by
  induction n with
  | zero => rfl
  | succ n ih => simp [listOf, ih]

theorem listBytes_listOf (A : Layout α) (n : Nat) (b : Octets (n * A.size)) :
    A.listBytes (A.listOf n b) = b.toList := by
  induction n with
  | zero =>
    have : b.toList = [] := List.length_eq_zero_iff.1 (by simp)
    simp [listOf, listBytes, this]
  | succ n ih => simp [listOf, listBytes, ih, bytes, A.encode_decode, Tuple.front, Tuple.back]

theorem listOf_listBytes (A : Layout α) (as : List α) (n : Nat) (b : Octets (n * A.size))
    (hn : as.length = n) (hb : b.toList = A.listBytes as) : A.listOf n b = as := by
  induction as generalizing n with
  | nil =>
    subst hn
    rfl
  | cons a as ih =>
    subst hn
    have hl : (A.encode a).toList.length = A.size := (A.encode a).length_toList
    simp only [List.length_cons, listOf]
    congr 1
    · rw [show Tuple.front _ = A.encode a from ?_, A.decode_encode]
      ext1
      simp [Tuple.front, hb, listBytes, bytes, hl]
    · apply ih _ _ rfl
      simp [Tuple.back, hb, listBytes, bytes, List.drop_left' hl]

/-- As many values as the tuple has, one after the other. -/
def tuple (n : Nat) (A : Layout α) : Layout (Tuple α n) where
  size := n * A.size
  encode t := ⟨A.listBytes t.toList, by rw [length_listBytes, t.length_toList]⟩
  decode b := ⟨A.listOf n b, A.length_listOf n b⟩
  decode_encode t := by
    ext1
    exact A.listOf_listBytes t.toList n _ t.length_toList rfl
  encode_decode b := by
    ext1
    exact A.listBytes_listOf n b

end Layout

end LightClient
