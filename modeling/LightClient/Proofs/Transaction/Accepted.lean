import LightClient.Proofs.Transaction.Next
/-!
# Which bytes are a record

A byte string is read as a transaction exactly if it is the transaction's record and the input is not too long. What
else there is falls into two kinds (`ofBytes_cases`). A fixed part that declares too long an input breaks the
protocol, whatever is behind it. Everything else is malformed: the failure names the length that was needed, which
is that of the record that the fixed part declares, or, where the fixed part itself is cut, the end of its first
field that is not whole.

A record declares the length of its input in two bytes, so of a longer input only the remainder modulo 65536. It is
never read back: either the remainder is too long, or the record is longer than it declares
(`ofBytes_toBytes_of_long`).
-/
namespace LightClient

namespace Transfer.FixedPart

/-- The sizes of the fields of a fixed part. -/
def fieldSizes : List Nat := [32, 32, 8, 4, 2, 2]

theorem needs_read : Read.Needs read fieldSizes :=
  Read.needs_value_bind fun _ => Read.needs_value_bind fun _ => Read.needs_value_bind fun _ =>
    Read.needs_value_bind fun _ => Read.needs_value_bind fun _ => Read.needs_value_bind fun _ => Read.needs_nil _

end Transfer.FixedPart

namespace Transaction

variable {bs : Bytes} {t : Transaction} {e : Error}

/-- The number of input bytes that the fixed part of a record declares. -/
def declaredInput (bs : Bytes) : Nat := numberAt 78 bs

/-- The fixed part is whole and declares more input than is accepted. -/
def Overlong (bs : Bytes) : Prop := 80 ≤ bs.length ∧ 1024 < declaredInput bs

instance : Decidable (Overlong bs) := inferInstanceAs (Decidable (_ ∧ _))

/-- How long the bytes would have to be, as far as they say it. -/
def neededLength (bs : Bytes) : Nat :=
  if bs.length < 80 then cutEnd Transfer.FixedPart.fieldSizes bs.length else 80 + declaredInput bs + 64

/-- Enough bytes begin with a fixed part, which is read unless it declares too long an input. -/
theorem exists_fixedPart (h : 80 ≤ bs.length) :
    ∃ part rest, bs = Transfer.FixedPart.layout.bytes part ++ rest ∧ bs.length = 80 + rest.length ∧
      part.inputSize.toNat = declaredInput bs ∧
      readFixedPart bs =
        if 1024 < declaredInput bs then .error (.protocolViolation (.longInput (declaredInput bs))) else .ok part := by
  obtain ⟨part, rest, rfl⟩ := Transfer.FixedPart.layout.exists_bytes_append h
  have hdeclared : declaredInput (Transfer.FixedPart.layout.bytes part ++ rest) = part.inputSize.toNat :=
    part.numberAt_inputSize rest
  refine ⟨part, rest, rfl, ?_, hdeclared.symm, ?_⟩
  · rw [List.length_append, length_fixedPart, Transfer.FixedPart.size]
  · rw [hdeclared]
    exact readFixedPart_bytes part rest

/-! ## What is refused -/

theorem ofBytes_of_short (h : bs.length < 80) :
    ofBytes bs = .error (.malformed ⟨"transaction", neededLength bs, bs.length⟩) := by
  have hread : Read.run Transfer.FixedPart.read "transaction" bs =
      .error ⟨"transaction", 0 + cutEnd Transfer.FixedPart.fieldSizes bs.length, 0 + bs.length⟩ :=
    Transfer.FixedPart.needs_read (Cursor.start "transaction" bs) h
  rw [Nat.zero_add, Nat.zero_add] at hread
  simp only [ofBytes, readFixedPart, hread, Outcome.ofRecord_error, neededLength, h, if_true, bind, Except.bind]

theorem ofBytes_of_overlong (h : Overlong bs) :
    ofBytes bs = .error (.protocolViolation (.longInput (declaredInput bs))) := by
  obtain ⟨hsize, hlong⟩ := h
  obtain ⟨part, -, -, -, -, hpart⟩ := exists_fixedPart hsize
  rw [if_pos hlong] at hpart
  simp only [ofBytes, hpart, bind, Except.bind]

/-- With a fixed part that is whole, the length decides. -/
theorem ofBytes_of_fits (hsize : 80 ≤ bs.length) (hfits : declaredInput bs ≤ 1024) :
    if bs.length = 80 + declaredInput bs + 64 then ∃ t, ofBytes bs = .ok t
    else ofBytes bs = .error (.malformed ⟨"transaction", 80 + declaredInput bs + 64, bs.length⟩) := by
  obtain ⟨part, rest, hbytes, hlength, hdeclared, hpart⟩ := exists_fixedPart hsize
  by_cases hwhole : bs.length = 80 + declaredInput bs + 64
  · rw [if_pos hwhole]
    obtain ⟨t, rest', hrecord, hinput, hsame⟩ := exists_record part rest (by
      rw [hdeclared, signatureSize]
      omega)
    have hshort : t.body.input.length ≤ Transfer.maxInput := by
      rw [hinput, hdeclared]
      exact hfits
    -- The record is as long as the bytes, so nothing is behind it.
    have hlengths := congrArg List.length (hbytes.trans hrecord)
    rw [List.length_append, length_toBytes hshort, hsame, recordSize, hdeclared] at hlengths
    simp only [Transfer.FixedPart.size, signatureSize] at hlengths
    obtain rfl : rest' = [] := List.length_eq_zero_iff.mp (by omega)
    rw [List.append_nil] at hrecord
    exact ⟨t, ofBytes_eq_ok_iff.mpr ⟨hbytes.trans hrecord, hshort⟩⟩
  · rw [if_neg hwhole]
    rw [if_neg (Nat.not_lt.mpr hfits)] at hpart
    have hneeded : recordSize part = 80 + declaredInput bs + 64 := by
      rw [recordSize, hdeclared]
      rfl
    simp only [ofBytes, hpart, expectLength, hneeded, hwhole, if_false, Outcome.ofRecord_error, bind, Except.bind]

/-- Reading accepts the bytes, or finds too long an input declared, or another length than was needed. -/
theorem ofBytes_cases (bs : Bytes) :
    (¬ Overlong bs ∧ bs.length = neededLength bs ∧ ∃ t, ofBytes bs = .ok t) ∨
    (Overlong bs ∧ ofBytes bs = .error (.protocolViolation (.longInput (declaredInput bs)))) ∨
    (¬ Overlong bs ∧ bs.length ≠ neededLength bs ∧
      ofBytes bs = .error (.malformed ⟨"transaction", neededLength bs, bs.length⟩)) := by
  by_cases hlong : Overlong bs
  · exact .inr (.inl ⟨hlong, ofBytes_of_overlong hlong⟩)
  by_cases hshort : bs.length < 80
  · have hinside : bs.length < Transfer.FixedPart.fieldSizes.sum := hshort
    have hcut := (lt_cutEnd hinside).1
    refine .inr (.inr ⟨hlong, ?_, ofBytes_of_short hshort⟩)
    rw [neededLength, if_pos hshort]
    exact Nat.ne_of_lt hcut
  · have hsize : 80 ≤ bs.length := Nat.not_lt.mp hshort
    have hfits : declaredInput bs ≤ 1024 := Nat.not_lt.mp fun h => hlong ⟨hsize, h⟩
    have hread := ofBytes_of_fits hsize hfits
    have hneeded : neededLength bs = 80 + declaredInput bs + 64 := if_neg hshort
    rw [hneeded]
    by_cases hwhole : bs.length = 80 + declaredInput bs + 64
    · rw [if_pos hwhole] at hread
      exact .inl ⟨hlong, hwhole, hread⟩
    · rw [if_neg hwhole] at hread
      exact .inr (.inr ⟨hlong, hwhole, hread⟩)

theorem ofBytes_eq_error_iff :
    ofBytes bs = .error e ↔
      (Overlong bs ∧ e = .protocolViolation (.longInput (declaredInput bs))) ∨
      (¬ Overlong bs ∧ bs.length ≠ neededLength bs ∧
        e = .malformed ⟨"transaction", neededLength bs, bs.length⟩) := by
  rcases ofBytes_cases bs with ⟨hfits, hlength, t, hread⟩ | ⟨hlong, hread⟩ | ⟨hfits, hlength, hread⟩ <;> rw [hread]
  · simp [hfits, hlength]
  · simp [hlong, eq_comm]
  · simp [hfits, hlength, eq_comm]

/-! ## Inputs that are too long -/

theorem declaredInput_toBytes (t : Transaction) : declaredInput t.toBytes = t.body.input.length % 65536 := by
  have hdeclared := t.body.fixedPart.numberAt_inputSize (t.body.input ++ (t.signature.octets.toList ++ []))
  rw [← toBytes_append, List.append_nil] at hdeclared
  exact hdeclared.trans (UInt16.toNat_ofNat' ..)

/-- The record of a transaction with too long an input is refused, also where it declares a short one. -/
theorem ofBytes_toBytes_of_long (h : 1024 < t.body.input.length) :
    ofBytes t.toBytes =
      if 1024 < t.body.input.length % 65536 then
        .error (.protocolViolation (.longInput (t.body.input.length % 65536)))
      else
        .error (.malformed
          ⟨"transaction", 144 + t.body.input.length % 65536, 144 + t.body.input.length⟩) := by
  have hlength : t.toBytes.length = 144 + t.body.input.length := by
    rw [length_toBytes_eq, Transfer.FixedPart.size, signatureSize]
    omega
  have hsize : 80 ≤ t.toBytes.length := by omega
  by_cases hlong : 1024 < t.body.input.length % 65536
  · rw [if_pos hlong, ofBytes_of_overlong ⟨hsize, by rwa [declaredInput_toBytes]⟩, declaredInput_toBytes]
  · have hread := ofBytes_of_fits hsize (by rw [declaredInput_toBytes]; omega)
    rw [declaredInput_toBytes, hlength, if_neg (by omega)] at hread
    rw [if_neg hlong, hread]
    congr 3
    omega

/-! ## The exact reading -/

/-- **Reading a record, exactly.** What is accepted is the record of a transaction whose input is at most 1024 bytes
long, and nothing else. Other bytes break the protocol if their fixed part is whole and declares more, and are
malformed if not. In particular no transaction with a longer input is read back from its record. -/
theorem ofBytes_exact (bs : Bytes) :
    (∀ t, ofBytes bs = .ok t ↔ bs = t.toBytes ∧ t.body.input.length ≤ 1024) ∧
    (∀ e, ofBytes bs = .error e ↔
      (80 ≤ bs.length ∧ 1024 < declaredInput bs ∧ e = .protocolViolation (.longInput (declaredInput bs))) ∨
      (¬ (80 ≤ bs.length ∧ 1024 < declaredInput bs) ∧ bs.length ≠ neededLength bs ∧
        e = .malformed ⟨"transaction", neededLength bs, bs.length⟩)) ∧
    ∀ t : Transaction, ofBytes t.toBytes =
      if t.body.input.length ≤ 1024 then .ok t
      else if 1024 < t.body.input.length % 65536 then
        .error (.protocolViolation (.longInput (t.body.input.length % 65536)))
      else
        .error (.malformed
          ⟨"transaction", 144 + t.body.input.length % 65536, 144 + t.body.input.length⟩) := by
  refine ⟨fun t => ofBytes_eq_ok_iff, fun e => ?_, fun t => ?_⟩
  · rw [ofBytes_eq_error_iff, Overlong, and_assoc]
  · by_cases hfits : t.body.input.length ≤ 1024
    · rw [if_pos hfits, ofBytes_toBytes hfits]
    · rw [if_neg hfits, ofBytes_toBytes_of_long (Nat.not_le.mp hfits)]

end Transaction

end LightClient
