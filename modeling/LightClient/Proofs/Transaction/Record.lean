import LightClient.Proofs.Bytes.Reading
import LightClient.Proofs.Stream.Delivery
import LightClient.Transaction.Stream
/-!
# Transaction records read back

A record says its own length in the fixed part, so records that follow each other on a stream come apart
again. A transaction with at most 1024 input bytes is read from its bytes, by itself (`ofBytes_toBytes`)
and off a stream with anything behind it (`readNext_of_delivers`); of several, reading takes as many as
asked for, or all there are (`readMany_of_delivers`).
-/
namespace LightClient

namespace Transfer

theorem FixedPart.bytes_append (f : FixedPart) (rest : Bytes) :
    layout.bytes f ++ rest =
      PublicKey.layout.bytes f.source ++ (PublicKey.layout.bytes f.destination ++
        (Layout.i64.bytes f.amount ++ (Layout.u32.bytes f.tick ++ (Layout.u16.bytes f.inputType ++
          (Layout.u16.bytes f.inputSize ++ rest))))) := by
  simp only [layout, Layout.bytes_map, Layout.bytes_pair, List.append_assoc]

theorem FixedPart.run_read (record : String) (f : FixedPart) (rest : Bytes) :
    Read.run read record (layout.bytes f ++ rest) = .ok f := by
  rw [bytes_append, Read.run, read, Read.run_value_bind _ rfl, Read.run_value_bind _ rfl,
    Read.run_value_bind _ rfl, Read.run_value_bind _ rfl, Read.run_value_bind _ rfl,
    Read.run_value_bind _ rfl]
  rfl

theorem toNat_inputSize {t : Transfer} (h : t.input.length ≤ maxInput) :
    t.fixedPart.inputSize.toNat = t.input.length :=
  UInt16.toNat_ofNat_of_lt (Nat.lt_of_le_of_lt h (by decide))

theorem fixedPart_withInput {part : FixedPart} {input : Bytes} (h : input.length = part.inputSize.toNat) :
    (part.withInput input).fixedPart = part := by
  have hsize : input.length.toUInt16 = part.inputSize := by
    rw [h]
    exact UInt16.ofNat_toNat
  exact FixedPart.ext rfl rfl rfl rfl rfl hsize

/-- Where the length of its input stands in a transfer. -/
def inputSizePlace : Nat := 78

theorem FixedPart.numberAt_inputSize (part : FixedPart) (rest : Bytes) :
    numberAt inputSizePlace (layout.bytes part ++ rest) = part.inputSize.toNat := by
  rw [bytes_append, numberAt_bytes, numberAt_bytes, numberAt_bytes, numberAt_bytes, numberAt_bytes]
  · exact numberAt_u16 part.inputSize rest
  all_goals decide

theorem numberAt_toBytes {t : Transfer} (h : t.input.length ≤ maxInput) :
    numberAt inputSizePlace t.toBytes = t.input.length := by
  rw [toBytes, FixedPart.numberAt_inputSize, toNat_inputSize h]

theorem length_toBytes (t : Transfer) : t.toBytes.length = FixedPart.size + t.input.length := by
  rw [toBytes, List.length_append, Layout.length_bytes]
  rfl

end Transfer

namespace Transaction

variable {t : Transaction} {ts : List Transaction} {s : Source} {rest : Bytes}

/-- A record is the fixed part, the input and the signature. -/
theorem toBytes_append (t : Transaction) (rest : Bytes) :
    t.toBytes ++ rest = Transfer.FixedPart.layout.bytes t.body.fixedPart ++
      (t.body.input ++ (t.signature.octets.toList ++ rest)) := by
  simp only [toBytes, Transfer.toBytes, List.append_assoc]

theorem length_fixedPart (part : Transfer.FixedPart) :
    (Transfer.FixedPart.layout.bytes part).length = Transfer.FixedPart.size :=
  Layout.length_bytes ..

theorem length_toBytes_eq (t : Transaction) :
    t.toBytes.length = Transfer.FixedPart.size + t.body.input.length + signatureSize := by
  rw [toBytes, List.length_append, Transfer.length_toBytes, Tuple.length_toList, signatureSize]

theorem length_toBytes (h : t.body.input.length ≤ Transfer.maxInput) :
    t.toBytes.length = recordSize t.body.fixedPart := by
  rw [length_toBytes_eq, recordSize, Transfer.toNat_inputSize h]

/-- A fixed part is read from its bytes, unless it declares too long an input. -/
theorem readFixedPart_bytes (part : Transfer.FixedPart) (rest : Bytes) :
    readFixedPart (Transfer.FixedPart.layout.bytes part ++ rest) =
      if Transfer.maxInput < part.inputSize.toNat then
        .error (.protocolViolation (.longInput part.inputSize.toNat))
      else .ok part := by
  rw [readFixedPart, Transfer.FixedPart.run_read]
  rfl

theorem maxInput_not_lt (h : t.body.input.length ≤ Transfer.maxInput) :
    ¬ Transfer.maxInput < t.body.fixedPart.inputSize.toNat := by
  rw [Transfer.toNat_inputSize h]
  exact Nat.not_lt.mpr h

theorem run_readRest (h : t.body.input.length ≤ Transfer.maxInput) :
    Read.run (readRest t.body.fixedPart) "transaction" t.toBytes = .ok t := by
  have hinput : t.body.input ++ (t.signature.octets.toList ++ []) =
      (Layout.octets t.body.fixedPart.inputSize.toNat).bytes
        ⟨t.body.input, (Transfer.toNat_inputSize h).symm⟩ ++ (t.signature.octets.toList ++ []) := rfl
  have hsignature : t.signature.octets.toList ++ [] = Signature.layout.bytes t.signature ++ [] := rfl
  rw [← List.append_nil t.toBytes, toBytes_append, Read.run, readRest, Read.octets_eq_value,
    Read.run_value_bind _ rfl, Read.run_value_bind _ hinput, Read.run_value_bind _ hsignature]
  rfl

theorem ofBytes_toBytes (h : t.body.input.length ≤ Transfer.maxInput) : ofBytes t.toBytes = .ok t := by
  have hpart : readFixedPart t.toBytes = .ok t.body.fixedPart := by
    rw [← List.append_nil t.toBytes, toBytes_append, readFixedPart_bytes, if_neg (maxInput_not_lt h)]
  have hlength : expectLength "transaction" (recordSize t.body.fixedPart) t.toBytes = .ok () :=
    if_pos (length_toBytes h)
  simp only [ofBytes, hpart, hlength, run_readRest h, Outcome.ofRecord_ok, bind, Except.bind]

/-! ## Records on a stream -/

/-- A stream that begins with a fixed part: how reading goes on depends on the input that this declares. -/
theorem readNext_of_fixedPart {part : Transfer.FixedPart}
    (hs : s.Delivers (Transfer.FixedPart.layout.bytes part ++ rest)) :
    ∃ s', s'.Delivers rest ∧ readNext s =
      if Transfer.maxInput < part.inputSize.toNat then
        (.error (.protocolViolation (.longInput part.inputSize.toNat)), s')
      else readInput part s' := by
  obtain ⟨s', hfill, hs'⟩ := Source.fill_append hs (length_fixedPart part)
  have hsome : (Transfer.FixedPart.layout.bytes part).isEmpty = false := by
    rw [List.isEmpty_eq_false_iff, ← List.length_pos_iff, length_fixedPart]
    decide
  have hpart := readFixedPart_bytes part []
  rw [List.append_nil] at hpart
  refine ⟨s', hs', ?_⟩
  simp only [readNext, hfill, hsome, Bool.false_eq_true, if_false, length_fixedPart, Nat.lt_irrefl, hpart]
  by_cases hlong : Transfer.maxInput < part.inputSize.toNat
  · simp only [hlong, if_true]
  · simp only [hlong, if_false]

theorem readNext_of_delivers (h : t.body.input.length ≤ Transfer.maxInput)
    (hs : s.Delivers (t.toBytes ++ rest)) :
    ∃ s', readNext s = (.ok (some t), s') ∧ s'.Delivers rest := by
  rw [toBytes_append] at hs
  obtain ⟨s₁, hs₁, hread⟩ := readNext_of_fixedPart hs
  rw [if_neg (maxInput_not_lt h)] at hread
  obtain ⟨s₂, hinput, hs₂⟩ := Source.fill_append hs₁ (Transfer.toNat_inputSize h).symm
  have hsize : t.signature.octets.toList.length = signatureSize := t.signature.octets.length_toList
  obtain ⟨s₃, hsignature, hs₃⟩ := Source.fill_append hs₂ hsize
  have hoctets : Tuple.ofList? signatureSize t.signature.octets.toList = some t.signature.octets :=
    dif_pos hsize
  have hlast : readSignature t.body.fixedPart t.body.input s₂ = (.ok (some t), s₃) := by
    simp only [readSignature, hsignature, hoctets]
    rfl
  have hfull : ¬ t.body.input.length < t.body.fixedPart.inputSize.toNat :=
    Nat.not_lt.mpr (Nat.le_of_eq (Transfer.toNat_inputSize h))
  refine ⟨s₃, ?_, hs₃⟩
  simp only [hread, readInput, hinput, if_neg hfull, hlast]

theorem readNext_of_end (hs : s.Delivers []) : ∃ s', readNext s = (.ok none, s') ∧ s'.Delivers [] := by
  obtain ⟨s', hfill, hs'⟩ := Source.fill_of_delivers hs Transfer.FixedPart.size
  rw [List.take_nil] at hfill
  rw [List.drop_nil] at hs'
  exact ⟨s', by simp [readNext, hfill], hs'⟩

/-- Reading takes as many records as asked for, or all there are, and leaves the others. -/
theorem readMany_of_delivers (n : Nat) (h : ∀ t ∈ ts, t.body.input.length ≤ Transfer.maxInput)
    (hs : s.Delivers (ts.map toBytes).flatten) :
    ∃ s', readMany n s = (.ok (ts.take n), s') ∧ s'.Delivers ((ts.drop n).map toBytes).flatten := by
  induction n generalizing ts s with
  | zero => exact ⟨s, rfl, hs⟩
  | succ n ih =>
    cases ts with
    | nil =>
      obtain ⟨s', hread, hs'⟩ := readNext_of_end hs
      exact ⟨s', by simp [readMany, hread], hs'⟩
    | cons t ts =>
      obtain ⟨ht, hts⟩ := List.forall_mem_cons.mp h
      obtain ⟨s₁, hread, hs₁⟩ := readNext_of_delivers ht hs
      obtain ⟨s₂, hmore, hs₂⟩ := ih hts hs₁
      exact ⟨s₂, by simp [readMany, hread, hmore, Except.map], hs₂⟩

/-! ## Some transactions -/

/-- A transaction with zeros for everything but its amount, its tick and its input. -/
def blank (amount : Int64) (input : Bytes) : Transaction where
  body := ⟨⟨.replicate 32 0⟩, ⟨.replicate 32 0⟩, amount, 5, 0, input⟩
  signature := ⟨.replicate 64 0⟩

end Transaction

end LightClient
