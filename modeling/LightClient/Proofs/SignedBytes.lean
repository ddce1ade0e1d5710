import LightClient.Proofs.Transaction.Record
import LightClient.Proofs.Vote.Split
import LightClient.Tick.Header
/-!
# What a signature is over

The bytes under a signature say which record they are of, with one exception. Two ballots with the same bytes are the
same ballot, whatever their index is marked with; and so it is with headers, rosters and transfers. Headers and rosters
have lengths of their own. But a ballot is as long as a transfer with 208 bytes of input, and where a transfer has the
length of its input, a ballot has two bytes of the universe root. If these spell 208, the ballot has the bytes of a
transfer (`toBytes_asTransfer`), and a signature of the one is a signature of the other; nothing else can be mistaken
(`SignedBody.bytes_eq_iff`).
-/
namespace LightClient

/-! ## Transfers -/

namespace Transfer

theorem toBytes_inj {t t' : Transfer} (h : t.toBytes = t'.toBytes) : t = t' := by
  have hsame : (FixedPart.layout.bytes t.fixedPart).length = (FixedPart.layout.bytes t'.fixedPart).length := by
    rw [Layout.length_bytes, Layout.length_bytes]
  obtain ⟨hpart, hinput⟩ := List.append_inj h hsame
  obtain ⟨hsource, hdestination, hamount, htick, htype, -⟩ := FixedPart.ext_iff.mp (FixedPart.layout.bytes_inj hpart)
  exact Transfer.ext hsource hdestination hamount htick htype hinput

end Transfer

/-! ## Ballots -/

namespace Ballot

/-- How much longer a ballot is than the fixed part of a transfer. -/
def inputSize : Nat := 208

/-- The number that two bytes of the universe root spell. -/
def inputMark (b : Ballot) : Nat := numberAt 14 b.outcome.prev.universeRoot.toList

theorem signedBytes_inj {b b' : Ballot} (h : Signable.signedBytes b = Signable.signedBytes b') : b = b' := by
  obtain ⟨hindex, houtcome, hsalted⟩ := Ballot.ext_iff.mp (layout.bytes_inj h)
  exact Ballot.ext ((UInt16.xor_left_inj tag).mp hindex) houtcome hsalted

theorem length_signedBytes (b : Ballot) :
    (Signable.signedBytes b).length = Transfer.FixedPart.layout.size + inputSize := Layout.length_bytes ..

theorem signedBytes_append (b : Ballot) : ∃ rest, Signable.signedBytes b =
    Layout.u16.bytes (b.index ^^^ tag) ++ (Layout.u16.bytes b.outcome.epoch ++ (Layout.u32.bytes b.outcome.tick ++
      (TickTime.layout.bytes b.outcome.time ++ (Layout.u64.bytes b.outcome.prev.resourceTesting ++
        (Layout.u64.bytes b.salted.resourceTesting ++ ((Layout.octets 32).bytes b.outcome.prev.spectrumRoot ++
          ((Layout.octets 32).bytes b.outcome.prev.universeRoot ++ rest))))))) := by
  simp only [Signable.signedBytes, layout, Layout.bytes_map, Layout.bytes_pair, List.append_assoc]
  exact ⟨_, rfl⟩

theorem numberAt_signedBytes (b : Ballot) :
    numberAt Transfer.inputSizePlace (Signable.signedBytes b) = b.inputMark := by
  obtain ⟨rest, hbytes⟩ := b.signedBytes_append
  rw [hbytes, numberAt_bytes, numberAt_bytes, numberAt_bytes, numberAt_bytes, numberAt_bytes, numberAt_bytes,
    numberAt_bytes]
  · rw [numberAt_append]
    · rfl
    · rw [Layout.length_bytes]
      decide
  all_goals decide

/-- The transfer whose bytes a ballot's bytes are, if any is: the first of them as its fixed part, the others as its
input. -/
def asTransfer (b : Ballot) : Transfer :=
  let bs : Octets (Transfer.FixedPart.layout.size + inputSize) := ⟨Signable.signedBytes b, b.length_signedBytes⟩
  (Transfer.FixedPart.layout.decode bs.front).withInput bs.back.toList

theorem length_input_asTransfer (b : Ballot) : b.asTransfer.input.length = inputSize := Tuple.length_toList _

/-- If a ballot has the number of its further bytes where a transfer has it, its bytes are those of a transfer. -/
theorem toBytes_asTransfer {b : Ballot} (h : b.inputMark = inputSize) :
    b.asTransfer.toBytes = Signable.signedBytes b := by
  let bs : Octets (Transfer.FixedPart.layout.size + inputSize) := ⟨Signable.signedBytes b, b.length_signedBytes⟩
  let part := Transfer.FixedPart.layout.decode bs.front
  have hbytes : Signable.signedBytes b = Transfer.FixedPart.layout.bytes part ++ bs.back.toList := by
    have hfront : Transfer.FixedPart.layout.bytes part = bs.front.toList :=
      congrArg Tuple.toList (Transfer.FixedPart.layout.encode_decode bs.front)
    rw [hfront]
    exact (congrArg Tuple.toList (Tuple.append_front_back bs)).symm
  have hsize : bs.back.toList.length = part.inputSize.toNat := by
    rw [← part.numberAt_inputSize bs.back.toList, ← hbytes, b.numberAt_signedBytes, h]
    exact bs.back.length_toList
  have hpart : b.asTransfer.fixedPart = part := Transfer.fixedPart_withInput hsize
  rw [Transfer.toBytes, hpart, hbytes]
  rfl

/-- A ballot has the bytes of a transfer only so, and of no other transfer. -/
theorem eq_asTransfer {b : Ballot} {t : Transfer} (fits : t.input.length ≤ Transfer.maxInput)
    (h : Signable.signedBytes b = t.toBytes) : b.inputMark = inputSize ∧ t = b.asTransfer := by
  have hlength := b.length_signedBytes
  rw [h, t.length_toBytes] at hlength
  have hinput : t.input.length = inputSize := Nat.add_left_cancel hlength
  have hmark : b.inputMark = inputSize := by
    rw [← b.numberAt_signedBytes, h, Transfer.numberAt_toBytes fits, hinput]
  refine ⟨hmark, Transfer.toBytes_inj ?_⟩
  rw [← h, toBytes_asTransfer hmark]

end Ballot

/-! ## Headers and rosters -/

theorem TickData.signedBytes_inj {d d' : TickData} (h : Signable.signedBytes d = Signable.signedBytes d') : d = d' := by
  obtain ⟨hindex, hrest⟩ := TickData.ext_iff.mp (layout.bytes_inj h)
  exact TickData.ext_iff.mpr ⟨(UInt16.xor_left_inj tag).mp hindex, hrest⟩

/-! ## Everything that is signed -/

/-- What a signature can be over. -/
inductive SignedBody where
  | ballot (b : Ballot)
  | header (d : TickData)
  | roster (r : Roster)
  | transfer (t : Transfer) (fits : t.input.length ≤ Transfer.maxInput)

namespace SignedBody

/-- The bytes that the signature covers. -/
def bytes : SignedBody → Bytes
  | ballot b => Signable.signedBytes b
  | header d => Signable.signedBytes d
  | roster r => Signable.signedBytes r
  | transfer t _ => Signable.signedBytes t

theorem fits_asTransfer (b : Ballot) : b.asTransfer.input.length ≤ Transfer.maxInput := by
  rw [b.length_input_asTransfer]
  decide

/-- How many bytes the signature covers. -/
def size : SignedBody → Nat
  | ballot _ => 288
  | header _ => 41264
  | roster _ => 21634
  | transfer t _ => 80 + t.input.length

theorem length_bytes (x : SignedBody) : x.bytes.length = x.size := by
  cases x with
  | ballot b => exact b.length_signedBytes
  | header d => exact Layout.length_bytes ..
  | roster r => exact Layout.length_bytes ..
  | transfer t _ => exact t.length_toBytes

/-- A ballot whose universe root spells the length of an input, and the transfer with the same bytes. -/
inductive Twins : SignedBody → SignedBody → Prop
  | intro (b : Ballot) (marked : b.inputMark = Ballot.inputSize) :
      Twins (ballot b) (transfer b.asTransfer (fits_asTransfer b))

theorem Twins.bytes_eq {x y : SignedBody} (h : Twins x y) : x.bytes = y.bytes := by
  cases h with
  | intro b marked => exact (Ballot.toBytes_asTransfer marked).symm

theorem twins_of_bytes_eq {b : Ballot} {t : Transfer} {fits : t.input.length ≤ Transfer.maxInput}
    (h : Signable.signedBytes b = Signable.signedBytes t) : Twins (ballot b) (transfer t fits) := by
  obtain ⟨hmark, rfl⟩ := Ballot.eq_asTransfer fits h
  exact .intro b hmark

/-- The bytes under a signature say what is signed, but for this: a ballot whose universe root spells the length of an
input has the bytes of a transfer. No other two ballots, headers, rosters or transfers have the same bytes, be they of
one kind or of two. -/
theorem bytes_eq_iff (x y : SignedBody) : x.bytes = y.bytes ↔ x = y ∨ Twins x y ∨ Twins y x := by
  constructor
  · intro h
    have hsize : x.size = y.size := by rw [← length_bytes, h, length_bytes]
    have hmax : Transfer.maxInput = 1024 := rfl
    cases x <;> cases y
    case ballot.ballot => exact .inl (congrArg ballot (Ballot.signedBytes_inj h))
    case header.header => exact .inl (congrArg header (TickData.signedBytes_inj h))
    case roster.roster => exact .inl (congrArg roster (Roster.layout.bytes_inj h))
    case transfer.transfer =>
      obtain rfl := Transfer.toBytes_inj h
      exact .inl rfl
    case ballot.transfer => exact .inr (.inl (twins_of_bytes_eq h))
    case transfer.ballot => exact .inr (.inr (twins_of_bytes_eq h.symm))
    -- Other kinds have different lengths.
    all_goals
      simp only [size] at hsize
      omega
  · rintro (rfl | htwins | htwins)
    · rfl
    · exact htwins.bytes_eq
    · exact htwins.bytes_eq.symm

end SignedBody

/-! ## A vote that passes for a transaction -/

namespace Vote

/-- A key that begins with the index of a computor, marked as a vote's. -/
def twinKey : PublicKey where
  octets := ⟨[54, 0, 195, 65, 38, 191, 152, 132, 17, 11, 214, 178, 251, 182, 212, 252, 187, 51, 172, 164, 252, 94, 56,
    22, 159, 165, 25, 220, 19, 104, 213, 68], rfl⟩

/-- A ballot that begins with this key, and goes on with an order to pay 1000. -/
def twinBallot : Ballot where
  index := 53
  outcome := {
    epoch := 16835
    tick := 2224602918
    time := ⟨2833, 214, 178, 251, 182, 212, 252⟩
    prev := {
      resourceTesting := 1601134106717729723
      spectrumRoot := .replicate 32 0
      universeRoot := ⟨[232, 3, 0, 0, 0, 0, 0, 0, 38, 191, 152, 132, 0, 0, 208, 0, 0, 0, 0, 0, 0, 0, 0, 0, 0, 0, 0, 0,
        0, 0, 0, 0], rfl⟩
      computerRoot := .replicate 32 0 }
    transactionDigest := .replicate 32 0
    expectedNextTransactionDigest := .replicate 32 0 }
  salted := ⟨4959984999124805023, .replicate 32 0, .replicate 32 0, .replicate 32 0⟩

/-- A payment of 1000 from this key to nobody. -/
def twinTransfer : Transfer where
  source := twinKey
  destination := ⟨.replicate 32 0⟩
  amount := 1000
  tick := 2224602918
  inputType := 0
  input := .replicate 208 0

/-- The signature of the ballot under this key. -/
def twinSignature : Signature := ⟨⟨[7, 236, 81, 50, 143, 26, 49, 36, 139, 82, 114, 25, 239, 93, 241, 236, 148, 148, 65,
  251, 39, 34, 31, 44, 139, 100, 162, 119, 71, 209, 202, 3, 106, 179, 83, 201, 105, 176, 189, 156, 26, 125, 146, 71,
  190, 193, 201, 215, 172, 61, 163, 239, 255, 102, 193, 31, 190, 13, 147, 36, 152, 109, 116, 12], rfl⟩⟩

/-- Computors that all have this key. -/
def twinSet : ComputorSet := ⟨⟨16835, .replicate 676 twinKey⟩, ⟨.replicate 64 0⟩⟩

theorem signedBytes_twinBallot : Signable.signedBytes twinBallot = Signable.signedBytes twinTransfer := by
  decide +kernel

/-- The signature of a vote that counts makes a payment from the voter's key valid. -/
theorem vote_passes_for_transaction :
    Signable.signedBytes twinBallot = Signable.signedBytes twinTransfer ∧
      twinTransfer.input.length ≤ Transfer.maxInput ∧
      Vote.valid twinSet ⟨twinBallot, twinSignature⟩ = true ∧
      Transaction.valid ⟨twinTransfer, twinSignature⟩ = true := by
  have hsigned : Signed.verify (⟨twinBallot, twinSignature⟩ : Vote) twinKey = true := by decide +kernel
  have hdigest : Signed.signingDigest (⟨twinTransfer, twinSignature⟩ : Transaction) =
      Signed.signingDigest (⟨twinBallot, twinSignature⟩ : Vote) := congrArg sha256 signedBytes_twinBallot.symm
  refine ⟨signedBytes_twinBallot, ?_, ?_, ?_⟩
  · have hlength : twinTransfer.input.length = 208 := List.length_replicate
    rw [hlength]
    decide
  · have hkey : twinSet.key? twinBallot.index = some twinKey := by decide +kernel
    simp only [Vote.valid, Vote.index, hkey, hsigned]
  · rw [Transaction.valid, Signed.verify, hdigest]
    exact hsigned

end Vote

end LightClient
