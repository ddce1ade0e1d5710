import LightClient.Proofs.Bytes.InTurn
/-!
# Records of a fixed size

Votes, headers, computor lists and accounts of the current tick have one size each, and every byte string of that size
is one of them, and of one only (`Codec`). On the wire a record is its fields one after the other, without a byte
between them: `fields` lists them for each kind, and `records_of_fixed_size` says that reading and writing follow these
lists, and that a program that reads them one by one (`Vote.read` and its like) reads the same.
-/
namespace LightClient

variable {α : Type}

/-! ## What a field is on the wire -/

/-- A number of 64 bits in two's complement: a negative one stands there as its sum with the number of words. -/
def twosComplement (n : Int64) : Bytes := leBytes 8 (n.toInt % UInt64.size).toNat

namespace Layout

theorem bytes_octets {n : Nat} (b : Octets n) : (octets n).bytes b = b.toList := rfl

theorem bytes_u8 (n : UInt8) : u8.bytes n = [n] := congrArg ([·]) UInt8.ofNat_toNat

theorem bytes_u16 (n : UInt16) : u16.bytes n = leBytes 2 n.toNat := rfl

theorem bytes_u32 (n : UInt32) : u32.bytes n = leBytes 4 n.toNat := rfl

theorem bytes_u64 (n : UInt64) : u64.bytes n = leBytes 8 n.toNat := rfl

theorem bytes_i64 (n : Int64) : i64.bytes n = twosComplement n := by
  have hbmod : n.toInt = Int.bmod n.toUInt64.toNat UInt64.size := n.toBitVec.toInt_eq_toNat_bmod
  have hvalue : n.toInt % UInt64.size = (n.toUInt64.toNat : Int) := by
    rw [hbmod]
    exact Int.bmod_emod.trans
      (Int.emod_eq_of_lt (Int.natCast_nonneg _) (Int.ofNat_lt.mpr n.toUInt64.toNat_lt_size))
  rw [twosComplement, hvalue, Int.toNat_natCast]
  rfl

example : twosComplement (-2) = [254, 255, 255, 255, 255, 255, 255, 255] := by decide

theorem listBytes_eq_flatten (A : Layout α) (as : List α) : A.listBytes as = (as.map A.bytes).flatten := by
  induction as with
  | nil => rfl
  | cons a as ih => rw [listBytes, ih, List.map_cons, List.flatten_cons]

theorem bytes_tuple {n : Nat} (A : Layout α) (t : Tuple α n) :
    (tuple n A).bytes t = (t.toList.map A.bytes).flatten := A.listBytes_eq_flatten t.toList

end Layout

/-! ## The fields of each record -/

/-- A moment: the millisecond first, the year last. -/
def TickTime.fields (t : TickTime) : List Bytes :=
  [leBytes 2 t.millisecond.toNat, [t.second], [t.minute], [t.hour], [t.day], [t.month], [t.year]]

/-- A vote: the resource testing of both states stands before the roots of the previous and of the salted state. -/
def Vote.fields (v : Vote) : List Bytes :=
  let prev := v.outcome.prev
  let salted := v.body.salted
  [leBytes 2 v.index.toNat, leBytes 2 v.outcome.epoch.toNat, leBytes 4 v.outcome.tick.toNat] ++
    v.outcome.time.fields ++
    [leBytes 8 prev.resourceTesting.toNat, leBytes 8 salted.resourceTesting.toNat,
      prev.spectrumRoot.toList, prev.universeRoot.toList, prev.computerRoot.toList,
      salted.spectrumRoot.toList, salted.universeRoot.toList, salted.computerRoot.toList,
      v.outcome.transactionDigest.toList, v.outcome.expectedNextTransactionDigest.toList,
      v.signature.octets.toList]

/-- A header: 1024 digests, then 1024 fees in two's complement. -/
def TickHeader.fields (h : TickHeader) : List Bytes :=
  [leBytes 2 h.body.index.toNat, leBytes 2 h.body.epoch.toNat, leBytes 4 h.body.tick.toNat] ++
    h.body.time.fields ++ [h.body.proposal.toList, h.body.timelock.toList] ++
    h.body.digests.toList.map Tuple.toList ++
    h.body.fees.toList.map twosComplement ++ [h.signature.octets.toList]

/-- A computor list: the epoch, then 676 keys. -/
def ComputorSet.fields (set : ComputorSet) : List Bytes :=
  leBytes 2 set.body.epoch.toNat :: set.body.keys.toList.map PublicKey.bytes ++ [set.signature.octets.toList]

/-- An account of the current tick. -/
def TickInfo.fields (i : TickInfo) : List Bytes :=
  [leBytes 2 i.tickDuration.toNat, leBytes 2 i.epoch.toNat, leBytes 4 i.tick.toNat, leBytes 2 i.alignedVotes.toNat,
    leBytes 2 i.misalignedVotes.toNat, leBytes 4 i.initialTick.toNat]

theorem TickTime.bytes_eq (t : TickTime) : layout.bytes t = t.fields.flatten := by
  simp only [layout, Layout.bytes_map, Layout.bytes_pair, Layout.bytes_u16, Layout.bytes_u8, fields,
    List.flatten_cons, List.flatten_nil, List.append_nil]

theorem Vote.toBytes_eq (v : Vote) : v.toBytes = v.fields.flatten := by
  simp only [toBytes, layout, Signed.bytes_layout, Ballot.layout, Layout.bytes_map, Layout.bytes_pair,
    Layout.bytes_u16, Layout.bytes_u32, Layout.bytes_u64, Layout.bytes_octets, TickTime.bytes_eq, fields, index,
    outcome, List.flatten_append, List.flatten_cons, List.flatten_nil, List.append_nil, List.append_assoc]

theorem TickHeader.toBytes_eq (h : TickHeader) : h.toBytes = h.fields.flatten := by
  have hoctets (n : Nat) : (Layout.octets n).bytes = Tuple.toList := rfl
  have hfee : Layout.i64.bytes = twosComplement := funext Layout.bytes_i64
  simp only [toBytes, layout, Signed.bytes_layout, TickData.layout, Layout.bytes_map, Layout.bytes_pair,
    Layout.bytes_u16, Layout.bytes_u32, Layout.bytes_tuple, hoctets, hfee, TickTime.bytes_eq, fields,
    List.flatten_append, List.flatten_cons, List.flatten_nil, List.append_nil, List.append_assoc]

theorem ComputorSet.toBytes_eq (set : ComputorSet) : set.toBytes = set.fields.flatten := by
  have hkey : PublicKey.layout.bytes = PublicKey.bytes := rfl
  simp only [toBytes, layout, Signed.bytes_layout, Roster.layout, Layout.bytes_map, Layout.bytes_pair,
    Layout.bytes_u16, Layout.bytes_octets, Layout.bytes_tuple, hkey, fields, List.flatten_append, List.flatten_cons, List.flatten_nil,
    List.append_nil, List.append_assoc]

theorem TickInfo.toBytes_eq (i : TickInfo) : i.toBytes = i.fields.flatten := by
  simp only [toBytes, layout, Layout.bytes_map, Layout.bytes_pair, Layout.bytes_u16, Layout.bytes_u32, fields,
    List.flatten_cons, List.flatten_nil, List.append_nil]

/-! ## Reading and writing -/

/-- Reading and writing one kind of record are inverse to each other on the byte strings of one size, and both go by the
fields in order. No other byte string is read. A program that reads the fields in turn, once the length has been found
right, gives the same. -/
structure Codec (record : String) (size : Nat) (fields : α → List Bytes) (program : Read α)
    (ofBytes : Bytes → Except Malformed α) (toBytes : α → Bytes) : Prop where
  reads_iff (bs : Bytes) : (∃ a, ofBytes bs = .ok a) ↔ bs.length = size
  fails_iff (bs : Bytes) (flaw : Malformed) :
    ofBytes bs = .error flaw ↔ bs.length ≠ size ∧ flaw = ⟨record, size, bs.length⟩
  toBytes_of_read {bs : Bytes} {a : α} : ofBytes bs = .ok a → toBytes a = bs
  length_toBytes (a : α) : (toBytes a).length = size
  ofBytes_toBytes (a : α) : ofBytes (toBytes a) = .ok a
  writes_fields (a : α) : toBytes a = (fields a).flatten
  reads_fields (bs : Bytes) (a : α) : ofBytes bs = .ok a ↔ bs = (fields a).flatten
  reads_in_turn (bs : Bytes) : ofBytes bs = (do expectLength record size bs; program.run record bs)

theorem Layout.codec (L : Layout α) (record : String) {fields : α → List Bytes} {program : Read α}
    (h : ∀ a, L.bytes a = (fields a).flatten) (hprogram : program.Follows L) :
    Codec record L.size fields program (L.parse record) L.bytes where
  reads_iff := L.exists_parse_eq_ok_iff record
  fails_iff := L.parse_eq_error_iff record
  toBytes_of_read hread := ((L.parse_eq_ok_iff record _ _).mp hread).symm
  length_toBytes := L.length_bytes
  ofBytes_toBytes := L.parse_bytes record
  writes_fields := h
  reads_fields bs a := h a ▸ L.parse_eq_ok_iff record bs a
  reads_in_turn bs := (hprogram.run_eq_parse record bs).symm

/-- **Records of a fixed size.** A vote has 352 bytes, a header 41328, a computor list 21698 and an account of the
current tick 16. A byte string is read exactly if it has as many, and then it is what is written for the record that was
read. Every record is written with as many, and read back. Both go by the fields in order: a vote's are those of two
states, interleaved, and a header's fees may be negative. Reading the fields one by one gives the same. -/
theorem records_of_fixed_size :
    Codec "vote" 352 Vote.fields Vote.read Vote.ofBytes Vote.toBytes ∧
    Codec "tick header" 41328 TickHeader.fields TickHeader.read TickHeader.ofBytes TickHeader.toBytes ∧
    Codec "computor list" 21698 ComputorSet.fields ComputorSet.read ComputorSet.ofBytes ComputorSet.toBytes ∧
    Codec "current tick info" 16 TickInfo.fields TickInfo.read TickInfo.ofBytes TickInfo.toBytes :=
  ⟨Vote.layout.codec "vote" Vote.toBytes_eq Vote.follows_read,
    TickHeader.layout.codec "tick header" TickHeader.toBytes_eq TickHeader.follows_read,
    ComputorSet.layout.codec "computor list" ComputorSet.toBytes_eq ComputorSet.follows_read,
    TickInfo.layout.codec "current tick info" TickInfo.toBytes_eq TickInfo.follows_read⟩

end LightClient
