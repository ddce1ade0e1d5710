import LightClient.Proofs.Bytes.Reading
import LightClient.Tick.Header
import LightClient.Tick.Info
import LightClient.Vote.Basic
/-!
# Records read field by field

A record of a fixed size can be taken in two ways: as a whole, by its layout, and field by field with a cursor, once
its length has been found right. A program that `Follows` a layout reads what the layout has written, whatever stands
behind it, and leaves the cursor there. Every field's program does, and so does one that reads fields in the order
of a layout. So both ways agree on every byte string (`Follows.run_eq_parse`).
-/
namespace LightClient

variable {α β : Type}

namespace Cursor

@[simp] theorem rest_advance (c : Cursor) (n : Nat) (rest : Bytes) : (c.advance n rest).rest = rest := rfl

@[simp] theorem advance_advance (c : Cursor) (m n : Nat) (rest rest' : Bytes) :
    (c.advance m rest).advance n rest' = c.advance (m + n) rest' := by
  simp only [advance, Nat.add_assoc]

end Cursor

namespace Read

/-- A program that reads what a layout has written, whatever stands behind it, and stops there. -/
def Follows (program : Read α) (L : Layout α) : Prop :=
  ∀ (c : Cursor) (a : α) (rest : Bytes), c.rest = L.bytes a ++ rest →
    ExceptT.run program c = (.ok a, c.advance L.size rest)

theorem follows_value (L : Layout α) : Follows (value L) L := fun _ _ _ h => Cursor.next_append h

theorem follows_octets (n : Nat) : Follows (octets n) (Layout.octets n) :=
  octets_eq_value n ▸ follows_value (Layout.octets n)

/-- A record that begins with a field: the program goes on with what the field held. -/
theorem Follows.run_bind {program : Read α} {L : Layout α} (h : program.Follows L) (f : α → Read β) {c : Cursor}
    {a : α} {rest : Bytes} (hc : c.rest = L.bytes a ++ rest) :
    ExceptT.run (program >>= f) c = ExceptT.run (f a) (c.advance L.size rest) :=
  run_bind_of_ok (h c a rest hc) f

/-- Reads as many values as a tuple has, one after the other. -/
def tuple (program : Read α) : (n : Nat) → Read (Tuple α n)
  | 0 => return ⟨[], rfl⟩
  | n + 1 => do
      let a ← program
      let more ← tuple program n
      return ⟨a :: more.toList, by simp⟩

theorem follows_tuple {program : Read α} {L : Layout α} (h : program.Follows L) (n : Nat) :
    (tuple program n).Follows (L.tuple n) := by
  induction n with
  | zero =>
    rintro c ⟨as, hlength⟩ rest hc
    obtain rfl := List.length_eq_zero_iff.mp hlength
    have hstay : c.advance (L.tuple 0).size rest = c := by
      rw [← show c.rest = rest from hc]
      simp [Cursor.advance, Layout.tuple]
    rw [hstay]
    rfl
  | succ n ih =>
    rintro c ⟨as, hlength⟩ rest hc
    obtain ⟨a, as, rfl⟩ := List.exists_cons_of_length_eq_add_one hlength
    have hmore : as.length = n := Nat.succ.inj hlength
    have hrest : c.rest = L.bytes a ++ ((L.tuple n).bytes ⟨as, hmore⟩ ++ rest) :=
      hc.trans (List.append_assoc ..)
    have hsize : L.size + (L.tuple n).size = (L.tuple (n + 1)).size := by
      simp only [Layout.tuple, Nat.succ_mul, Nat.add_comm]
    rw [tuple, h.run_bind _ hrest, ih.run_bind _ rfl, Cursor.advance_advance, hsize]
    rfl

/-- Once a record has the right length, reading its fields in turn is reading it by its layout. -/
theorem Follows.run_eq_parse {program : Read α} {L : Layout α} (h : program.Follows L) (record : String)
    (bs : Bytes) :
    (do expectLength record L.size bs; program.run record bs) = L.parse record bs := by
  by_cases hlength : bs.length = L.size
  · obtain ⟨a, hparse⟩ := (L.exists_parse_eq_ok_iff record bs).mpr hlength
    have hbytes : bs = L.bytes a ++ [] := by
      rw [List.append_nil]
      exact (L.parse_eq_ok_iff record bs a).mp hparse
    have hrun : program.run record bs = .ok a := congrArg Prod.fst (h (.start record bs) a [] hbytes)
    rw [expectLength, if_pos hlength, hparse]
    exact hrun
  · rw [expectLength, if_neg hlength, Layout.parse, dif_neg hlength]
    rfl

end Read

/-! ## The records -/

open Read

/-- Reads a moment. -/
def TickTime.read : Read TickTime := do
  let millisecond ← value .u16
  let second ← value .u8
  let minute ← value .u8
  let hour ← value .u8
  let day ← value .u8
  let month ← value .u8
  let year ← value .u8
  return ⟨millisecond, second, minute, hour, day, month, year⟩

/-- Reads a vote. The resource testing of both states comes before the roots of either. -/
def Vote.read : Read Vote := do
  let index ← value .u16
  let epoch ← value .u16
  let tick ← value .u32
  let time ← TickTime.read
  let prevTesting ← value .u64
  let saltedTesting ← value .u64
  let prevSpectrum ← octets 32
  let prevUniverse ← octets 32
  let prevComputer ← octets 32
  let saltedSpectrum ← octets 32
  let saltedUniverse ← octets 32
  let saltedComputer ← octets 32
  let transactions ← octets 32
  let next ← octets 32
  let signature ← octets 64
  let prev : StateDigests := ⟨prevTesting, prevSpectrum, prevUniverse, prevComputer⟩
  let salted : StateDigests := ⟨saltedTesting, saltedSpectrum, saltedUniverse, saltedComputer⟩
  return ⟨⟨index, ⟨epoch, tick, time, prev, transactions, next⟩, salted⟩, ⟨signature⟩⟩

/-- Reads a header. -/
def TickHeader.read : Read TickHeader := do
  let index ← value .u16
  let epoch ← value .u16
  let tick ← value .u32
  let time ← TickTime.read
  let proposal ← octets 256
  let timelock ← octets 32
  let digests ← tuple (octets 32) TickData.slotCount
  let fees ← tuple (value .i64) TickData.contractCount
  let signature ← octets 64
  return ⟨⟨index, epoch, tick, time, proposal, timelock, digests, fees⟩, ⟨signature⟩⟩

/-- Reads a computor list. -/
def ComputorSet.read : Read ComputorSet := do
  let epoch ← value .u16
  let keys ← tuple (value PublicKey.layout) Computor.count
  let signature ← octets 64
  return ⟨⟨epoch, keys⟩, ⟨signature⟩⟩

/-- Reads an account of the current tick. -/
def TickInfo.read : Read TickInfo := do
  let tickDuration ← value .u16
  let epoch ← value .u16
  let tick ← value .u32
  let alignedVotes ← value .u16
  let misalignedVotes ← value .u16
  let initialTick ← value .u32
  return ⟨tickDuration, epoch, tick, alignedVotes, misalignedVotes, initialTick⟩

theorem TickTime.follows_read : TickTime.read.Follows TickTime.layout := by
  intro c t rest hc
  simp only [layout, Layout.bytes_map, Layout.bytes_pair, List.append_assoc] at hc
  rw [read, run_value_bind _ hc, run_value_bind _ rfl, run_value_bind _ rfl, run_value_bind _ rfl,
    run_value_bind _ rfl, run_value_bind _ rfl, run_value_bind _ rfl]
  simp only [Cursor.advance_advance]
  rfl

theorem TickInfo.follows_read : TickInfo.read.Follows TickInfo.layout := by
  intro c i rest hc
  simp only [layout, Layout.bytes_map, Layout.bytes_pair, List.append_assoc] at hc
  rw [read, run_value_bind _ hc, run_value_bind _ rfl, run_value_bind _ rfl, run_value_bind _ rfl,
    run_value_bind _ rfl, run_value_bind _ rfl]
  simp only [Cursor.advance_advance]
  rfl

theorem Signed.bytes_layout {β : Type} (L : Layout β) (s : Signed β) :
    (layout L).bytes s = L.bytes s.body ++ (Layout.octets 64).bytes s.signature.octets := rfl

theorem Vote.follows_read : Vote.read.Follows Vote.layout := by
  have octet {n : Nat} {f : Octets n → Read Vote} {c : Cursor} {b : Octets n} {rest : Bytes}
      (h : c.rest = (Layout.octets n).bytes b ++ rest) := (follows_octets n).run_bind f h
  intro c v rest hc
  simp only [layout, Signed.bytes_layout, Ballot.layout, Layout.bytes_map, Layout.bytes_pair,
    List.append_assoc] at hc
  rw [read, run_value_bind _ hc, run_value_bind _ rfl, run_value_bind _ rfl, TickTime.follows_read.run_bind _ rfl,
    run_value_bind _ rfl, run_value_bind _ rfl, octet rfl, octet rfl, octet rfl, octet rfl, octet rfl, octet rfl,
    octet rfl, octet rfl, octet rfl]
  simp only [Cursor.advance_advance]
  rfl

theorem TickHeader.follows_read : TickHeader.read.Follows TickHeader.layout := by
  intro c h rest hc
  simp only [layout, Signed.bytes_layout, TickData.layout, Layout.bytes_map, Layout.bytes_pair,
    List.append_assoc] at hc
  rw [read, run_value_bind _ hc, run_value_bind _ rfl, run_value_bind _ rfl, TickTime.follows_read.run_bind _ rfl,
    (follows_octets 256).run_bind _ rfl, (follows_octets 32).run_bind _ rfl,
    (follows_tuple (follows_octets 32) _).run_bind _ rfl, (follows_tuple (follows_value .i64) _).run_bind _ rfl,
    (follows_octets 64).run_bind _ rfl]
  simp only [Cursor.advance_advance]
  rfl

theorem ComputorSet.follows_read : ComputorSet.read.Follows ComputorSet.layout := by
  intro c set rest hc
  simp only [layout, Signed.bytes_layout, Roster.layout, Layout.bytes_map, Layout.bytes_pair,
    List.append_assoc] at hc
  rw [read, run_value_bind _ hc, (follows_tuple (follows_value PublicKey.layout) _).run_bind _ rfl,
    (follows_octets 64).run_bind _ rfl]
  simp only [Cursor.advance_advance]
  rfl

end LightClient
