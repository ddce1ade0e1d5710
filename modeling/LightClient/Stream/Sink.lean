import LightClient.Bytes.Basic
import LightClient.Fault
/-!
# Streams that are written

A `Sink` takes bytes until its room is used up, and then fails. What it has taken is a prefix of what
it was given; it reports success only when it has taken everything and flushed it.
-/
namespace LightClient

/-- How much a stream can take, and how it fails. -/
structure Sink where
  /-- The number of bytes it takes, if that is limited. -/
  room : Option Nat
  /-- The fault of a write that finds no room. -/
  onFull : Fault
  /-- The fault of the final flush, if it fails. -/
  onFlush : Option Fault
  deriving DecidableEq, Repr

/-- What a stream has taken, and how writing to it ended. -/
structure Written where
  bytes : Bytes
  outcome : Except Fault Unit

namespace Sink

/-- A stream that takes everything. -/
def unlimited : Sink := ⟨none, .full, none⟩

/-- The outcome of flushing a stream that has taken everything. -/
def flush (s : Sink) : Except Fault Unit :=
  match s.onFlush with
  | some fault => .error fault
  | none => .ok ()

/-- Writes one piece after the other. -/
def writeAll (s : Sink) : Option Nat → List Bytes → Written
  | _, [] => ⟨[], s.flush⟩
  | none, piece :: pieces =>
      let more := s.writeAll none pieces
      ⟨piece ++ more.bytes, more.outcome⟩
  | some room, piece :: pieces =>
      if piece.length ≤ room then
        let more := s.writeAll (some (room - piece.length)) pieces
        ⟨piece ++ more.bytes, more.outcome⟩
      else ⟨piece.take room, .error s.onFull⟩

/-- Writes the pieces in order and flushes. -/
def write (s : Sink) (pieces : List Bytes) : Written := s.writeAll s.room pieces

theorem writeAll_of_ok {s : Sink} {room : Option Nat} {pieces : List Bytes}
    (h : (s.writeAll room pieces).outcome = .ok ()) :
    (s.writeAll room pieces).bytes = pieces.flatten := by
  fun_induction writeAll s room pieces with
  | case1 => rfl
  | case2 piece pieces more ih => exact congrArg (piece ++ ·) (ih h)
  | case3 room piece pieces hfits more ih => exact congrArg (piece ++ ·) (ih h)
  | case4 => cases h

theorem write_unlimited (piece : Bytes) : unlimited.write [piece] = ⟨piece, .ok ()⟩ := by
  simp [write, unlimited, writeAll, flush]

theorem take_of_writeAll (s : Sink) (room : Option Nat) (pieces : List Bytes) :
    ∃ n, (s.writeAll room pieces).bytes = pieces.flatten.take n := by
  fun_induction writeAll s room pieces with
  | case1 => exact ⟨0, rfl⟩
  | case2 piece pieces more ih =>
    obtain ⟨n, hn⟩ := ih
    exact ⟨piece.length + n, by rw [hn, List.flatten_cons, List.take_length_add_append]⟩
  | case3 room piece pieces hfits more ih =>
    obtain ⟨n, hn⟩ := ih
    exact ⟨piece.length + n, by rw [hn, List.flatten_cons, List.take_length_add_append]⟩
  | case4 room piece pieces hfull =>
    exact ⟨room, by rw [List.flatten_cons, List.take_append_of_le_length (by omega)]⟩

end Sink

end LightClient
