import LightClient.Bytes.Layout
/-!
# Reading a record piece by piece

A `Cursor` is a place in a record: the bytes already read are counted, the rest is at hand. `take`
gives the next `n` bytes; it fails when there are fewer, saying how long the record would have to be,
and then leaves the cursor where it was. Numbers are read through `take`. `Read α` is a program of
such steps that stops at the first failure. No step loses or invents a byte (`Cursor.total_take`).
-/
namespace LightClient

/-- A place in a record of the named kind (`ByteReader`). -/
structure Cursor where
  record : String
  consumed : Nat
  rest : Bytes
  deriving DecidableEq, Repr

/-- A program that reads from a record: a failure or a result, and where the cursor is after it. -/
abbrev Read (α : Type) := ExceptT Malformed (StateM Cursor) α

namespace Cursor

/-- The start of a record. -/
def start (record : String) (bs : Bytes) : Cursor := ⟨record, 0, bs⟩

/-- How many bytes are still to be read. -/
def remaining (c : Cursor) : Nat := c.rest.length

/-- The length of the whole record. -/
def total (c : Cursor) : Nat := c.consumed + c.remaining

/-- The next `n` bytes and the place after them. -/
def take (n : Nat) (c : Cursor) : Except Malformed (Octets n) × Cursor :=
  if h : n ≤ c.remaining then
    (.ok ⟨c.rest.take n, List.length_take_of_le h⟩,
      { c with consumed := c.consumed + n, rest := c.rest.drop n })
  else (.error ⟨c.record, c.consumed + n, c.total⟩, c)

/-- The next value of a fixed layout and the place after it. -/
def next {α : Type} (L : Layout α) (c : Cursor) : Except Malformed α × Cursor :=
  let (result, c) := c.take L.size
  (result.map L.decode, c)

@[simp] theorem total_take (n : Nat) (c : Cursor) : (c.take n).2.total = c.total := by
  unfold take
  split
  · rename_i h
    simp only [total, remaining, List.length_drop] at h ⊢
    omega
  · rfl

theorem total_next {α : Type} (L : Layout α) (c : Cursor) : (c.next L).2.total = c.total :=
  total_take L.size c

end Cursor

namespace Read

/-- Reads the next `n` bytes. -/
def octets (n : Nat) : Read (Octets n) := ExceptT.mk (Cursor.take n)

/-- Reads the next value of a fixed layout. -/
def value {α : Type} (L : Layout α) : Read α := ExceptT.mk (Cursor.next L)

/-- The number of bytes not yet read. -/
def remaining : Read Nat := do return (← get).remaining

/-- Reads a whole record with a program, whether or not the program reads all of it. -/
def run {α : Type} (program : Read α) (record : String) (bs : Bytes) : Except Malformed α :=
  (ExceptT.run program (Cursor.start record bs)).1

end Read

/-- Accepts a record of exactly the wanted length. -/
def expectLength (record : String) (needed : Nat) (bs : Bytes) : Except Malformed Unit :=
  if bs.length = needed then .ok () else .error ⟨record, needed, bs.length⟩

end LightClient
