import LightClient.Proofs.Bytes.Reading
import Mathlib.Data.List.Forall2
import Mathlib.Data.List.Induction
/-!
# Calls that follow each other on a cursor

A record is read by calls that each ask for some bytes (`Call`). A call that fails does not end the reading: the next
one is made where the cursor still is. What one call does depends only on whether its bytes are there
(`Call.run_of_enough`, `Call.run_of_short`). So the answers of a whole run take the record from its start, slice by
slice (`behind_answersTo`), and the calls that failed could as well not have been made (`answersTo_succeeded`): no run
of calls loses its place, whatever it asks for (`answers_exact`).
-/
namespace LightClient

namespace Cursor

/-- A way to read from a record: some bytes, the bytes of a field, or a number. -/
inductive Call where
  | take (n : Nat)
  | array (n : Nat)
  | u8
  | u16
  | u32
  | u64
  | i64
  deriving DecidableEq, Repr

namespace Call

/-- What a call gives unless it fails. -/
abbrev Result : Call → Type
  | take n => Octets n
  | array n => Octets n
  | u8 => UInt8
  | u16 => UInt16
  | u32 => UInt32
  | u64 => UInt64
  | i64 => Int64

/-- How many bytes a call asks for. -/
def width : Call → Nat
  | take n => n
  | array n => n
  | u8 => 1
  | u16 => 2
  | u32 => 4
  | u64 => 8
  | i64 => 8

/-- The layout of what a call reads. -/
def layout : (call : Call) → Layout call.Result
  | take n => .octets n
  | array n => .octets n
  | u8 => .u8
  | u16 => .u16
  | u32 => .u32
  | u64 => .u64
  | i64 => .i64

/-- What a call gives, and where the cursor is after it. -/
def run : (call : Call) → Cursor → Except Malformed call.Result × Cursor
  | take n => Cursor.take n
  | call => Cursor.next call.layout

/-- What a call makes of the bytes that it asked for. A number has its lowest byte first; a signed one is in two's
complement, so that the upper half of the words stands for the negative numbers. -/
def Says : (call : Call) → Bytes → call.Result → Prop
  | take _, slice, octets => octets.toList = slice
  | array _, slice, octets => octets.toList = slice
  | u8, slice, n => n.toNat = leNat slice
  | u16, slice, n => n.toNat = leNat slice
  | u32, slice, n => n.toNat = leNat slice
  | u64, slice, n => n.toNat = leNat slice
  | i64, slice, n => n.toInt = if 2 * leNat slice < UInt64.size then (leNat slice : Int) else leNat slice - UInt64.size

variable {call : Call} {c : Cursor}

theorem size_layout (call : Call) : call.layout.size = call.width := by
  cases call <;> rfl

/-- Bytes that are asked for by number are read as those of a layout are. -/
theorem run_eq_next (call : Call) (c : Cursor) : call.run c = c.next call.layout := by
  cases call with
  | take n => exact congrFun (Read.octets_eq_value n) c
  | _ => rfl

theorem says_bytes (call : Call) (value : call.Result) : call.Says (call.layout.bytes value) value := by
  cases call with
  | take n => rfl
  | array n => rfl
  | u8 => exact (leNat_leBytes_of_lt (UInt8.toNat_lt value)).symm
  | u16 => exact (leNat_leBytes_of_lt (UInt16.toNat_lt value)).symm
  | u32 => exact (leNat_leBytes_of_lt (UInt32.toNat_lt value)).symm
  | u64 => exact (leNat_leBytes_of_lt (UInt64.toNat_lt value)).symm
  | i64 =>
    have hword : leNat (Layout.i64.bytes value) = (Int64.toUInt64 value).toNat :=
      leNat_leBytes_of_lt (UInt64.toNat_lt _)
    rw [layout, Says, hword]
    exact (Int64.toBitVec value).toInt_eq_toNat_cond

/-- A call that finds its bytes gives what they say and moves behind them. -/
theorem run_of_enough (h : call.width ≤ c.remaining) :
    ∃ value, call.Says (c.rest.take call.width) value ∧
      call.run c = (.ok value, c.advance call.width (c.rest.drop call.width)) := by
  obtain ⟨value, rest, hrest⟩ := call.layout.exists_bytes_append (call.size_layout.symm ▸ h)
  have hlength : (call.layout.bytes value).length = call.width := (Layout.length_bytes ..).trans call.size_layout
  refine ⟨value, ?_, ?_⟩
  · rw [hrest, List.take_left' hlength]
    exact call.says_bytes value
  · rw [run_eq_next, next_append hrest, call.size_layout, hrest, List.drop_left' hlength]

/-- A call that asks for more than there is fails, says how long the record would have to be, and does not move. -/
theorem run_of_short (h : c.remaining < call.width) :
    call.run c = (.error ⟨c.record, c.consumed + call.width, c.total⟩, c) := by
  rw [run_eq_next, next_of_short (call.size_layout.symm ▸ h), call.size_layout]

end Call

/-- A call and what it gave. -/
structure Answer where
  call : Call
  result : Except Malformed call.Result

namespace Answer

/-- The call did not fail. -/
def succeeded (a : Answer) : Bool := a.result.isOk

/-- The bytes that an answer took from the record: all that the call asked for, and the result is what they say; or
none, for a call that failed. -/
def Takes (a : Answer) (slice : Bytes) : Prop :=
  match a.result with
  | .ok value => slice.length = a.call.width ∧ a.call.Says slice value
  | .error _ => slice = []

end Answer

/-- The answers to calls that follow each other, and where the cursor is after them. -/
def answersTo : List Call → Cursor → List Answer × Cursor
  | [], c => ([], c)
  | call :: calls, c =>
    let here := call.run c
    let later := answersTo calls here.2
    (⟨call, here.1⟩ :: later.1, later.2)

section Runs

variable {record : String} {bs : Bytes} {answers : List Answer} {c : Cursor}

theorem answersTo_cons (call : Call) (calls : List Call) (c : Cursor) :
    answersTo (call :: calls) c =
      (⟨call, (call.run c).1⟩ :: (answersTo calls (call.run c).2).1, (answersTo calls (call.run c).2).2) := rfl

theorem answersTo_concat (calls : List Call) (call : Call) (c : Cursor) :
    answersTo (calls ++ [call]) c =
      ((answersTo calls c).1 ++ [⟨call, (call.run (answersTo calls c).2).1⟩], (call.run (answersTo calls c).2).2) := by
  induction calls generalizing c with
  | nil => rfl
  | cons first calls ih => rw [List.cons_append, answersTo_cons, ih, answersTo_cons, List.cons_append]

theorem map_call_answersTo (calls : List Call) (c : Cursor) : (answersTo calls c).1.map Answer.call = calls := by
  induction calls generalizing c with
  | nil => rfl
  | cons call calls ih => rw [answersTo_cons, List.map_cons, ih]

/-! ## The place in the record -/

/-- Where a cursor is after some answers: behind the slices that they took, which are the record up to there. -/
structure Behind (record : String) (bs : Bytes) (answers : List Answer) (c : Cursor) : Prop where
  record_eq : c.record = record
  slices : ∃ slices, List.Forall₂ Answer.Takes answers slices ∧ slices.flatten ++ c.rest = bs ∧
    c.consumed = slices.flatten.length

theorem Behind.start (record : String) (bs : Bytes) : Behind record bs [] (start record bs) :=
  ⟨rfl, [], .nil, rfl, rfl⟩

theorem Behind.total_eq (h : Behind record bs answers c) : c.total = bs.length := by
  obtain ⟨slices, -, rfl, hconsumed⟩ := h.slices
  rw [total, hconsumed, List.length_append, remaining]

/-- One call takes a slice of what is behind the cursor, an empty one if it fails, and the cursor moves behind it. -/
theorem exists_slice (call : Call) (c : Cursor) :
    ∃ slice rest, (call.run c).2 = c.advance slice.length rest ∧ slice ++ rest = c.rest ∧
      Answer.Takes ⟨call, (call.run c).1⟩ slice := by
  by_cases henough : call.width ≤ c.remaining
  · obtain ⟨value, hsays, hrun⟩ := Call.run_of_enough henough
    have hlength : (c.rest.take call.width).length = call.width := List.length_take_of_le henough
    refine ⟨c.rest.take call.width, c.rest.drop call.width, ?_, List.take_append_drop .., ?_⟩
    · rw [hrun, hlength]
    · rw [hrun]
      exact ⟨hlength, hsays⟩
  · refine ⟨[], c.rest, ?_, rfl, ?_⟩
    · rw [Call.run_of_short (Nat.not_le.mp henough)]
      rfl
    · rw [Call.run_of_short (Nat.not_le.mp henough)]
      rfl

theorem Behind.concat (h : Behind record bs answers c) (call : Call) :
    Behind record bs (answers ++ [⟨call, (call.run c).1⟩]) (call.run c).2 := by
  obtain ⟨slices, htaken, hbs, hconsumed⟩ := h.slices
  obtain ⟨slice, rest, hplace, hrest, htakes⟩ := exists_slice call c
  rw [hplace]
  refine ⟨h.record_eq, slices ++ [slice], List.rel_append htaken (.cons htakes .nil), ?_, ?_⟩
  · rw [List.flatten_concat, List.append_assoc, advance, hrest, hbs]
  · rw [List.flatten_concat, List.length_append, advance, hconsumed]

/-- A whole run keeps its place. -/
theorem behind_answersTo (record : String) (bs : Bytes) (calls : List Call) :
    Behind record bs (answersTo calls (start record bs)).1 (answersTo calls (start record bs)).2 := by
  induction calls using List.reverseRecOn with
  | nil => exact .start record bs
  | append_singleton calls call ih =>
    rw [answersTo_concat]
    exact ih.concat call

/-! ## Calls that fail -/

/-- Without the calls that fail, the others are answered as with them. -/
theorem answersTo_succeeded (calls : List Call) (c : Cursor) :
    answersTo (((answersTo calls c).1.filter Answer.succeeded).map Answer.call) c =
      ((answersTo calls c).1.filter Answer.succeeded, (answersTo calls c).2) := by
  induction calls generalizing c with
  | nil => rfl
  | cons call calls ih =>
    rw [answersTo_cons]
    by_cases henough : call.width ≤ c.remaining
    · obtain ⟨value, -, hrun⟩ := Call.run_of_enough henough
      have hkept : Answer.succeeded ⟨call, (call.run c).1⟩ = true := by rw [hrun]; rfl
      rw [List.filter_cons_of_pos hkept, List.map_cons, answersTo_cons, ih]
    · -- The cursor stays, so the calls that follow are made where they are made without this one.
      have hrun := Call.run_of_short (Nat.not_le.mp henough)
      have hdropped : ¬ Answer.succeeded ⟨call, (call.run c).1⟩ = true := by rw [hrun]; exact Bool.false_ne_true
      rw [List.filter_cons_of_neg hdropped, hrun]
      exact ih c

/-- **No run of calls loses its place.** Every call has its answer. The answers take the record from its start, slice by
slice, so the bytes consumed and those that remain are always the whole record; and without the calls that failed the
others are answered as with them. One call more fails exactly if it asks for more bytes than remain: it then says how
many the record would need and how many it has, and the cursor stays. Else it gives what the next bytes say, and the
cursor is behind them. -/
theorem answers_exact (record : String) (bs : Bytes) (calls : List Call) :
    ∃ answers c, answersTo calls (start record bs) = (answers, c) ∧ answers.map Answer.call = calls ∧
      Behind record bs answers c ∧ c.consumed + c.remaining = bs.length ∧
      answersTo ((answers.filter Answer.succeeded).map Answer.call) (start record bs) =
        (answers.filter Answer.succeeded, c) ∧
      ∀ call : Call,
        if call.width ≤ c.remaining then
          ∃ value, call.Says (c.rest.take call.width) value ∧
            answersTo (calls ++ [call]) (start record bs) =
              (answers ++ [⟨call, .ok value⟩], c.advance call.width (c.rest.drop call.width))
        else
          answersTo (calls ++ [call]) (start record bs) =
            (answers ++ [⟨call, .error ⟨record, c.consumed + call.width, bs.length⟩⟩], c) := by
  have hbehind := behind_answersTo record bs calls
  refine ⟨_, _, rfl, map_call_answersTo .., hbehind, hbehind.total_eq, answersTo_succeeded .., fun call => ?_⟩
  rw [answersTo_concat]
  split
  · rename_i henough
    obtain ⟨value, hsays, hrun⟩ := Call.run_of_enough henough
    exact ⟨value, hsays, by rw [hrun]⟩
  · rename_i hshort
    rw [Call.run_of_short (Nat.not_le.mp hshort), hbehind.record_eq, hbehind.total_eq]

example : answersTo [.u8, .u64, .u16, .i64] (start "record" [1, 2, 3]) =
    ([⟨.u8, .ok 1⟩, ⟨.u64, .error ⟨"record", 9, 3⟩⟩, ⟨.u16, .ok 0x302⟩, ⟨.i64, .error ⟨"record", 11, 3⟩⟩],
      ⟨"record", 3, []⟩) := rfl

end Runs

end Cursor

end LightClient
