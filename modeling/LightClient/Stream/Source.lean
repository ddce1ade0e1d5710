import LightClient.Bytes.Basic
import LightClient.Fault
/-!
# Streams that are read

A `Source` is a stream of bytes with a schedule of how its next reads go: a read may give fewer bytes
than asked for, may be interrupted, or may fail. When the schedule is used up, reads give all that is
asked for and at hand. After the last byte a source is closed, or stays open and silent.

`fill` reads until it has what was wanted or the stream ends: it goes on after short and interrupted
reads. `readExact` is the same for callers to whom a short result is a fault.
-/
namespace LightClient

/-- How one read goes. -/
inductive ReadStep where
  /-- It gives at most so many bytes; none means that the stream ends for this read. -/
  | deliver (n : Nat)
  /-- It is interrupted before it has any bytes. -/
  | interrupt
  /-- It fails. -/
  | fail (fault : Fault)
  deriving DecidableEq, Repr

/-- What comes after the last byte of a stream. -/
inductive Ending where
  | closed | silent
  deriving DecidableEq, Repr

/-- The part of a stream that is still to be read. -/
structure Source where
  bytes : Bytes
  schedule : List ReadStep
  ending : Ending
  deriving DecidableEq, Repr

/-- What one read gives. -/
inductive ReadResult where
  | data (bytes : Bytes)
  | ended
  | interrupted
  | failed (fault : Fault)
  deriving DecidableEq, Repr

namespace Source

/-- A stream that gives everything asked for and is closed after its last byte. -/
def ofBytes (bs : Bytes) : Source := ⟨bs, [], .closed⟩

/-- A read of at most `n` bytes that goes as it should. -/
def give (n : Nat) (s : Source) : ReadResult × Source :=
  match s.bytes.take n, s.ending with
  | [], .silent => (if n = 0 then .ended else .failed .timedOut, s)
  | [], .closed => (.ended, s)
  | got, _ => (.data got, { s with bytes := s.bytes.drop n })

/-- One read of at most `wanted` bytes. -/
def read (wanted : Nat) (s : Source) : ReadResult × Source :=
  match s.schedule with
  | [] => s.give wanted
  | .deliver n :: steps => { s with schedule := steps }.give (min n wanted)
  | .interrupt :: steps => (.interrupted, { s with schedule := steps })
  | .fail fault :: steps => (.failed fault, { s with schedule := steps })

/-- A bound on how many reads can give something or be interrupted. -/
def pending (s : Source) : Nat := s.bytes.length + s.schedule.length

theorem give_data {n : Nat} {s s' : Source} {got : Bytes} (h : s.give n = (.data got, s')) :
    got = s.bytes.take n ∧ 0 < got.length ∧ s' = { s with bytes := s.bytes.drop n } := by
  unfold give at h
  split at h
  · split at h <;> simp at h
  · simp at h
  · simp only [Prod.mk.injEq, ReadResult.data.injEq] at h
    obtain ⟨rfl, rfl⟩ := h
    refine ⟨rfl, List.length_pos_iff.2 ?_, rfl⟩
    intro hn
    cases he : s.ending <;> simp_all

theorem give_ne_interrupted (n : Nat) (s s' : Source) : s.give n ≠ (.interrupted, s') := by
  unfold give
  split
  · split <;> simp
  · simp
  · simp

theorem pending_of_give {n : Nat} {s s' : Source} {got : Bytes} (h : s.give n = (.data got, s')) :
    s'.pending < s.pending := by
  obtain ⟨rfl, hpos, rfl⟩ := give_data h
  simp only [List.length_take] at hpos
  simp only [pending, List.length_drop]
  omega

theorem pending_of_data {n : Nat} {s s' : Source} {got : Bytes} (h : s.read n = (.data got, s')) :
    s'.pending < s.pending := by
  unfold read at h
  split at h
  · exact pending_of_give h
  · rename_i hs
    have := pending_of_give h
    simp only [pending, hs, List.length_cons] at this ⊢
    omega
  · simp at h
  · simp at h

theorem pending_of_interrupted {n : Nat} {s s' : Source} (h : s.read n = (.interrupted, s')) :
    s'.pending < s.pending := by
  unfold read at h
  split at h
  · exact absurd h (give_ne_interrupted _ _ _)
  · exact absurd h (give_ne_interrupted _ _ _)
  · rename_i hs
    simp only [Prod.mk.injEq, true_and] at h
    subst h
    simp [pending, hs]
  · simp at h

/-- Reads until `wanted` bytes are there or the stream ends, and gives what was read. -/
def fill (wanted : Nat) (s : Source) : Except Fault Bytes × Source :=
  if wanted = 0 then (.ok [], s)
  else
    match _h : s.read wanted with
    | (.data got, s') =>
        let (more, s'') := s'.fill (wanted - got.length)
        (more.map (got ++ ·), s'')
    | (.ended, s') => (.ok [], s')
    | (.interrupted, s') => s'.fill wanted
    | (.failed fault, s') => (.error fault, s')
termination_by s.pending
decreasing_by
  · exact pending_of_data _h
  · exact pending_of_interrupted _h

theorem pending_give_le (n : Nat) (s : Source) : (s.give n).2.pending ≤ s.pending := by
  unfold give
  split
  · exact Nat.le_refl _
  · exact Nat.le_refl _
  · simp only [pending, List.length_drop]
    omega

theorem pending_read_le (n : Nat) (s : Source) : (s.read n).2.pending ≤ s.pending := by
  unfold read
  split
  · exact pending_give_le n s
  · rename_i steps hs
    refine Nat.le_trans (pending_give_le _ _) ?_
    simp [pending, hs]
  · rename_i hs
    simp [pending, hs]
  · rename_i hs
    simp [pending, hs]

theorem pending_fill_le (n : Nat) (s : Source) : (s.fill n).2.pending ≤ s.pending := by
  have step (n : Nat) (s s' : Source) (r : ReadResult) (h : s.read n = (r, s')) :
      s'.pending ≤ s.pending := by
    have := pending_read_le n s
    rwa [h] at this
  fun_induction fill n s with
  | case1 => exact Nat.le_refl _
  | case2 s n hn got s' h more s'' hf ih =>
    rw [hf] at ih
    exact Nat.le_trans ih (step _ _ _ _ h)
  | case3 s n hn s' h => exact step _ _ _ _ h
  | case4 s n hn s' h ih => exact Nat.le_trans ih (step _ _ _ _ h)
  | case5 s n hn fault s' h => exact step _ _ _ _ h

/-- Reads exactly `wanted` bytes. -/
def readExact (wanted : Nat) (s : Source) : Except Fault Bytes × Source :=
  match s.fill wanted with
  | (.ok got, s') => if got.length < wanted then (.error .endOfStream, s') else (.ok got, s')
  | (.error fault, s') => (.error fault, s')

theorem pending_readExact_le (n : Nat) (s : Source) : (s.readExact n).2.pending ≤ s.pending := by
  have := pending_fill_le n s
  unfold readExact
  split
  · rename_i h
    rw [h] at this
    split <;> exact this
  · rename_i h
    rw [h] at this
    exact this

end Source

end LightClient
