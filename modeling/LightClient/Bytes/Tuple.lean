import LightClient.Bytes.Basic
/-!
# Lists of a fixed length

`Tuple α n` is a list that is known to have `n` elements: the 32 bytes of a digest, the 676 keys of
an epoch, the 1024 slots of a tick. Two tuples are joined by `append` and taken apart by `front` and
`back`, each undoing the other (`append_front_back`, `front_append`, `back_append`).
-/
namespace LightClient

/-- A list with exactly `n` elements. -/
@[ext] structure Tuple (α : Type) (n : Nat) where
  toList : List α
  length_toList : toList.length = n
  deriving DecidableEq

/-- A byte string of known length. -/
abbrev Octets (n : Nat) := Tuple UInt8 n

namespace Tuple

attribute [simp] length_toList

variable {α β : Type} {m n : Nat}

/-- The list as a tuple, if it has the wanted length. -/
def ofList? (n : Nat) (l : List α) : Option (Tuple α n) :=
  if h : l.length = n then some ⟨l, h⟩ else none

/-- The same element `n` times. -/
def replicate (n : Nat) (a : α) : Tuple α n := ⟨List.replicate n a, by simp⟩

/-- The elements of the first tuple, then those of the second. -/
def append (s : Tuple α m) (t : Tuple α n) : Tuple α (m + n) :=
  ⟨s.toList ++ t.toList, by simp⟩

/-- The first `m` elements. -/
def front (t : Tuple α (m + n)) : Tuple α m := ⟨t.toList.take m, by simp⟩

/-- The elements after the first `m`. -/
def back (t : Tuple α (m + n)) : Tuple α n := ⟨t.toList.drop m, by simp⟩

/-- Each element under a function. -/
def map (f : α → β) (t : Tuple α n) : Tuple β n := ⟨t.toList.map f, by simp⟩

/-- The element at a position, if there is one. -/
def get? (t : Tuple α n) (i : Nat) : Option α := t.toList[i]?

/-- The element at a position below the length. -/
def get (t : Tuple α n) (i : Fin n) : α := t.toList.get (i.cast t.length_toList.symm)

@[simp] theorem append_front_back (t : Tuple α (m + n)) : t.front.append t.back = t := by
  ext1; simp [append, front, back]

@[simp] theorem front_append (s : Tuple α m) (t : Tuple α n) : (s.append t).front = s := by
  ext1
  have : m = s.toList.length := s.length_toList.symm
  simp only [front, append]
  rw [List.take_append_of_le_length (by omega), List.take_of_length_le (by omega)]

@[simp] theorem back_append (s : Tuple α m) (t : Tuple α n) : (s.append t).back = t := by
  ext1
  simp only [back, append]
  exact List.drop_left' s.length_toList

theorem append_inj {s s' : Tuple α m} {t t' : Tuple α n} (h : s.append t = s'.append t') : s = s' ∧ t = t' := by
  have hfront : s = s' := by rw [← front_append s t, h, front_append]
  have hback : t = t' := by rw [← back_append s t, h, back_append]
  exact ⟨hfront, hback⟩

end Tuple

end LightClient
