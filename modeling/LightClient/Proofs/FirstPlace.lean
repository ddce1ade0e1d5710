import Mathlib.Data.List.Induction
/-!
# The first place of an element

`FirstPlace l a i` says that `l` has `a` at place `i` and not before. Searching for an element finds this place
(`findIdx?_eq_some_iff`), and none if the list does not have the element (`findIdx?_eq_none_iff`). `ComesBefore` orders
the elements by their first places, and in this order they stand when repetitions are dropped
(`pairwise_comesBefore_eraseDups`).
-/
namespace LightClient

/-- A list has an element at a place, and at none before it. -/
structure FirstPlace {α : Type} (l : List α) (a : α) (i : Nat) : Prop where
  here : l[i]? = some a
  not_before : ∀ j < i, l[j]? ≠ some a

namespace FirstPlace

variable {α : Type} {l : List α} {a : α} {i : Nat}

theorem lt_length (h : FirstPlace l a i) : i < l.length := (List.getElem?_eq_some_iff.mp h.here).1

theorem findIdx?_eq_some_iff [DecidableEq α] : l.findIdx? (· == a) = some i ↔ FirstPlace l a i := by
  rw [List.findIdx?_eq_some_iff_getElem]
  constructor
  · rintro ⟨hi, hhere, hbefore⟩
    refine ⟨List.getElem?_eq_some_iff.mpr ⟨hi, eq_of_beq hhere⟩, fun j hj hsame => ?_⟩
    obtain ⟨hj', heq⟩ := List.getElem?_eq_some_iff.mp hsame
    exact hbefore j hj (heq ▸ beq_self_eq_true a)
  · rintro ⟨hhere, hbefore⟩
    obtain ⟨hi, rfl⟩ := List.getElem?_eq_some_iff.mp hhere
    refine ⟨hi, beq_self_eq_true _, fun j hj hsame => ?_⟩
    exact hbefore j hj (List.getElem?_eq_some_iff.mpr ⟨Nat.lt_trans hj hi, eq_of_beq hsame⟩)

theorem findIdx?_eq_none_iff [DecidableEq α] : l.findIdx? (· == a) = none ↔ a ∉ l := by
  rw [List.findIdx?_eq_none_iff]
  constructor
  · intro h hmem
    have hne := h a hmem
    rw [beq_self_eq_true] at hne
    cases hne
  · intro h x hx
    exact beq_false_of_ne fun heq => h (heq ▸ hx)

theorem exists_of_mem [DecidableEq α] (h : a ∈ l) : ∃ i, FirstPlace l a i := by
  have hfound : l.findIdx? (· == a) ≠ none := fun hnone => findIdx?_eq_none_iff.mp hnone h
  obtain ⟨i, hi⟩ := Option.ne_none_iff_exists'.mp hfound
  exact ⟨i, findIdx?_eq_some_iff.mp hi⟩

theorem unique {j : Nat} (hi : FirstPlace l a i) (hj : FirstPlace l a j) : i = j := by
  rcases Nat.lt_trichotomy i j with h | h | h
  · exact absurd hi.here (hj.not_before i h)
  · exact h
  · exact absurd hj.here (hi.not_before j h)

/-- What comes behind the list changes no first place. -/
theorem append (h : FirstPlace l a i) (l' : List α) : FirstPlace (l ++ l') a i := by
  have hi := h.lt_length
  refine ⟨(List.getElem?_append_left hi).trans h.here, fun j hj => ?_⟩
  rw [List.getElem?_append_left (Nat.lt_trans hj hi)]
  exact h.not_before j hj

theorem concat (h : a ∉ l) : FirstPlace (l ++ [a]) a l.length := by
  refine ⟨List.getElem?_concat_length, fun j hj hsame => ?_⟩
  rw [List.getElem?_append_left hj] at hsame
  exact h (List.mem_of_getElem? hsame)

end FirstPlace

/-- The first place of one element is before the first place of the other. -/
def ComesBefore {α : Type} (l : List α) (a b : α) : Prop :=
  ∃ i j, FirstPlace l a i ∧ FirstPlace l b j ∧ i < j

theorem ComesBefore.append {α : Type} {l : List α} {a b : α} (h : ComesBefore l a b) (l' : List α) :
    ComesBefore (l ++ l') a b := by
  obtain ⟨i, j, hi, hj, hlt⟩ := h
  exact ⟨i, j, hi.append l', hj.append l', hlt⟩

theorem ComesBefore.asymm {α : Type} {l : List α} {a b : α} (h : ComesBefore l a b) : ¬ ComesBefore l b a := by
  rintro ⟨j', i', hj', hi', hlt'⟩
  obtain ⟨i, j, hi, hj, hlt⟩ := h
  have hsame : i = i' := hi.unique hi'
  have hsame' : j = j' := hj.unique hj'
  omega

/-- Without its repetitions, a list has its elements in the order of their first places. The induction is from the end:
the last element is new, and then comes after all others, or it is dropped. -/
theorem pairwise_comesBefore_eraseDups {α : Type} [DecidableEq α] (l : List α) :
    l.eraseDups.Pairwise (ComesBefore l) := by
  induction l using List.reverseRecOn with
  | nil => exact .nil
  | append_singleton l a ih =>
    have hbefore : l.eraseDups.Pairwise (ComesBefore (l ++ [a])) := ih.imp fun h => h.append [a]
    rw [List.eraseDups_append]
    by_cases ha : a ∈ l
    · have hdropped : [a].removeAll l = [] := by simp [List.removeAll, ha]
      rw [hdropped, List.eraseDups_nil, List.append_nil]
      exact hbefore
    · have hkept : [a].removeAll l = [a] := by simp [List.removeAll, ha]
      have hlast : [a].eraseDups = [a] := rfl
      rw [hkept, hlast, List.pairwise_append]
      refine ⟨hbefore, List.pairwise_singleton _ a, fun x hx y hy => ?_⟩
      obtain rfl := List.mem_singleton.mp hy
      obtain ⟨i, hi⟩ := FirstPlace.exists_of_mem (List.mem_eraseDups.mp hx)
      exact ⟨i, l.length, hi.append [y], .concat ha, hi.lt_length⟩

end LightClient
