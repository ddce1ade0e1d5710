/-!
# Lists with insertions

`Inserted P l l'` says that `l'` is `l` with any number of elements inserted, each of them at a place
where `P` allows it: `P before a` says that `a` may stand right after `before`. Who wants to show
that insertions do not matter looks at one of them only (`Inserted.eq_of_forall`).
-/
namespace LightClient

/-- The second list is the first with elements inserted, one after the other, each where `P` allows. -/
inductive Inserted {α : Type} (P : List α → α → Prop) (l : List α) : List α → Prop where
  | refl : Inserted P l l
  | insert (before after : List α) {a : α} (earlier : Inserted P l (before ++ after))
      (allowed : P before a) : Inserted P l (before ++ a :: after)

namespace Inserted

variable {α β : Type} {P : List α → α → Prop} {l l' : List α}

/-- What no single insertion changes, no number of them changes. -/
theorem eq_of_forall (f : List α → β)
    (h : ∀ before a after, P before a → f (before ++ a :: after) = f (before ++ after))
    (hl : Inserted P l l') : f l' = f l := by
  induction hl with
  | refl => rfl
  | insert before after _ allowed ih => rw [h before _ after allowed, ih]

/-- What stands before both lists can count for where insertions are allowed. -/
theorem append_left (front : List α) (hl : Inserted (fun before => P (front ++ before)) l l') :
    Inserted P (front ++ l) (front ++ l') := by
  induction hl with
  | refl => exact .refl
  | insert before after _ allowed ih =>
    rw [← List.append_assoc] at ih ⊢
    exact ih.insert (front ++ before) after allowed

end Inserted

end LightClient
