import LightClient.Exchange.Basic
/-!
# Dialogues: what a client asks, one exchange after the other

A `Dialogue α` is a finite tree: it is done, or it makes one exchange and goes on with what came of
it, or it pauses. What the client does with a node is written as a dialogue once and can then be held
over any link (`Dialogue.run`); the first exchange that fails ends it. Two dialogues held one after
the other are held on one link, the second on what the first left (`run_bind`).
-/
namespace LightClient

/-- What a client asks of a node, and what it makes of the answers. -/
inductive Dialogue (α : Type) : Type 1 where
  | done (outcome : Outcome α)
  | ask {β : Type} (exchange : Exchange β) (next : β → Dialogue α)
  | pause (milliseconds : Nat) (next : Dialogue α)

namespace Dialogue

variable {α β σ : Type}

/-- Holds one dialogue after the other. -/
def bind (d : Dialogue α) (f : α → Dialogue β) : Dialogue β :=
  match d with
  | done (.ok a) => f a
  | done (.error e) => done (.error e)
  | ask exchange next => ask exchange fun b => (next b).bind f
  | pause ms next => pause ms (next.bind f)

instance : Monad Dialogue where
  pure a := done (.ok a)
  bind := bind

/-- A dialogue of a single exchange. -/
def once (exchange : Exchange α) : Dialogue α := ask exchange fun a => done (.ok a)

/-- A dialogue that ends with an error. -/
def fail (e : Error) : Dialogue α := done (.error e)

/-- Holds a dialogue over a link. Pauses take no time here. -/
def run [Transport σ] : Dialogue α → Session σ → Outcome α × Session σ
  | done outcome, s => (outcome, s)
  | ask exchange next, s =>
      match s.run exchange with
      | (.ok b, s') => (next b).run s'
      | (.error e, s') => (.error e, s')
  | pause _ next, s => next.run s

theorem run_bind [Transport σ] (d : Dialogue α) (f : α → Dialogue β) (s : Session σ) :
    (d.bind f).run s =
      match d.run s with
      | (.ok a, s') => (f a).run s'
      | (.error e, s') => (.error e, s') := by
  induction d generalizing s with
  | done outcome => cases outcome <;> rfl
  | ask exchange next ih =>
    simp only [bind, run]
    split
    · exact ih ..
    · rfl
  | pause ms next ih => exact ih s

theorem run_once [Transport σ] (exchange : Exchange α) (s : Session σ) :
    (once exchange).run s = s.run exchange := by
  rw [once, run]
  rcases s.run exchange with ⟨e | a, s'⟩ <;> rfl

theorem run_once_bind [Transport σ] (exchange : Exchange α) (f : α → Dialogue β) (s : Session σ) :
    ((once exchange).bind f).run s =
      match s.run exchange with
      | (.ok a, s') => (f a).run s'
      | (.error e, s') => (.error e, s') := by
  rw [run_bind, run_once]

end Dialogue

end LightClient
