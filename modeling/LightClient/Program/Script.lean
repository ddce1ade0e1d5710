import LightClient.Disk
import LightClient.Program.Failure
/-!
# What a command does

A `Script` is a finite tree of what a command does: it prints lines, reads and writes files, connects
to the node and holds dialogues with it. Run in a `World` that is a value, it changes that value, and
the world keeps a record of all that was done; the outer layer runs the same scripts with real files.
A script that follows another finds the world as the other left it (`run_bind`).
-/
namespace LightClient

/-- What a command does, and what it goes on with. -/
inductive Script (α : Type) : Type 1 where
  | done (result : Except Failure α)
  | print (line : String) (next : Script α)
  | readFile (name : String) (next : Except Fault Bytes → Script α)
  | writeFile (name : String) (content : Bytes) (next : Except Fault Unit → Script α)
  | connect (next : Except Fault Unit → Script α)
  | converse {β : Type} (dialogue : Dialogue β) (next : Outcome β → Script α)

/-- Something that a command has done, or tried to do. -/
inductive Deed where
  | printed (line : String)
  | read (name : String)
  | wrote (name : String) (content : Bytes)
  | connected
  | conversed
  deriving DecidableEq

/-- The line that a deed has shown, if any. -/
def Deed.line? : Deed → Option String
  | printed line => some line
  | _ => none

/-- What commands act on. -/
structure World (σ : Type) where
  disk : Disk
  /-- The link to the node, or why there is none. -/
  node : Except Fault (Session σ)
  /-- All that was done or tried so far, in order. -/
  deeds : List Deed

namespace World

variable {σ : Type}

/-- A world in which nothing has been done. -/
def start (disk : Disk) (node : Except Fault (Session σ)) : World σ := ⟨disk, node, []⟩

/-- The world after one more deed. -/
def record (w : World σ) (deed : Deed) : World σ := { w with deeds := w.deeds ++ [deed] }

/-- The lines printed so far. -/
def printed (w : World σ) : List String := w.deeds.filterMap Deed.line?

/-- The world after some lines have been printed. -/
def print (w : World σ) (lines : List String) : World σ :=
  { w with deeds := w.deeds ++ lines.map .printed }

end World

namespace Script

variable {α β σ : Type}

/-- Does one thing after the other; the first failure ends it. -/
def bind (s : Script α) (f : α → Script β) : Script β :=
  match s with
  | done (.ok a) => f a
  | done (.error e) => done (.error e)
  | print line next => print line (next.bind f)
  | readFile name next => readFile name fun r => (next r).bind f
  | writeFile name content next => writeFile name content fun r => (next r).bind f
  | connect next => connect fun r => (next r).bind f
  | converse dialogue next => converse dialogue fun r => (next r).bind f

instance : Monad Script where
  pure a := done (.ok a)
  bind := bind

/-- Fails. -/
def fail (f : Failure) : Script α := done (.error f)

/-- Goes on with a value, or fails with the error's failure. -/
def ofOutcome (r : Outcome α) : Script α := done (r.mapError .ofError)

/-- Goes on with a value, or fails with a message and the error below it. -/
def ofOutcomeUnder (message : String) (r : Outcome α) : Script α :=
  done (r.mapError fun e => (Failure.ofError e).under message)

/-- Goes on with a value if there is one, or fails with a message. -/
def ofOption (message : String) (r : Option α) : Script α :=
  match r with
  | some a => done (.ok a)
  | none => fail (.ofMessage message)

/-- Prints a line. -/
def say (line : String) : Script Unit := print line (done (.ok ()))

/-- Prints lines. -/
def sayAll : List String → Script Unit
  | [] => done (.ok ())
  | line :: lines => print line (sayAll lines)

/-- The content of a file, or why it cannot be read. -/
def content (name : String) : Script (Except Fault Bytes) := readFile name fun r => done (.ok r)

/-- Writes a file. -/
def save (name : String) (bs : Bytes) : Script Unit :=
  writeFile name bs fun r => ofOutcome (r.mapError .io)

/-- Connects to the node. -/
def reachNode : Script Unit := connect fun r => ofOutcome (r.mapError .connectivity)

/-- Holds a dialogue with the node. -/
def hold (dialogue : Dialogue α) : Script α := converse dialogue ofOutcome

/-- Runs a script in a world. -/
def run [Transport σ] : Script α → World σ → Except Failure α × World σ
  | done result, w => (result, w)
  | print line next, w => next.run (w.record (.printed line))
  | readFile name next, w => (next (w.disk.read name)).run (w.record (.read name))
  | writeFile name bs next, w =>
      let (result, disk) := w.disk.write name bs
      (next result).run { w.record (.wrote name bs) with disk }
  | connect next, w => (next (w.node.map fun _ => ())).run (w.record .connected)
  | converse dialogue next, w =>
      let w := w.record .conversed
      match w.node with
      | .ok session =>
          let (outcome, session) := dialogue.run session
          (next outcome).run { w with node := .ok session }
      | .error fault => (next (.error (.connectivity fault))).run w

theorem run_bind [Transport σ] (p : Script α) (f : α → Script β) (w : World σ) :
    (p.bind f).run w =
      match p.run w with
      | (.ok a, w') => (f a).run w'
      | (.error e, w') => (.error e, w') := by
  induction p generalizing w with
  | done result => cases result <;> rfl
  | print line next ih => exact ih _
  | readFile name next ih => exact ih _ _
  | writeFile name bs next ih => exact ih _ _
  | connect next ih => exact ih _ _
  | converse dialogue next ih =>
    simp only [bind, run]
    split
    · exact ih _ _
    · exact ih _ _

end Script

end LightClient
