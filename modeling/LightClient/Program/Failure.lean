import LightClient.Error
/-!
# How a command fails

A failure has a message and the causes below it, the nearest first. It is told in one line, or as a
report in which the causes stand below the message, numbered if there are several.
-/
namespace LightClient

/-- Why a command failed. -/
structure Failure where
  message : String
  causes : List String
  deriving DecidableEq, Repr

namespace Failure

/-- A failure without further causes. -/
def ofMessage (message : String) : Failure := ⟨message, []⟩

/-- The failure that an error leads to. Faults of the outside world are causes of their own. -/
def ofError (e : Error) : Failure :=
  match e with
  | .connectivity fault => ⟨e.message, [fault.message]⟩
  | .io fault => ⟨e.message, [fault.message]⟩
  | _ => ⟨e.message, []⟩

/-- A failure as the cause of another. -/
def under (message : String) (f : Failure) : Failure := ⟨message, f.message :: f.causes⟩

/-- The message and the causes in one line. -/
def line (f : Failure) : String := ": ".intercalate (f.message :: f.causes)

/-- A text whose further lines are indented. -/
def indented (indent text : String) : String := ("\n" ++ indent).intercalate (text.splitOn "\n")

/-- The message, and below it the causes. -/
def report (f : Failure) : String :=
  match f.causes with
  | [] => f.message
  | [cause] => f.message ++ "\n\nCaused by:\n    " ++ indented "    " cause
  | causes =>
      f.message ++ "\n\nCaused by:" ++ String.join (causes.zipIdx.map fun p =>
        let number := toString p.2
        "\n" ++ "".pushn ' ' (5 - number.length) ++ number ++ ": " ++ indented "       " p.1)

end Failure

end LightClient
