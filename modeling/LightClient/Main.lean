import LightClient.Program.Arguments
/-!
# The program

Runs the command that the command line names, with the files of the working directory and standard
output. The scripts of `LightClient.Program` decide everything; here their steps are carried out. No
network is within reach of this build: connecting fails as it does on a host without a route, and the
commands that need a node report that.

A name in parentheses in the description of a definition, such as (`next_response`), is what the program calls that
operation or kind of record, where the library has another name for it.
-/
namespace LightClient

/-- The fault that an error of the file system stands for. -/
def Fault.ofIO : IO.Error → Fault
  | .noFileOrDirectory .. => .notFound
  | .inappropriateType _ 21 _ => .isDirectory
  | .inappropriateType _ 20 _ => .notDirectory
  | .illegalOperation .. => .isDirectory
  | e => .reported (toString e)

/-- Carries out the steps of a script. -/
def Script.perform {α : Type} : Script α → IO (Except Failure α)
  | done result => return result
  | print line next => do
      IO.println line
      next.perform
  | readFile name next => do
      let result ← (IO.FS.readBinFile name).toBaseIO
      match result with
      | .ok bs => (next (.ok bs.toList)).perform
      | .error e => (next (.error (.ofIO e))).perform
  | writeFile name content next => do
      let result ← (IO.FS.writeBinFile name ⟨content.toArray⟩).toBaseIO
      match result with
      | .ok () => (next (.ok ())).perform
      | .error e => (next (.error (.ofIO e))).perform
  | connect next => (next (.error .unreachable)).perform
  | converse _ next => (next (.error (.connectivity .unreachable))).perform

end LightClient

open LightClient in
/-- Runs the program and gives its exit code. -/
def main (args : List String) : IO UInt32 := do
  match Invocation.ofArguments args with
  | .error stop =>
      let (lines, exit) := Arguments.stopped stop
      for line in lines do
        IO.println line
      IO.eprint (exit.complaint.getD "")
      return exit.code.toUInt32
  | .ok invocation =>
      let exit := Exit.ofResult (← invocation.script.perform)
      IO.eprint (exit.complaint.getD "")
      return exit.code.toUInt32
