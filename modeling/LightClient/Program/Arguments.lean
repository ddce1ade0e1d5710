import LightClient.Program.Help
/-!
# The command line

A command line names a command, with its arguments in order and its options anywhere after it.
Options about the node may also stand before the command; given in both places, the later one
counts, and no option may stand twice in one place. An option's value is the next argument or follows
an equals sign; what begins with a hyphen is never a value unless it follows an equals sign or a lone
`--`.

A command line is judged from left to right, so that of a request for help and a mistake the first
one counts. Two things are judged late: whether an argument is missing, after everything else, and a
value that stands by itself right before the command's name, after the command's own part.
-/
namespace LightClient

/-- What keeps a command line from naming a command to run. -/
inductive Stop where
  | help (topic : Topic)
  | version | misuse
  deriving DecidableEq, Repr

/-- A part of the command line. -/
structure Part where
  /-- What it is about. -/
  topic : Topic
  /-- The options that may stand in it. -/
  options : List Opt
  /-- The arguments that may stand in it, in order. -/
  arguments : List ArgumentKind
  deriving DecidableEq

namespace Part

/-- The part before the command's name. -/
def program : Part := ⟨.program, Opt.shared, []⟩

/-- The part after a command's name. -/
def ofCommand (name : CommandName) : Part :=
  ⟨.command name, name.options ++ Opt.shared, name.arguments.map (·.kind)⟩

/-- Whether the version can be asked for, and a command's name ends the part. -/
def isFirst (part : Part) : Bool := part.topic == .program

end Part

/-- What was found on a part of the command line. -/
structure Given where
  options : List (Opt × String)
  /-- The last option with a value of its own, not yet judged. -/
  pending : Option (Opt × String)
  arguments : List String
  deriving DecidableEq

namespace Given

/-- Nothing. -/
def empty : Given := ⟨[], none, []⟩

/-- The value of an option, if it was given. -/
def value? (g : Given) (o : Opt) : Option String := (g.options.find? fun p => p.1 == o).map (·.2)

/-- One more option, unless it was given before or cannot have this value. -/
def withOption (g : Given) (o : Opt) (v : String) : Except Stop Given :=
  if (g.value? o).isSome || !o.accepts v then .error .misuse
  else .ok { g with options := g.options ++ [(o, v)] }

/-- Judges the option that was left pending. -/
def settle (g : Given) : Except Stop Given :=
  match g.pending with
  | none => .ok g
  | some (o, v) => { g with pending := none }.withOption o v

/-- One more argument, unless there are too many or this one cannot stand here. -/
def withArgument (g : Given) (part : Part) (v : String) : Except Stop Given :=
  match part.arguments[g.arguments.length]? with
  | some kind =>
      if kind.accepts v then .ok { g with arguments := g.arguments ++ [v] } else .error .misuse
  | none => .error .misuse

end Given

namespace Arguments

/-- Whether an argument is an option rather than a value. -/
def isOption (arg : String) : Bool := arg.startsWith "-" && arg != "-"

/-- The name and the value of an option written as one argument. -/
def splitOption (arg : String) : String × Option String :=
  let body := (arg.toList.drop 2)
  let name := String.ofList (body.takeWhile (· != '='))
  match body.dropWhile (· != '=') with
  | [] => (name, none)
  | _ :: v => (name, some (String.ofList v))

/-- Goes through a part of the command line, and gives what it holds and what comes after it. -/
def scan (part : Part) : List String → Given → Except Stop (Given × List String)
  | [], g => do return (← g.settle, [])
  | arg :: rest, g =>
      if !isOption arg then
        if part.isFirst then .ok (g, arg :: rest)
        else do
          let g ← g.settle
          scan part rest (← g.withArgument part arg)
      else do
        let g ← g.settle
        if arg = "--" then
          return (← rest.foldlM (fun g v => g.withArgument part v) g, [])
        else if arg.startsWith "--" then
          let (name, value) := splitOption arg
          if name = "help" ∧ value.isNone then .error (.help part.topic)
          else if part.isFirst ∧ name = "version" ∧ value.isNone then .error .version
          else
            match part.options.find? fun o => o.name == name, value with
            | none, _ => .error .misuse
            | some o, some v =>
                if o.hasValue then scan part rest (← g.withOption o v) else .error .misuse
            | some o, none =>
                if o.hasValue then
                  match rest with
                  | [] => .error .misuse
                  | v :: rest =>
                      if isOption v then .error .misuse
                      else scan part rest { g with pending := some (o, v) }
                else scan part rest (← g.withOption o "")
        else if arg.startsWith "-h" then .error (.help part.topic)
        else if part.isFirst ∧ arg.startsWith "-V" then .error .version
        else .error .misuse

/-- The wait that the options ask for. -/
def wait (g : Given) : WaitPolicy :=
  let interval := (g.value? .pollMs).bind (below UInt64.size)
  let limit := (g.value? .maxPolls).bind (within UInt32.size)
  .every (interval.getD Opt.usualInterval) (limit.map Nat.toUInt32)

/-- What comes of asking for help: there is help on the program, on one of its commands and on help
itself. -/
def helpOn : List String → Stop
  | [] => .help .program
  | [name] =>
      if name = "help" then .help .help
      else match CommandName.ofText? name with
        | some command => .help (.command command)
        | none => .misuse
  | _ => .misuse

/-- The command with a name, from its arguments and options, if no argument is missing. -/
def command? (name : CommandName) (g : Given) : Option Command :=
  let computorFile := g.value? .computorFile
  match name, g.arguments with
  | .getCurrentTick, [] => some .getCurrentTick
  | .getComputorList, [out] => return .getComputorList (← path? out)
  | .getQuorumTick, [file, tick] =>
      return .getQuorumTick (← path? file) (← tick? tick) (g.value? .allowUnverified).isSome
  | .getTickData, [tick, out] => return .getTickData (← tick? tick) (← path? out)
  | .readTickData, [file] => return .readTickData (← path? file) none
  | .readTickData, [file, list] => return .readTickData (← path? file) (some (← path? list))
  | .checkTxOnTick, [tick, wanted] =>
      return .checkTxOnTick (← tick? tick) wanted computorFile (wait g)
  | .checkTxOnFile, [wanted, file] => return .checkTxOnFile wanted (← path? file) computorFile
  | _, _ => none

end Arguments

/-- A command line that names a command. -/
structure Invocation where
  command : Command
  nodeAddress : String
  port : UInt16
  timeout : UInt64
  /-- The identity of the trust anchor, as it was given. -/
  arbitrator : Option String
  deriving DecidableEq

namespace Invocation

open Arguments

/-- The invocation of a command, from what stands before and after its name. -/
def make (command : Command) (before after : Given) : Invocation :=
  let value (o : Opt) : Option String := (after.value? o).or (before.value? o)
  { command
    nodeAddress := (value .nodeIp).getD Settings.defaultAddress
    port := (((value .nodePort).bind (within UInt16.size)).map Nat.toUInt16).getD
      Settings.defaultPort
    timeout := (((value .timeoutMs).bind (below UInt64.size)).map Nat.toUInt64).getD
      Settings.defaultTimeout
    arbitrator := value .arbitrator }

/-- The invocation that a command line stands for. -/
def ofArguments (args : List String) : Except Stop Invocation := do
  let (before, rest) ← scan .program args Given.empty
  match rest with
  | [] => .error .misuse
  | "help" :: rest => .error (helpOn rest)
  | name :: rest =>
      match CommandName.ofText? name with
      | none => .error .misuse
      | some name =>
          let (after, _) ← scan (.ofCommand name) rest Given.empty
          match command? name after with
          | none => .error .misuse
          | some command => return make command (← before.settle) after

/-- The settings of an invocation; the trust anchor's identity must be one. -/
def settings (i : Invocation) : Outcome Settings :=
  match i.arbitrator with
  | none => .ok ⟨i.nodeAddress, i.port, i.timeout, none⟩
  | some text =>
      match PublicKey.ofIdentity text with
      | .ok key => .ok ⟨i.nodeAddress, i.port, i.timeout, some key⟩
      | .error flaw => .error (.invalidIdentity flaw)

/-- What an invocation does. -/
def script (i : Invocation) : Script Unit := do
  let settings ← Script.ofOutcome i.settings
  i.command.script settings

end Invocation

/-- How a run of the program ends. -/
structure Exit where
  code : UInt8
  /-- What is told on the error channel, except for how to use the program. -/
  complaint : Option String
  deriving DecidableEq

namespace Exit

/-- The end of a run that a script came to. -/
def ofResult (result : Except Failure Unit) : Exit :=
  match result with
  | .ok () => ⟨0, none⟩
  | .error failure => ⟨1, some ("Error: " ++ failure.report ++ "\n")⟩

end Exit

namespace Arguments

/-- The name and the version of the program. -/
def versionLine : String := Topic.programName ++ " 0.1.0"

/-- What the program does with a command line that stops it, and how that ends. -/
def stopped : Stop → List String × Exit
  | .help topic => (topic.lines, ⟨0, none⟩)
  | .version => ([versionLine], ⟨0, none⟩)
  | .misuse => ([], ⟨2, some (Topic.program.usage ++ "\n")⟩)

/-- Runs the program on a command line in a world. -/
def run {σ : Type} [Transport σ] (args : List String) (world : World σ) : Exit × World σ :=
  match Invocation.ofArguments args with
  | .error stop =>
      let (lines, exit) := stopped stop
      (exit, world.print lines)
  | .ok invocation =>
      let (result, world) := invocation.script.run world
      (Exit.ofResult result, world)

end Arguments

end LightClient
