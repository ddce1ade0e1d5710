import LightClient.Program.Options
/-!
# Help

The program explains itself: as a whole, one of its commands, or help itself. An explanation says
what its topic is for and how to write it, and goes on with tables of commands, arguments and
options. The texts of a table stand two columns behind the longest term, also where a term has none.

The options of a command are listed by their place: the first of its own with the first of the
shared ones, then both second ones, and so on; those of one place by name.
-/
namespace LightClient

/-- What help can be asked on. -/
inductive Topic where
  | program
  | command (name : CommandName)
  | help
  deriving DecidableEq, Repr

/-- A row of a table: a term and the text on it. -/
structure HelpRow where
  term : String
  text : String
  deriving DecidableEq, Repr

namespace HelpRow

/-- A table under its heading, with nothing for no rows. -/
def table (heading : String) (rows : List HelpRow) : List String :=
  if rows.isEmpty then []
  else
    let width := (rows.map (·.term.length)).foldl max 0
    ["", heading ++ ":"] ++
      rows.map fun r => "  " ++ r.term.pushn ' ' (width + 2 - r.term.length) ++ r.text

end HelpRow

namespace Opt

/-- What an option is for. -/
def purpose : Opt → Option String
  | nodeIp => some "Node to query"
  | nodePort => none
  | timeoutMs =>
      some "How long to wait for a node to answer before treating the answer as complete"
  | arbitrator => some "Identity of the key that signs computor lists"
  | allowUnverified => some "Continue even if the computor list signature does not verify"
  | pollMs => some "Poll interval while waiting for the tick to pass"
  | maxPolls => some "Give up after this many polls"
  | computorFile => some "Computor list used to check the tick header's signature"

/-- What the value of an option is called: the option's name in capitals. -/
def valueName (o : Opt) : String := (o.name.map fun c => if c = '-' then '_' else c).toUpper

/-- An option as it is written. -/
def term (o : Opt) : String :=
  if o.hasValue then s!"--{o.name} <{o.valueName}>" else s!"--{o.name}"

/-- The row on an option. -/
def row (o : Opt) : HelpRow :=
  let usual := o.usual.map fun v => s!"[default: {v}]"
  ⟨"    " ++ o.term, " ".intercalate (o.purpose.toList ++ usual.toList)⟩

/-- The order in which options are listed, each with its place. -/
def precedes (a b : Opt × Nat) : Bool := a.2 < b.2 || (a.2 == b.2 && a.1.name < b.1.name)

/-- Some options and the shared ones, as they are listed. -/
def listed (own : List Opt) : List Opt :=
  ((own.zipIdx ++ shared.zipIdx).mergeSort precedes).map (·.1)

end Opt

/-- An argument as it is written. -/
def Argument.term (a : Argument) : String := if a.isOptional then s!"[{a.name}]" else s!"<{a.name}>"

/-- What a command is for. -/
def CommandName.purpose : CommandName → String
  | getCurrentTick => "Print the node's current tick and epoch"
  | getComputorList => "Fetch the epoch's computor list and save it"
  | getQuorumTick => "Resolve a tick's votes into outcomes"
  | getTickData => "Save a tick's header and transactions to an archive file"
  | readTickData => "Print and verify a tick archive"
  | checkTxOnTick => "Check whether a transaction made it into a tick"
  | checkTxOnFile => "Check whether a transaction is in a tick archive"

namespace Topic

/-- The program's name. -/
def programName : String := "tick-quorum"

/-- What a topic is for. -/
def purpose : Topic → String
  | program => "Quorum and transaction verification client"
  | command name => name.purpose
  | help => "Print this message or the help of the given subcommand(s)"

/-- How to write what a topic is about. -/
def usage : Topic → String
  | program => s!"Usage: {programName} [OPTIONS] <COMMAND>"
  | command name =>
      " ".intercalate (s!"Usage: {programName} {name.text} [OPTIONS]" ::
        name.arguments.map Argument.term)
  | help => s!"Usage: {programName} help [COMMAND]..."

/-- The rows on commands. -/
def commandRows : Topic → List HelpRow
  | program => CommandName.all.map (fun c => ⟨c.text, c.purpose⟩) ++ [⟨"help", help.purpose⟩]
  | _ => []

/-- The rows on arguments. -/
def argumentRows : Topic → List HelpRow
  | program => []
  | command name => name.arguments.map fun a => ⟨a.term, ""⟩
  | help => [⟨"[COMMAND]...", "Print help for the subcommand(s)"⟩]

/-- The row on the request for help, which stands behind all options. -/
def helpRow : HelpRow := ⟨"-h, --help", "Print help"⟩

/-- The rows on options. -/
def optionRows : Topic → List HelpRow
  | program => (Opt.listed []).map Opt.row ++ [helpRow, ⟨"-V, --version", "Print version"⟩]
  | command name => (Opt.listed name.options).map Opt.row ++ [helpRow]
  | help => []

/-- The lines that explain a topic. -/
def lines (t : Topic) : List String :=
  [t.purpose, "", t.usage] ++ HelpRow.table "Commands" t.commandRows ++
    HelpRow.table "Arguments" t.argumentRows ++ HelpRow.table "Options" t.optionRows

end Topic

end LightClient
