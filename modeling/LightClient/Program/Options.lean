import LightClient.Program.Command
import LightClient.Text.Decimal
/-!
# Commands, arguments and options by name

What may stand on a command line: the names of the commands, the arguments each takes in order, the
options each has, and which texts can be their values. Every command has its own options and the
shared ones (`Opt.shared`).
-/
namespace LightClient

/-- A number below a bound. -/
def below (bound : Nat) (text : String) : Option Nat :=
  (Text.natural? text.toList).filter (· < bound)

/-- A number from zero up and below a bound, zero with any sign. -/
def within (bound : Nat) (text : String) : Option Nat :=
  ((Text.integer? text.toList).filter fun (n : Int) => 0 ≤ n ∧ n < bound).map Int.toNat

/-- A file's name, which is not empty. -/
def path? (text : String) : Option String := if text.isEmpty then none else some text

/-- A tick's number. -/
def tick? (text : String) : Option UInt32 := (within UInt32.size text).map Nat.toUInt32

/-- The options. -/
inductive Opt where
  | nodeIp | nodePort | timeoutMs | arbitrator | allowUnverified | pollMs | maxPolls | computorFile
  deriving DecidableEq, Repr

namespace Opt

/-- The name of an option, without its hyphens. -/
def name : Opt → String
  | nodeIp => "node-ip"
  | nodePort => "node-port"
  | timeoutMs => "timeout-ms"
  | arbitrator => "arbitrator"
  | allowUnverified => "allow-unverified"
  | pollMs => "poll-ms"
  | maxPolls => "max-polls"
  | computorFile => "computor-file"

/-- The options that every command has. -/
def shared : List Opt := [nodeIp, nodePort, timeoutMs, arbitrator]

/-- Whether an option has a value. -/
def hasValue : Opt → Bool
  | allowUnverified => false
  | _ => true

/-- The usual time between two polls, in milliseconds. -/
def usualInterval : Nat := 1000

/-- The value that counts unless another is given. -/
def usual : Opt → Option String
  | nodeIp => some Settings.defaultAddress
  | nodePort => some (toString Settings.defaultPort.toNat)
  | timeoutMs => some (toString Settings.defaultTimeout.toNat)
  | pollMs => some (toString usualInterval)
  | _ => none

/-- Whether a text can be the value of an option. -/
def accepts : Opt → String → Bool
  | nodePort, v => (within UInt16.size v).isSome
  | timeoutMs, v | pollMs, v => (below UInt64.size v).isSome
  | maxPolls, v => (within UInt32.size v).isSome
  | computorFile, v => !v.isEmpty
  | _, _ => true

end Opt

/-- What an argument of a command stands for. -/
inductive ArgumentKind where
  | tick | path | text
  deriving DecidableEq, Repr

/-- Whether a text can be an argument of a kind. -/
def ArgumentKind.accepts : ArgumentKind → String → Bool
  | tick, v => (tick? v).isSome
  | path, v => (path? v).isSome
  | text, _ => true

/-- An argument that a command takes. -/
structure Argument where
  /-- What it is called in help. -/
  name : String
  kind : ArgumentKind
  isOptional : Bool
  deriving DecidableEq, Repr

namespace Argument

/-- An argument that has to be there. -/
def required (name : String) (kind : ArgumentKind) : Argument := ⟨name, kind, false⟩

/-- An argument that may be missing. -/
def optional (name : String) (kind : ArgumentKind) : Argument := ⟨name, kind, true⟩

end Argument

/-- The commands by name. -/
inductive CommandName where
  | getCurrentTick | getComputorList | getQuorumTick | getTickData | readTickData | checkTxOnTick
  | checkTxOnFile
  deriving DecidableEq, Repr

namespace CommandName

/-- All commands. -/
def all : List CommandName :=
  [getCurrentTick, getComputorList, getQuorumTick, getTickData, readTickData, checkTxOnTick,
    checkTxOnFile]

/-- The name as it stands on a command line. -/
def text : CommandName → String
  | getCurrentTick => "getcurrenttick"
  | getComputorList => "getcomputorlist"
  | getQuorumTick => "getquorumtick"
  | getTickData => "gettickdata"
  | readTickData => "readtickdata"
  | checkTxOnTick => "checktxontick"
  | checkTxOnFile => "checktxonfile"

/-- The command with a name. -/
def ofText? (text : String) : Option CommandName := all.find? fun c => c.text == text

/-- The arguments of a command, in order. -/
def arguments : CommandName → List Argument
  | getCurrentTick => []
  | getComputorList => [.required "OUT_FILE" .path]
  | getQuorumTick => [.required "COMPUTOR_FILE" .path, .required "TICK" .tick]
  | getTickData => [.required "TICK" .tick, .required "OUT_FILE" .path]
  | readTickData => [.required "FILE" .path, .optional "COMPUTOR_FILE" .path]
  | checkTxOnTick => [.required "TICK" .tick, .required "HASH" .text]
  | checkTxOnFile => [.required "HASH" .text, .required "FILE" .path]

/-- The options of a command besides the shared ones. -/
def options : CommandName → List Opt
  | getQuorumTick => [.allowUnverified]
  | checkTxOnTick => [.pollMs, .maxPolls, .computorFile]
  | checkTxOnFile => [.computorFile]
  | _ => []

end CommandName

end LightClient
