import LightClient.Program.Report
import LightClient.Program.Script
/-!
# The commands

Each command runs one check to its end and prints what came of it. Nothing is learned from a computor
list whose signature does not hold under the trust anchor, unless the caller allows that; and no file
is written before everything that goes into it has arrived and been checked.
-/
namespace LightClient

/-- What all commands of a run share (`Context`). -/
structure Settings where
  nodeAddress : String
  port : UInt16
  /-- How long a node may be silent before its answer counts as complete, in milliseconds. -/
  timeout : UInt64
  /-- The key that signs computor lists. -/
  anchor : Option PublicKey
  deriving DecidableEq

namespace Settings

/-- The address of a node unless another is given. -/
def defaultAddress : String := "127.0.0.1"

/-- The port of a node unless another is given. -/
def defaultPort : UInt16 := 21841

/-- The time of silence unless another is given. -/
def defaultTimeout : UInt64 := 2000

/-- The settings for a node, all else as usual. -/
def ofNode (address : String) : Settings := ⟨address, defaultPort, defaultTimeout, none⟩

/-- The address to connect to. -/
def address (s : Settings) : String := s!"{s.nodeAddress}:{s.port.toNat}"

end Settings

/-- What the program can be asked to do. -/
inductive Command where
  | getCurrentTick
  | getComputorList (out : String)
  | getQuorumTick (computorFile : String) (tick : UInt32) (allowUnverified : Bool)
  | getTickData (tick : UInt32) (out : String)
  | readTickData (file : String) (computorFile : Option String)
  | checkTxOnTick (tick : UInt32) (wanted : String) (computorFile : Option String)
      (wait : WaitPolicy)
  | checkTxOnFile (wanted : String) (file : String) (computorFile : Option String)
  deriving DecidableEq

namespace Command

open Script

/-- The trust anchor, which some commands cannot do without (`trust_anchor`). -/
def trustAnchor (settings : Settings) : Script PublicKey :=
  ofOption "no trust anchor configured, pass --arbitrator <IDENTITY>" settings.anchor

/-- Reads a computor list from a file and marks it by its signature (`load_computors`). -/
def loadComputors (settings : Settings) (file : String) : Script (Checked ComputorSet) := do
  let anchor ← trustAnchor settings
  let bs ← content file
  ofOutcomeUnder s!"failed to load computor list {file}" (ComputorSet.ofContent anchor bs)

/-- Reads the computor list for the check of a tick header, if a file is given
(`optional_computors`); its signature must hold. -/
def optionalComputors (settings : Settings) (file : Option String) :
    Script (Option ComputorSet) := do
  match file with
  | none => return none
  | some file =>
      let computors ← loadComputors settings file
      if computors.isVerified then return some computors.value
      else fail (.ofMessage
        "computor list signature does not verify, refusing to check tick headers against it")

/-- Reads an archive from a file. -/
def loadArchive (file : String) : Script Archive := do
  let bs ← content file
  ofOutcomeUnder s!"failed to read {file}" (Archive.ofContent bs)

/-- Shows the node's current tick (`get_current_tick`). -/
def showCurrentTick : Script Unit := do
  reachNode
  let answer ← hold (Dialogue.once TickInfo.exchange)
  let info ← ofOption "node did not report its tick" answer
  sayAll info.lines

/-- Fetches the computor list and writes it to a file if its signature holds (`get_computor_list`). -/
def fetchComputorList (settings : Settings) (out : String) : Script Unit := do
  let anchor ← trustAnchor settings
  reachNode
  let answer ← hold (Dialogue.once (ComputorSet.exchange anchor))
  let computors ← ofOption "node did not send a computor list" answer
  let epoch := computors.value.body.epoch.toNat
  if computors.isVerified then
    save out computors.value.toBytes
    say s!"Computor list for epoch {epoch} written to {out}"
  else
    let reason := "is not signed by the trust anchor, not saving it"
    fail (.ofMessage s!"computor list for epoch {epoch} {reason}")

/-- Shows what the votes of a tick say (`get_quorum_tick`). -/
def showQuorum (settings : Settings) (computorFile : String) (tick : UInt32)
    (allowUnverified : Bool) : Script Unit := do
  let computors ← loadComputors settings computorFile
  if !computors.isVerified then
    if !allowUnverified then
      fail (.ofMessage "computor list signature does not verify, refusing to evaluate votes")
    say "WARNING: computor list is NOT verified"
  reachNode
  let report ← hold (QuorumReport.collect computors.value tick)
  sayAll report.lines

/-- Fetches a tick's header and transactions and writes them to an archive (`get_tick_data`). -/
def fetchTickData (tick : UInt32) (out : String) : Script Unit := do
  reachNode
  match ← hold (TickHeader.fetch tick) with
  | none => say s!"Tick {tick.toNat} is empty or not produced yet, nothing written"
  | some header =>
      let expected := header.body.transactionCount
      let transactions ← hold (Transaction.fetch tick expected)
      save out (Archive.toBytes header transactions)
      let got := transactions.length
      say s!"Tick {tick.toNat}: header and {got}/{expected} transactions written to {out}"

/-- Shows the check of a header against a computor list from a file, if one is given. -/
def showHeaderCheck (settings : Settings) (header : TickHeader) (computorFile : Option String) :
    Script Unit := do
  match computorFile with
  | none => say TickHeader.uncheckedLine
  | some file =>
      let computors ← loadComputors settings file
      if !computors.isVerified then
        say "WARNING: computor list is NOT verified"
      let listEpoch := computors.value.body.epoch
      let epoch := header.body.epoch
      if listEpoch ≠ epoch then
        let place := s!"tick is in epoch {epoch.toNat}"
        say s!"WARNING: computor list is for epoch {listEpoch.toNat}, {place}"
      say (TickHeader.signatureLine (some (.ofBool (header.valid computors.value))))

/-- Shows the content of an archive (`read_tick_data`). -/
def showTickData (settings : Settings) (file : String) (computorFile : Option String) :
    Script Unit := do
  let archive ← loadArchive file
  sayAll archive.header.lines
  showHeaderCheck settings archive.header computorFile
  sayAll archive.transactionLines

/-- Shows whether a transaction is in a tick, once the tick has passed (`check_tx_on_tick`). -/
def showTxOnTick (settings : Settings) (tick : UInt32) (wanted : String)
    (computorFile : Option String) (wait : WaitPolicy) : Script Unit := do
  let computors ← optionalComputors settings computorFile
  reachNode
  let waited ← hold (TickInfo.waitFor wait.allows wait.interval tick)
  if waited.info.isNone then
    say s!"Tick {tick.toNat} is not finalized yet, try again later"
  else
    let location ← hold (Location.locate computors wanted tick)
    sayAll (location.lines wanted)

/-- Shows whether a transaction is in an archive (`check_tx_on_file`). -/
def showTxOnFile (settings : Settings) (wanted : String) (file : String)
    (computorFile : Option String) : Script Unit := do
  let computors ← optionalComputors settings computorFile
  let archive ← loadArchive file
  sayAll ((Location.locateInArchive computors wanted archive).lines wanted)

/-- What a command does. -/
def script (settings : Settings) : Command → Script Unit
  | getCurrentTick => showCurrentTick
  | getComputorList out => fetchComputorList settings out
  | getQuorumTick computorFile tick allowUnverified =>
      showQuorum settings computorFile tick allowUnverified
  | getTickData tick out => fetchTickData tick out
  | readTickData file computorFile => showTickData settings file computorFile
  | checkTxOnTick tick wanted computorFile wait =>
      showTxOnTick settings tick wanted computorFile wait
  | checkTxOnFile wanted file computorFile => showTxOnFile settings wanted file computorFile

end Command

end LightClient
