import LightClient.Exchange.Dialogue
/-!
# Where the network is

A node's own account of the current tick. A node's answer is taken as soon as it comes: alone among the
exchanges, this one does not read on to the end of the answer.

`waitFor` asks again and again until the current tick lies past the wanted one, as long as the caller
allows another wait. Waits are counted in 32 bits, so there are never more than `2 ^ 32 - 1`.
-/
namespace LightClient

/-- A node's account of the current tick (`CurrentTickInfo`). -/
@[ext] structure TickInfo where
  tickDuration : UInt16
  epoch : UInt16
  tick : UInt32
  alignedVotes : UInt16
  misalignedVotes : UInt16
  initialTick : UInt32
  deriving DecidableEq

namespace TickInfo

/-- The fields in order. -/
def layout : Layout TickInfo :=
  (Layout.u16.pair (Layout.u16.pair (Layout.u32.pair
    (Layout.u16.pair (Layout.u16.pair Layout.u32))))).map
    (fun p => ⟨p.1, p.2.1, p.2.2.1, p.2.2.2.1, p.2.2.2.2.1, p.2.2.2.2.2⟩)
    (fun i => (i.tickDuration, i.epoch, i.tick, i.alignedVotes, i.misalignedVotes, i.initialTick))
    (fun _ => rfl) (fun _ => rfl)

/-- Reads a node's account (`CurrentTickInfo.from_bytes`). -/
def ofBytes (bs : Bytes) : Except Malformed TickInfo := layout.parse "current tick info" bs

/-- The bytes of a node's account. -/
def toBytes (i : TickInfo) : Bytes := layout.bytes i

theorem ofBytes_toBytes (i : TickInfo) : ofBytes i.toBytes = .ok i := layout.parse_bytes _ i

/-- Asks a node for the current tick (`fetch_current_tick_info`). -/
def exchange : Exchange (Option TickInfo) where
  request := .requestTickInfo
  payload := []
  initial := none
  hear _ packet :=
    if packet.is .tickInfo then
      match ofBytes packet.payload with
      | .ok info => .ok (.enough (some info))
      | .error flaw => .error (.malformed flaw)
    else .ok (.more none)

end TickInfo

/-- What a caller does when the wanted tick has not passed (`WaitStrategy`). -/
inductive WaitPolicy where
  /-- It gives up at once. -/
  | never
  /-- It waits for a time before it asks again, a limited number of times if there is a limit. -/
  | every (milliseconds : Nat) (limit : Option UInt32)
  deriving DecidableEq, Repr

namespace WaitPolicy

/-- Whether the caller waits once more after so many waits (`wait`). -/
def allows : WaitPolicy → UInt32 → Bool
  | never, _ => false
  | every _ none, _ => true
  | every _ (some limit), attempt => attempt < limit

/-- How long one wait takes. -/
def interval : WaitPolicy → Nat
  | never => 0
  | every milliseconds _ => milliseconds

end WaitPolicy

/-- How waiting for a tick ended. -/
structure Waited where
  /-- The first account of a tick past the wanted one, if one came. -/
  info : Option TickInfo
  /-- How often the caller was asked for another wait. -/
  asked : Nat
  deriving DecidableEq

namespace TickInfo

/-- An account of a tick past the wanted one. -/
def past? (tick : UInt32) (info : Option TickInfo) : Option TickInfo :=
  info.filter fun i => tick < i.tick

/-- Asks until a tick has passed, after `attempt` waits and with at most `more` further ones.

The bound makes the dialogue finite. Waits are counted in 32 bits, and `waitFor` gives up when this count would
wrap, after `2 ^ 32` polls; a caller without a limit would begin to count anew there and ask on. -/
def waitFrom (allows : UInt32 → Bool) (interval : Nat) (tick : UInt32) :
    (more : Nat) → (attempt : UInt32) → Dialogue Waited
  | 0, attempt => .ask exchange fun info =>
      match past? tick info with
      | some i => .done (.ok ⟨some i, attempt.toNat⟩)
      | none => .done (.ok ⟨none, attempt.toNat + 1⟩)
  | more + 1, attempt => .ask exchange fun info =>
      match past? tick info with
      | some i => .done (.ok ⟨some i, attempt.toNat⟩)
      | none =>
          if allows attempt then
            .pause interval (waitFrom allows interval tick more (attempt + 1))
          else .done (.ok ⟨none, attempt.toNat + 1⟩)

/-- Asks until a tick has passed, as long as another wait is allowed (`wait_for_tick`). -/
def waitFor (allows : UInt32 → Bool) (interval : Nat) (tick : UInt32) : Dialogue Waited :=
  waitFrom allows interval tick (UInt32.size - 1) 0

end TickInfo

end LightClient
