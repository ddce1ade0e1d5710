import LightClient.Bytes.Malformed
import LightClient.Fault
import LightClient.Identity
/-!
# Errors

What can stop an operation of the client. That a tick is empty or not yet final is no error but an
answer, and a signature that does not hold is a mark on the record that carries it. Every error has
a kind; its text is the heading of the kind followed by the detail.
-/
namespace LightClient

/-- The kinds of error. -/
inductive ErrorKind where
  | connectivity | io | integrity | protocolViolation | malformed | invalidIdentity
  | incompleteArchive
  deriving DecidableEq, Repr

/-- The words that every error of a kind begins with. -/
def ErrorKind.heading : ErrorKind → String
  | connectivity => "connectivity failure: "
  | io => "io error: "
  | integrity => "integrity failure: "
  | protocolViolation => "protocol violation: "
  | malformed => "malformed "
  | invalidIdentity => "invalid identity: "
  | incompleteArchive => "incomplete tick archive: no transaction for digest "

/-- How a peer can break the protocol. -/
inductive Violation where
  /-- A message with its header would have so many bytes, more than the header can say. -/
  | oversized (total : Nat)
  /-- A header with an impossible size. -/
  | corrupted (header : Bytes)
  /-- A transaction that declares more input bytes than are allowed. -/
  | longInput (declared : Nat)
  deriving DecidableEq, Repr

namespace Violation

/-- A byte string as a list of hexadecimal bytes. -/
def byteList (bs : Bytes) : String :=
  "[" ++ ", ".intercalate (bs.map fun b => String.ofList (hexByte b)) ++ "]"

/-- The text of a violation. -/
def message : Violation → String
  | oversized total => s!"message of {total} bytes does not fit the size field"
  | corrupted header => s!"corrupted header {byteList header}"
  | longInput declared => s!"transaction declares {declared} input bytes, limit is 1024"

end Violation

/-- What stopped an operation. -/
inductive Error where
  /-- The connection to the node failed. -/
  | connectivity (fault : Fault)
  /-- A file or a stream failed. -/
  | io (fault : Fault)
  /-- The peer broke the protocol. -/
  | protocolViolation (violation : Violation)
  /-- A record has the wrong length. -/
  | malformed (record : Malformed)
  /-- A text is no identity. -/
  | invalidIdentity (flaw : Identity.Flaw)
  /-- An archive has no record for a digest that its header lists. -/
  | incompleteArchive (missing : Octets 32)
  deriving DecidableEq

namespace Error

/-- The kind of an error. -/
def kind : Error → ErrorKind
  | connectivity _ => .connectivity
  | io _ => .io
  | protocolViolation _ => .protocolViolation
  | malformed _ => .malformed
  | invalidIdentity _ => .invalidIdentity
  | incompleteArchive _ => .incompleteArchive

/-- What an error says besides its kind. -/
def detail : Error → String
  | connectivity fault => fault.message
  | io fault => fault.message
  | protocolViolation violation => violation.message
  | malformed record => record.detail
  | invalidIdentity flaw => flaw.message
  | incompleteArchive missing => Identity.encode .lower missing

/-- The text of an error. -/
def message (e : Error) : String := e.kind.heading ++ e.detail

end Error

/-- The outcome of an operation of the client. -/
abbrev Outcome (α : Type) := Except Error α

/-- The outcome of reading a record. -/
def Outcome.ofRecord {α : Type} (r : Except Malformed α) : Outcome α := r.mapError .malformed

@[simp] theorem Outcome.ofRecord_ok {α : Type} (a : α) : ofRecord (.ok a) = .ok a := rfl

@[simp] theorem Outcome.ofRecord_error {α : Type} (flaw : Malformed) :
    (ofRecord (.error flaw) : Outcome α) = .error (.malformed flaw) := rfl

end LightClient
