/-!
# Faults of the outside world

What a file, a stream or a connection can answer instead of doing what it was asked. Each fault has
the text that the operating system or the stream gives for it.
-/
namespace LightClient

/-- What went wrong outside the program. -/
inductive Fault where
  /-- A stream ended before it had filled what was asked for. -/
  | endOfStream
  /-- A stream takes no more bytes. -/
  | full
  /-- There is no file or directory of that name. -/
  | notFound
  /-- A read was interrupted before it had any bytes. -/
  | interrupted
  /-- Nothing arrived within the time allowed. -/
  | timedOut
  /-- A directory lies on the way that is none. -/
  | notDirectory
  /-- The name is a directory's. -/
  | isDirectory
  /-- A name has a part that is too long. -/
  | nameTooLong
  /-- A name has a zero byte in it. -/
  | zeroInName
  /-- There is no way to the network of that address. -/
  | unreachable
  /-- Nothing listens at that address. -/
  | refused
  /-- A node was asked for its current tick and did not say. -/
  | silentNode
  /-- A fault reported in words. -/
  | reported (text : String)
  deriving DecidableEq, Repr

namespace Fault

/-- The text of a fault. -/
def message : Fault → String
  | endOfStream => "failed to fill whole buffer"
  | full => "failed to write whole buffer"
  | notFound => "No such file or directory (os error 2)"
  | interrupted => "Interrupted system call (os error 4)"
  | timedOut => "Resource temporarily unavailable (os error 11)"
  | notDirectory => "Not a directory (os error 20)"
  | isDirectory => "Is a directory (os error 21)"
  | nameTooLong => "File name too long (os error 36)"
  | zeroInName => "file name contained an unexpected NUL byte"
  | unreachable => "Network is unreachable (os error 101)"
  | refused => "Connection refused (os error 111)"
  | silentNode => "node did not report its current tick"
  | reported text => text

end Fault

end LightClient
