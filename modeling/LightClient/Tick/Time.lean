import LightClient.Bytes.Layout
import LightClient.Text.Decimal
/-!
# Time stamps

The time of day and the date that votes and tick headers carry. The year counts from 2000. The fields
are shown as they are, whether or not there is such a date.
-/
namespace LightClient

/-- A moment to the millisecond. -/
@[ext] structure TickTime where
  millisecond : UInt16
  second : UInt8
  minute : UInt8
  hour : UInt8
  day : UInt8
  month : UInt8
  year : UInt8
  deriving DecidableEq

namespace TickTime

/-- The fields from the millisecond up. -/
def layout : Layout TickTime :=
  (Layout.u16.pair (Layout.u8.pair (Layout.u8.pair (Layout.u8.pair
    (Layout.u8.pair (Layout.u8.pair Layout.u8)))))).map
    (fun p => ⟨p.1, p.2.1, p.2.2.1, p.2.2.2.1, p.2.2.2.2.1, p.2.2.2.2.2.1, p.2.2.2.2.2.2⟩)
    (fun t => (t.millisecond, t.second, t.minute, t.hour, t.day, t.month, t.year))
    (fun _ => rfl) (fun _ => rfl)

/-- Date and time, each field with its usual number of digits. -/
def text (t : TickTime) : String :=
  let two (n : UInt8) : String := Text.padded 2 n.toNat
  "20" ++ two t.year ++ "-" ++ two t.month ++ "-" ++ two t.day ++ " " ++ two t.hour ++ ":" ++
    two t.minute ++ ":" ++ two t.second ++ "." ++ Text.padded 3 t.millisecond.toNat

end TickTime

end LightClient
