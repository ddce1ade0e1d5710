/-!
# Records of the wrong length

The one way in which the bytes of a fixed record can be wrong: there are too few or too many.
-/
namespace LightClient

/-- A record of the named kind needed some number of bytes and got another. -/
structure Malformed where
  record : String
  needed : Nat
  got : Nat
  deriving DecidableEq, Repr

namespace Malformed

/-- The text of the failure. -/
def detail (m : Malformed) : String :=
  s!"{m.record}: needed {m.needed} bytes, got {m.got}"

end Malformed

end LightClient
