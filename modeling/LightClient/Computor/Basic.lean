/-!
# Computors

Each epoch is run by 676 computors, known by their index. What more than two thirds of them agree on
is the outcome of a tick. An index is shown as two letters, `AA` for the first and `ZZ` for the last.
-/
namespace LightClient.Computor

/-- The number of computors of an epoch (`NUMBER_OF_COMPUTORS`). -/
def count : Nat := 676

/-- The number of votes that decide a tick (`QUORUM`): the least above two thirds. -/
def quorum : Nat := count * 2 / 3 + 1

/-- The two letters of an index (`computor_code`); an index outside the epoch is shown as a number. -/
def code (index : UInt16) : String :=
  let i := index.toNat
  if i < count then String.ofList [Char.ofNat (65 + i / 26), Char.ofNat (65 + i % 26)]
  else s!"#{i}"

/-- The codes of several indices, separated by blanks. -/
def codes (indices : List UInt16) : String := " ".intercalate (indices.map code)

end LightClient.Computor
