import DatasetCache.Coordinator

/-!
# The commit rate

The share of started transactions that committed, as the binary fraction of 53
significant bits closest to it, written with six decimals.  Both roundings send
a tie to the even neighbour.
-/

namespace DatasetCache.Coordinator

/-- The whole number closest to a quotient, the even one of two. -/
def roundQuotient (numerator denominator : Nat) : Nat :=
  let quotient := numerator / denominator
  match compare (2 * (numerator % denominator)) denominator with
  | .lt => quotient
  | .eq => quotient + quotient % 2
  | .gt => quotient + 1

/-- A quotient as `(m, s)`, standing for `m / 2 ^ s`, where `m` has 53 bits. -/
def binaryFraction (numerator denominator : Nat) : Nat × Nat :=
  let wide := 53 + denominator.log2 - numerator.log2
  let shift := if numerator * Nat.pow 2 wide < Nat.pow 2 53 * denominator then wide else wide - 1
  (roundQuotient (numerator * Nat.pow 2 shift) denominator, shift)

/-- A number of millionths, as a decimal number with six places. -/
def sixPlaces (millionths : Nat) : String :=
  let digits := Nat.toDigits 10 (millionths % 1000000)
  toString (millionths / 1000000) ++ "." ++
    String.ofList (List.replicate (6 - digits.length) '0' ++ digits)

def commitRate (c : Coordinator) : String :=
  if c.started = 0 ∨ c.committed = 0 then sixPlaces 0
  else
    let (mantissa, shift) := binaryFraction c.committed c.started
    sixPlaces (roundQuotient (mantissa * 1000000) (Nat.pow 2 shift))

end DatasetCache.Coordinator
