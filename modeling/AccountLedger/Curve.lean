import AccountLedger.Key
/-!
# Points of the signature curve

A key that is a point of the curve has a private key, so it can sign; any other key cannot.  The
32 bytes, least significant first and without the top bit, are the second coordinate `y` of a
point of `-x² + y² = 1 + d x² y²` over the integers modulo `2 ^ 255 - 19` exactly when `(y² - 1) /
(d y² + 1)` is a square there.  The denominator is never zero, so the quotient is a square when
the product of the two is.
-/

namespace AccountLedger.Curve

/-- the field has this many elements, a prime -/
def modulus : Nat := (1 <<< 255) - 19

/-- the coefficient `d`, which is `-121665 / 121666` -/
def coefficient : Nat :=
  37095705934669439343138083508754565189542113879843219016388785533085940283555

/-- `acc * base ^ exponent` modulo the field size, by squaring, for an exponent of `bits` bits -/
def power : Nat → Nat → Nat → Nat → Nat
  | 0, acc, _, _ => acc
  | bits + 1, acc, base, exponent =>
    power bits (if exponent % 2 = 1 then acc * base % modulus else acc)
      (base * base % modulus) (exponent / 2)

/-- Euler's criterion: a nonzero square has the `(modulus - 1) / 2`-th power one -/
def isSquare (n : Nat) : Bool :=
  n % modulus == 0 || power 255 1 (n % modulus) ((modulus - 1) / 2) == 1

/-- the second coordinate that a key spells -/
def coordinate (k : Key) : Nat := Bytes.value k.bytes % (1 <<< 255) % modulus

/-- whether some point of the curve has the key for its second coordinate -/
def onCurve (k : Key) : Bool :=
  let y := coordinate k
  let ySquared := y * y % modulus
  isSquare ((ySquared + modulus - 1) * (coefficient * ySquared + 1))

end AccountLedger.Curve
