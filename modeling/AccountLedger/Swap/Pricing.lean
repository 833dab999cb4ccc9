import AccountLedger.Amount
/-!
# Prices of a pool

All prices are computed over the naturals, where no product overflows, and must fit an amount in
the end.  Shares are rounded down, so nobody gets more than a share; what a trade leaves in the
pool is rounded up, so the product of the reserves never falls.
-/

namespace AccountLedger.Swap

/-- why a price is no amount -/
inductive PriceFault where
  | overflow
  | divisionByZero
deriving DecidableEq, Repr

def PriceFault.message : PriceFault → String
  | .overflow => "result exceeds u64"
  | .divisionByZero => "division by zero"

/-! ## square root -/

/-- Newton's step from an estimate of the root of `n` -/
def newton (n x : Nat) : Nat := (x + n / x) / 2

/-- steps down to the root of `n` from an estimate above it, until a step does not go down -/
def descend (n x : Nat) : Nat :=
  if newton n x < x then descend n (newton n x) else x
termination_by x

/-- a power of two that is not below the root of `n` -/
def above (n : Nat) : Nat := 1 <<< ((Nat.log2 n + 2) / 2)

/-- the square root, rounded down -/
def root (n : Nat) : Nat := if n < 2 then n else descend n (above n)

/-! ## prices -/

/-- the amount that a natural number is -/
def exactly (n : Nat) : Except PriceFault Amount :=
  match Amount.ofNat? n with
  | some a => .ok a
  | none => .error .overflow

/-- the liquidity of a first deposit: the geometric mean of its two sides -/
def firstLiquidity (x y : Amount) : Amount := UInt64.ofNat (root (x.toNat * y.toNat))

/-- the share `part / whole` of an amount -/
def share (amount part whole : Amount) : Except PriceFault Amount :=
  if whole = 0 then .error .divisionByZero
  else exactly (amount.toNat * part.toNat / whole.toNat)

/-- a quotient, rounded up -/
def ceilDiv (n d : Nat) : Nat := (n + d - 1) / d

/-- what a trade pays out: the least that is left keeps the product of the reserves -/
def payout (reserveIn reserveOut amountIn : Amount) : Except PriceFault Amount :=
  if reserveIn = 0 || reserveOut = 0 then .error .divisionByZero
  else
    let product := reserveIn.toNat * reserveOut.toNat
    exactly (reserveOut.toNat - ceilDiv product (reserveIn.toNat + amountIn.toNat))

theorem le_ceilDiv_mul {n d : Nat} (h : 0 < d) : n ≤ ceilDiv n d * d := by
  have := Nat.div_add_mod (n + d - 1) d
  have := Nat.mod_lt (n + d - 1) h
  rw [ceilDiv, Nat.mul_comm]
  omega

theorem ceilDiv_le {n d k : Nat} (hd : 0 < d) (h : n ≤ k * d) : ceilDiv n d ≤ k := by
  have hk : n + d - 1 < (k + 1) * d := by
    rw [Nat.succ_mul]
    omega
  exact Nat.le_of_lt_succ ((Nat.div_lt_iff_lt_mul hd).2 hk)

end AccountLedger.Swap
