import AccountLedger.Error
/-!
# Rent

An account that holds two years of rent is kept for good.  A year costs 3480 lamports a byte, and
every account counts 128 bytes besides its data.  The yearly rent must fit a 64-bit word; it is
then rounded to 53 binary digits, a tie going to the even neighbour, before it is doubled.

* `minimum_eq_ok`: below `2 ^ 53` lamports a year nothing is rounded.
-/

namespace AccountLedger.Rent

/-- what every account counts besides its data, in bytes -/
def overhead : Nat := 128

/-- the rent of a byte for a year, in lamports -/
def perByteYear : Nat := 3480

/-- how many years a kept account has paid for -/
def years : Nat := 2

/-- the nearest multiple of `unit`, a tie going to the even one -/
def nearest (unit n : Nat) : Nat :=
  let below := n / unit
  let excess := 2 * (n % unit)
  if excess < unit ∨ (excess = unit ∧ below % 2 = 0) then below * unit else (below + 1) * unit

/-- the number rounded to its first `digits` binary digits -/
def significant (digits n : Nat) : Nat := nearest (1 <<< (Nat.log2 n + 1 - digits)) n

/-- the rent of an account for a year -/
def yearly (space : Nat) : Except Crash Nat :=
  let size := overhead + space
  if UInt64.size ≤ size then .error .sumOverflow
  else if UInt64.size ≤ size * perByteYear then .error .productOverflow
  else .ok (size * perByteYear)

/-- the balance that keeps an account with `space` bytes of data, at most the greatest amount -/
def minimum (space : Nat) : Except Crash Amount :=
  (yearly space).map fun rent =>
    UInt64.ofNat (min (years * significant 53 rent) (UInt64.size - 1))

theorem nearest_one (n : Nat) : nearest 1 n = n := by
  simp [nearest, Nat.mod_one]

@[simp] theorem nearest_zero (unit : Nat) : nearest unit 0 = 0 := by
  simp only [nearest, Nat.zero_mod, Nat.zero_div]
  split
  · simp
  · rename_i h
    have : unit = 0 := by omega
    simp [this]

/-- a number with no more binary digits than that stays as it is -/
theorem significant_of_log2_lt {digits n : Nat} (h : Nat.log2 n < digits) :
    significant digits n = n := by
  rw [significant, show Nat.log2 n + 1 - digits = 0 by omega, Nat.shiftLeft_zero, nearest_one]

/-- the first number with more than 53 binary digits -/
def exactLimit : Nat := 9007199254740992

/-- below `2 ^ 53` the balance is two years of rent, exactly -/
theorem minimum_eq_ok {space : Nat} (h : (overhead + space) * perByteYear < exactLimit) :
    minimum space = .ok (UInt64.ofNat (years * ((overhead + space) * perByteYear))) := by
  have hsize : overhead + space ≤ (overhead + space) * perByteYear :=
    Nat.le_mul_of_pos_right _ (by decide)
  have hpos : (overhead + space) * perByteYear ≠ 0 := by
    simp only [overhead, perByteYear]
    omega
  have hlog : Nat.log2 ((overhead + space) * perByteYear) < 53 := (Nat.log2_lt hpos).2 h
  simp only [exactLimit] at h
  have hyear : yearly space = .ok ((overhead + space) * perByteYear) := by
    simp only [yearly, UInt64.size]
    rw [if_neg (by omega), if_neg (by omega)]
  rw [minimum, hyear, Except.map, significant_of_log2_lt hlog,
    Nat.min_eq_left (by simp only [years, UInt64.size]; omega)]

end AccountLedger.Rent
