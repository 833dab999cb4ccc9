import AccountLedger.Proofs.Swap.Backing
import Mathlib.Algebra.Order.Floor.Div
import Mathlib.Data.Nat.Sqrt
/-!
# What the prices are

Each price of a pool is computed over the naturals and must fit an amount.  Where it does, it is the
number that the formula says: the root of a product, a share rounded down, or what a quotient that is
rounded up leaves of a reserve.

* `root_eq_sqrt`: Newton's steps end at the root;
* `toNat_firstLiquidity`, `share_eq_ok`, `payout_eq_ok`: the three prices.
-/

namespace AccountLedger.Swap

theorem descend_eq_iter (n x : Nat) : descend n x = Nat.sqrt.iter n x := by
  have step : ∀ x, Nat.sqrt.iter n x =
      if newton n x < x then Nat.sqrt.iter n (newton n x) else x := fun x => Nat.sqrt.iter.eq_def n x
  induction x using descend.induct n with
  | case1 x down ih => rw [descend, if_pos down, ih, step x, if_pos down]
  | case2 x up => rw [descend, if_neg up, step x, if_neg up]

theorem root_eq_sqrt (n : Nat) : root n = Nat.sqrt n := by
  have habove : above n = 1 <<< (Nat.log2 n / 2 + 1) := by
    rw [above, Nat.add_div_right _ (by decide)]
  rw [root, Nat.sqrt, habove, descend_eq_iter]
  exact if_congr Nat.lt_succ_iff rfl rfl

/-- The root of a product of two amounts is an amount. -/
theorem toNat_firstLiquidity (x y : Amount) :
    (firstLiquidity x y).toNat = Nat.sqrt (x.toNat * y.toNat) := by
  have hlt : Nat.sqrt (x.toNat * y.toNat) < UInt64.size := by
    rw [Nat.sqrt_lt', Nat.pow_two]
    exact Nat.mul_lt_mul'' x.toNat_lt y.toNat_lt
  rw [firstLiquidity, root_eq_sqrt]
  exact UInt64.toNat_ofNat_of_lt' hlt

theorem share_eq_ok {amount part whole x : Amount} (h : share amount part whole = .ok x) :
    x.toNat = amount.toNat * part.toNat / whole.toNat := by
  unfold share at h
  split at h
  · cases h
  · exact exactly_eq_ok h

theorem payout_eq_ok {reserveIn reserveOut amountIn x : Amount}
    (h : payout reserveIn reserveOut amountIn = .ok x) :
    x.toNat = reserveOut.toNat -
      (reserveIn.toNat * reserveOut.toNat) ⌈/⌉ (reserveIn.toNat + amountIn.toNat) := by
  unfold payout at h
  split at h
  · cases h
  · exact exactly_eq_ok h

theorem toNat_min (x y : Amount) : (min x y).toNat = min x.toNat y.toNat := by
  show (if x ≤ y then x else y).toNat = _
  split
  · rename_i h
    exact (Nat.min_eq_left (UInt64.le_iff_toNat_le.1 h)).symm
  · rename_i h
    exact (Nat.min_eq_right (Nat.le_of_not_le (mt UInt64.le_iff_toNat_le.2 h))).symm

end AccountLedger.Swap
