import AccountLedger.Proofs.Swap.Prices
import AccountLedger.Proofs.Wide
import Mathlib.Algebra.Order.Ring.Nat
import Mathlib.Tactic.Ring
/-!
# The root in words of 128 bits

The root of a product is taken in words, where a difference, a shift, a sum or a quotient may fault.
None does: the first estimate is not below the root, no step goes below it, and from there the sum of
an estimate and its quotient fits.

* `lt_newton`, `estimate_above`: no estimate is below the root, and none needs more than 65 bits;
* `exists_start?`, `exists_newton?`, `exists_descend?`: the words answer what the naturals do;
* `floor_root_in_words`: every word has its root, rounded down, and the liquidity of a first deposit is
  such a root.
-/

namespace AccountLedger.Swap

/-! ## the root in words -/

/-- the first estimate, from the number of bits that are used -/
def start? (n : Wide) : Option Wide := do
  let bits ← Wide.sub? 128 n.clz
  let half ← Wide.ceilDiv? bits 2
  Wide.shiftLeft? 1 half

def newton? (n x : Wide) : Option Wide := do
  let quotient ← Wide.div? n x
  let sum ← Wide.add? x quotient
  Wide.div? sum 2

/-- The loop of steps, which answers nothing if one of them faults.  It ends since every turn but the
last goes down. -/
def descend? (n x : Wide) : Option Wide := do
  let next ← newton? n x
  if down : next < x then descend? n next else some x
termination_by x.toNat
decreasing_by exact BitVec.lt_def.1 down

def root? (n : Wide) : Option Wide := if n < 2 then some n else start? n >>= descend? n

def firstLiquidityInWords (x y : Amount) : Option Amount := do
  let product ← Wide.mul? (.ofAmount x) (.ofAmount y)
  let mean ← root? product
  mean.amount?

/-! ## estimates -/

variable {n x : Nat}

/-- an estimate of the root of `n` that is not below it, and so small that a sum does not fault -/
structure Estimate (n x : Nat) : Prop where
  lt_sq : n < (x + 1) * (x + 1)
  small : x ≤ 2 ^ 64

theorem Estimate.pos (h : Estimate n x) (hn : 0 < n) : 0 < x := by
  refine Nat.pos_of_ne_zero ?_
  rintro rfl
  have := h.lt_sq
  omega

theorem Estimate.div_le (h : Estimate n x) : n / x ≤ x + 2 := by
  have hle : n ≤ (x + 2) * x := by
    have hlt := h.lt_sq
    have hsq : (x + 1) * (x + 1) = (x + 2) * x + 1 := by ring
    omega
  exact Nat.div_le_of_le_mul (hle.trans_eq (Nat.mul_comm _ _))

/-- A step does not go below the root: twice the geometric mean of two numbers is at most their sum. -/
theorem lt_newton (hx : 0 < x) : n < (newton n x + 1) * (newton n x + 1) := by
  have quotient : n < x * (n / x + 1) := Nat.lt_mul_div_succ n hx
  have step : x + (n / x + 1) ≤ 2 * (newton n x + 1) := by
    unfold newton
    omega
  have mean : 4 * x * (n / x + 1) ≤ (2 * (newton n x + 1)) ^ 2 :=
    (four_mul_le_sq_add x (n / x + 1)).trans (Nat.pow_le_pow_left step 2)
  have hsq : (2 * (newton n x + 1)) ^ 2 = 4 * ((newton n x + 1) * (newton n x + 1)) := by ring
  rw [hsq, Nat.mul_assoc] at mean
  omega

theorem Estimate.newton (h : Estimate n x) (hn : 0 < n) (down : newton n x < x) :
    Estimate n (newton n x) :=
  ⟨lt_newton (h.pos hn), down.le.trans h.small⟩

/-- The first estimate has half of the bits of `n`, rounded up, so its square has all of them. -/
theorem estimate_above (h : n < 2 ^ 128) : Estimate n (above n) := by
  have habove : above n = 2 ^ ((Nat.log2 n + 2) / 2) := by rw [above, Nat.shiftLeft_eq, Nat.one_mul]
  have hlog : Nat.log2 n < 128 := by
    rcases Nat.eq_zero_or_pos n with rfl | hn
    · decide
    · exact (Nat.log2_lt hn.ne').2 h
  refine ⟨?_, ?_⟩
  · calc n < 2 ^ (Nat.log2 n + 1) := Nat.lt_log2_self
      _ ≤ 2 ^ ((Nat.log2 n + 2) / 2 + (Nat.log2 n + 2) / 2) :=
        Nat.pow_le_pow_right (by decide) (by omega)
      _ = above n * above n := by rw [habove, Nat.pow_add]
      _ ≤ (above n + 1) * (above n + 1) := Nat.mul_self_le_mul_self (Nat.le_succ _)
  · rw [habove]
    exact Nat.pow_le_pow_right (by decide) (by omega)

/-! ## the words answer what the naturals do -/

theorem exists_start? {n : Wide} (used : n.toNat ≠ 0) :
    ∃ z, start? n = some z ∧ z.toNat = above n.toNat := by
  have hclz := Wide.toNat_clz used
  obtain ⟨bits, hbits⟩ := Wide.exists_toNat_eq (n := Nat.log2 n.toNat + 1) (by omega)
  have hsub : Wide.sub? 128 n.clz = some bits := by
    refine Wide.sub?_eq_some.2 ?_
    rw [hbits]
    exact (Nat.add_comm _ _).trans hclz
  obtain ⟨half, hhalf, hhalfNat⟩ := Wide.exists_ceilDiv? (y := 2) bits (by decide)
  have hceil : half.toNat = (Nat.log2 n.toNat + 2) / 2 := by
    rw [hhalfNat, hbits, Nat.ceilDiv_eq_add_pred_div]
    rfl
  have hone : (1 : Wide).toNat * 2 ^ half.toNat = above n.toNat := by
    rw [hceil, above, Nat.shiftLeft_eq]
    rfl
  have hfits : above n.toNat < 2 ^ 128 :=
    (estimate_above n.isLt).small.trans_lt (Nat.pow_lt_pow_right (by decide) (by decide))
  obtain ⟨z, hz⟩ := Wide.exists_toNat_eq hfits
  have hshift : Wide.shiftLeft? 1 half = some z :=
    (Wide.shiftLeft?_eq_some (by omega) (hone ▸ hfits)).2 (hz.trans hone.symm)
  refine ⟨z, ?_, hz⟩
  simp only [start?, hsub, hhalf, hshift, Option.bind_eq_bind, Option.bind_some]

theorem exists_newton? {n x : Wide} (used : 0 < n.toNat) (h : Estimate n.toNat x.toNat) :
    ∃ z, newton? n x = some z ∧ z.toNat = newton n.toNat x.toNat := by
  obtain ⟨quotient, hdiv, hquotient⟩ := Wide.exists_div? n (h.pos used)
  have hle : quotient.toNat ≤ x.toNat + 2 := hquotient.trans_le h.div_le
  have hsmall := h.small
  obtain ⟨sum, hsum⟩ := Wide.exists_toNat_eq (n := x.toNat + quotient.toNat) (by omega)
  have hadd : Wide.add? x quotient = some sum := Wide.add?_eq_some.2 hsum
  obtain ⟨z, hhalf, hz⟩ := Wide.exists_div? (y := 2) sum (by decide)
  refine ⟨z, ?_, ?_⟩
  · simp only [newton?, hdiv, hadd, hhalf, Option.bind_eq_bind, Option.bind_some]
  · rw [hz, hsum, hquotient]
    rfl

/-- The words go down as the naturals do, turn by turn. -/
theorem exists_descend? {n : Wide} (used : 0 < n.toNat) (k : Nat) (x : Wide) (hx : x.toNat = k)
    (h : Estimate n.toNat k) : ∃ r, descend? n x = some r ∧ r.toNat = descend n.toNat k := by
  induction k using descend.induct n.toNat generalizing x with
  | case1 k down ih =>
    subst hx
    obtain ⟨next, hnext, hnat⟩ := exists_newton? used h
    have hlt : next < x := by
      rw [BitVec.lt_def, hnat]
      exact down
    obtain ⟨r, hr, hrNat⟩ := ih next hnat (h.newton used down)
    refine ⟨r, ?_, ?_⟩
    · rw [descend?, hnext, Option.bind_eq_bind, Option.bind_some, dif_pos hlt, hr]
    · rw [descend, if_pos down, hrNat]
  | case2 k up =>
    subst hx
    obtain ⟨next, hnext, hnat⟩ := exists_newton? used h
    have hle : ¬ next < x := by
      rw [BitVec.lt_def, hnat]
      exact up
    refine ⟨x, ?_, ?_⟩
    · rw [descend?, hnext, Option.bind_eq_bind, Option.bind_some, dif_neg hle]
    · rw [descend, if_neg up]

theorem exists_root? (n : Wide) : ∃ r, root? n = some r ∧ r.toNat = root n.toNat := by
  by_cases small : n.toNat < 2
  · have hlt : n < 2 := BitVec.lt_def.2 small
    exact ⟨n, if_pos hlt, (if_pos small).symm⟩
  · have hlt : ¬ n < 2 := fun h => small (BitVec.lt_def.1 h)
    have used : 0 < n.toNat := by omega
    obtain ⟨x, hstart, hx⟩ := exists_start? used.ne'
    obtain ⟨r, hr, hrNat⟩ := exists_descend? used _ x hx (estimate_above n.isLt)
    refine ⟨r, ?_, ?_⟩
    · rw [root?, if_neg hlt, hstart, Option.bind_eq_bind, Option.bind_some, hr]
    · rw [root, if_neg small, hrNat]

theorem firstLiquidityInWords_eq_some (x y : Amount) :
    firstLiquidityInWords x y = some (firstLiquidity x y) := by
  obtain ⟨product, hmul, hproduct⟩ := Wide.exists_mul?_ofAmount x y
  obtain ⟨mean, hroot, hmean⟩ := exists_root? product
  have hamount : mean.amount? = some (firstLiquidity x y) := by
    refine Wide.amount?_eq_some.2 ?_
    rw [toNat_firstLiquidity, hmean, hproduct, root_eq_sqrt]
  simp only [firstLiquidityInWords, hmul, hroot, hamount, Option.bind_eq_bind, Option.bind_some]

/-- In words nothing faults, the loop ends, and what it answers is the root, rounded down.  So the
liquidity of a first deposit is the geometric mean of its two sides, rounded down, which is an
amount. -/
theorem floor_root_in_words :
    (∀ n : Wide, ∃ r, root? n = some r ∧ r.toNat = root n.toNat ∧
      r.toNat * r.toNat ≤ n.toNat ∧ n.toNat < (r.toNat + 1) * (r.toNat + 1)) ∧
    ∀ x y : Amount, firstLiquidityInWords x y = some (firstLiquidity x y) ∧
      (firstLiquidity x y).toNat = Nat.sqrt (x.toNat * y.toNat) := by
  refine ⟨fun n => ?_, fun x y => ⟨firstLiquidityInWords_eq_some x y, toNat_firstLiquidity x y⟩⟩
  obtain ⟨r, hr, hroot⟩ := exists_root? n
  have hsqrt : r.toNat = Nat.sqrt n.toNat := hroot.trans (root_eq_sqrt n.toNat)
  refine ⟨r, hr, hroot, ?_, ?_⟩
  · rw [hsqrt]
    exact Nat.sqrt_le n.toNat
  · rw [hsqrt]
    exact Nat.lt_succ_sqrt n.toNat

end AccountLedger.Swap
