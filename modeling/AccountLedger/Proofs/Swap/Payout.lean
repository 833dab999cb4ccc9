import AccountLedger.Proofs.Swap.Prices
import AccountLedger.Proofs.Wide
import Mathlib.Order.Bounds.Basic
/-!
# What a trade pays out

A payout is safe if the product of the reserves does not fall.  A trade pays the largest amount that
is safe, so more is paid out for more, and trades that follow one another pay no more than one trade
of the same amount: what they pay together is safe for the whole.

* `safe_iff_le`: the safe payouts are those up to what the formula says;
* `payoutInWords_eq_some`: the formula does not fault in words of 128 bits;
* `payout_greatest`: a trade pays the largest amount that is safe;
* `payouts_safe`: what is paid for the parts of an amount is safe for the whole of it;
* `payouts_le_payout`: so the parts are paid no more than the whole.
-/

namespace AccountLedger.Swap

variable {r s x y m n : Nat} {reserveIn reserveOut : Amount}

/-! ## safe payouts -/

/-- with `x` paid into a reserve of `r`, to pay `n` out of a reserve of `s` keeps the product -/
def Safe (r s x n : Nat) : Prop := (r * s : Int) ≤ (r + x) * (s - n)

theorem safe_iff_of_le (h : n ≤ s) : Safe r s x n ↔ r * s ≤ (r + x) * (s - n) := by
  rw [Safe, ← Nat.cast_sub h]
  exact_mod_cast Iff.rfl

/-- A reserve is never emptied. -/
theorem Safe.lt (h : Safe r s x n) (hr : 0 < r) (hs : 0 < s) : n < s := by
  have product : (0 : Int) < r * s := Int.mul_pos (Int.natCast_pos.2 hr) (Int.natCast_pos.2 hs)
  have left : (0 : Int) < s - n := Int.pos_of_mul_pos_right (product.trans_le h) (by omega)
  omega

theorem Safe.mono (h : Safe r s x n) (hr : 0 < r) (hs : 0 < s) (hxy : x ≤ y) : Safe r s y n := by
  have hle := (h.lt hr hs).le
  rw [safe_iff_of_le hle] at h ⊢
  exact h.trans (Nat.mul_le_mul_right _ (Nat.add_le_add_left hxy r))

/-- The second payout is measured against the reserves that the first one left. -/
theorem Safe.add (hm : Safe r s x m) (hle : m ≤ s) (hn : Safe (r + x) (s - m) y n) :
    Safe r s (x + y) (m + n) := by
  have first : (r * s : Int) ≤ (r + x) * (s - m) := hm
  have second : ((r + x : Nat) * (s - m : Nat) : Int) ≤ ((r + x : Nat) + y) * ((s - m : Nat) - n) :=
    hn
  rw [Nat.cast_sub hle, Nat.cast_add] at second
  rw [Safe, Nat.cast_add, Nat.cast_add]
  calc (r * s : Int) ≤ (r + x) * (s - m) := first
    _ ≤ (r + x + y) * (s - m - n) := second
    _ = (r + (x + y)) * (s - (m + n)) := by rw [add_assoc, sub_sub]

/-- What must stay is no more than the whole reserve. -/
theorem ceilDiv_le_reserve (hr : 0 < r) (s x : Nat) : (r * s) ⌈/⌉ (r + x) ≤ s :=
  (ceilDiv_le_iff_le_mul (Nat.add_pos_left hr x)).2
    (Nat.mul_le_mul_right s (Nat.le_add_right r x))

theorem safe_iff_le (hr : 0 < r) (hs : 0 < s) :
    Safe r s x n ↔ n ≤ s - (r * s) ⌈/⌉ (r + x) := by
  have least : ∀ left, (r * s) ⌈/⌉ (r + x) ≤ left ↔ r * s ≤ (r + x) * left :=
    fun left => ceilDiv_le_iff_le_mul (Nat.add_pos_left hr x)
  have hle := ceilDiv_le_reserve hr s x
  refine ⟨fun h => ?_, fun h => ?_⟩
  · have hlt := h.lt hr hs
    have := (least _).2 ((safe_iff_of_le hlt.le).1 h)
    omega
  · have hns : n ≤ s := h.trans (Nat.sub_le _ _)
    refine (safe_iff_of_le hns).2 ((least _).1 ?_)
    omega

/-! ## one trade -/

theorem exactly_eq_ok_iff {n : Nat} {a : Amount} : exactly n = .ok a ↔ a.toNat = n := by
  refine ⟨exactly_eq_ok, fun h => ?_⟩
  rw [exactly, Amount.ofNat?_eq_some.2 h]

theorem payout_eq_ok_iff (filledIn : 0 < reserveIn) (filledOut : 0 < reserveOut)
    {amountIn paid : Amount} :
    payout reserveIn reserveOut amountIn = .ok paid ↔
      paid.toNat = reserveOut.toNat -
        (reserveIn.toNat * reserveOut.toNat) ⌈/⌉ (reserveIn.toNat + amountIn.toNat) := by
  have filled : ¬ (decide (reserveIn = 0) || decide (reserveOut = 0)) = true := by
    rw [Bool.or_eq_true, decide_eq_true_eq, decide_eq_true_eq]
    rintro (rfl | rfl)
    · exact absurd filledIn (by decide)
    · exact absurd filledOut (by decide)
  rw [payout, if_neg filled]
  exact exactly_eq_ok_iff

/-- A trade against filled reserves is paid out, and the payout is the largest that is safe. -/
theorem exists_payout (filledIn : 0 < reserveIn) (filledOut : 0 < reserveOut) (amountIn : Amount) :
    ∃ paid, payout reserveIn reserveOut amountIn = .ok paid ∧
      ∀ n, Safe reserveIn.toNat reserveOut.toNat amountIn.toNat n ↔ n ≤ paid.toNat := by
  have hr : 0 < reserveIn.toNat := UInt64.lt_iff_toNat_lt.1 filledIn
  have hs : 0 < reserveOut.toNat := UInt64.lt_iff_toNat_lt.1 filledOut
  obtain ⟨n, hn⟩ : ∃ n, n = reserveOut.toNat -
      (reserveIn.toNat * reserveOut.toNat) ⌈/⌉ (reserveIn.toNat + amountIn.toNat) := ⟨_, rfl⟩
  have fits : n < UInt64.size := by
    rw [hn]
    exact (Nat.sub_le _ _).trans_lt reserveOut.toNat_lt
  have hpaid : (UInt64.ofNat n).toNat = n := UInt64.toNat_ofNat_of_lt' fits
  refine ⟨.ofNat n, (payout_eq_ok_iff filledIn filledOut).2 (hpaid.trans hn), fun k => ?_⟩
  rw [hpaid, hn]
  exact safe_iff_le hr hs

/-- the same computation in words of 128 bits, which answers nothing if a step of it faults -/
def payoutInWords (reserveIn reserveOut amountIn : Amount) : Option Amount := do
  let product ← Wide.mul? (.ofAmount reserveIn) (.ofAmount reserveOut)
  let whole ← Wide.add? (.ofAmount reserveIn) (.ofAmount amountIn)
  let left ← Wide.ceilDiv? product whole
  let paid ← Wide.sub? (.ofAmount reserveOut) left
  paid.amount?

theorem payoutInWords_eq_some (filledIn : 0 < reserveIn) (filledOut : 0 < reserveOut)
    {amountIn paid : Amount} (h : payout reserveIn reserveOut amountIn = .ok paid) :
    payoutInWords reserveIn reserveOut amountIn = some paid := by
  have hpaid := (payout_eq_ok_iff filledIn filledOut).1 h
  have hr : 0 < reserveIn.toNat := UInt64.lt_iff_toNat_lt.1 filledIn
  obtain ⟨product, multiplied, hproduct⟩ := Wide.exists_mul?_ofAmount reserveIn reserveOut
  obtain ⟨whole, added, hwhole⟩ := Wide.exists_add?_ofAmount reserveIn amountIn
  obtain ⟨left, divided, hleft⟩ := Wide.exists_ceilDiv? product (hwhole ▸ Nat.add_pos_left hr _)
  have subtracted : Wide.sub? (.ofAmount reserveOut) left = some (.ofAmount paid) := by
    refine Wide.sub?_eq_some.2 ?_
    rw [Wide.toNat_ofAmount, Wide.toNat_ofAmount, hpaid, hleft, hproduct, hwhole]
    exact Nat.sub_add_cancel (ceilDiv_le_reserve hr _ _)
  have taken : Wide.amount? (.ofAmount paid) = some paid :=
    Wide.amount?_eq_some.2 (Wide.toNat_ofAmount paid).symm
  simp only [payoutInWords, multiplied, added, divided, subtracted, taken, Option.bind_eq_bind,
    Option.bind_some]

/-- A trade against filled reserves is paid out, and no step of its price leaves a word of 128 bits.
It pays the largest amount with which the product of the reserves does not fall over the integers,
so it never empties a reserve, and it pays more for more. -/
theorem payout_greatest (filledIn : 0 < reserveIn) (filledOut : 0 < reserveOut)
    (amountIn : Amount) :
    ∃ paid, payout reserveIn reserveOut amountIn = .ok paid ∧
      payoutInWords reserveIn reserveOut amountIn = some paid ∧
      IsGreatest {n | Safe reserveIn.toNat reserveOut.toNat amountIn.toNat n} paid.toNat ∧
      paid < reserveOut ∧
      ∀ more, amountIn ≤ more →
        ∃ paidMore, payout reserveIn reserveOut more = .ok paidMore ∧ paid ≤ paidMore := by
  have hr : 0 < reserveIn.toNat := UInt64.lt_iff_toNat_lt.1 filledIn
  have hs : 0 < reserveOut.toNat := UInt64.lt_iff_toNat_lt.1 filledOut
  obtain ⟨paid, answers, safe⟩ := exists_payout filledIn filledOut amountIn
  have self := (safe paid.toNat).2 le_rfl
  refine ⟨paid, answers, payoutInWords_eq_some filledIn filledOut answers,
    ⟨self, fun n hn => (safe n).1 hn⟩, UInt64.lt_iff_toNat_lt.2 (self.lt hr hs), fun more hle => ?_⟩
  obtain ⟨paidMore, answers', safe'⟩ := exists_payout filledIn filledOut more
  exact ⟨paidMore, answers', UInt64.le_iff_toNat_le.2
    ((safe' _).1 (self.mono hr hs (UInt64.le_iff_toNat_le.1 hle)))⟩

/-- the largest amount there is -/
def brim : Amount := 18446744073709551615

/-- a trade against the fullest reserves there are, which it doubles on one side -/
theorem brimming_payout : 0 < brim ∧ payout brim brim brim = .ok 9223372036854775807 ∧
    payoutInWords brim brim brim = some 9223372036854775807 ∧
    IsGreatest {n | Safe brim.toNat brim.toNat brim.toNat n} 9223372036854775807 := by
  have filled : 0 < brim := by decide
  have price : payout brim brim brim = .ok 9223372036854775807 := rfl
  obtain ⟨paid, answers, words, greatest, _⟩ := payout_greatest filled filled brim
  obtain rfl := Except.ok.inj (answers.symm.trans price)
  exact ⟨filled, price, words, greatest⟩

/-! ## trades one after another -/

/-- what is paid out for amounts that are traded one after another -/
def payouts : Amount → Amount → List Amount → Except PriceFault (List Amount)
  | _, _, [] => .ok []
  | reserveIn, reserveOut, part :: rest =>
    match payout reserveIn reserveOut part with
    | .error fault => .error fault
    | .ok paid => (payouts (reserveIn + part) (reserveOut - paid) rest).map (paid :: ·)

theorem payouts_cons_of_ok {part paid : Amount} {rest later : List Amount}
    (first : payout reserveIn reserveOut part = .ok paid)
    (others : payouts (reserveIn + part) (reserveOut - paid) rest = .ok later) :
    payouts reserveIn reserveOut (part :: rest) = .ok (paid :: later) := by
  rw [payouts, first]
  exact map_eq_ok_iff.2 ⟨later, others, rfl⟩

/-- A trade that fits leaves filled reserves. -/
theorem exists_payout_left (filledIn : 0 < reserveIn) (filledOut : 0 < reserveOut)
    (amountIn : Amount) (fits : reserveIn.toNat + amountIn.toNat < UInt64.size) :
    ∃ paid, payout reserveIn reserveOut amountIn = .ok paid ∧
      Safe reserveIn.toNat reserveOut.toNat amountIn.toNat paid.toNat ∧
      paid.toNat ≤ reserveOut.toNat ∧
      (reserveIn + amountIn).toNat = reserveIn.toNat + amountIn.toNat ∧
      (reserveOut - paid).toNat = reserveOut.toNat - paid.toNat ∧
      0 < reserveIn + amountIn ∧ 0 < reserveOut - paid := by
  have hr : 0 < reserveIn.toNat := UInt64.lt_iff_toNat_lt.1 filledIn
  have hs : 0 < reserveOut.toNat := UInt64.lt_iff_toNat_lt.1 filledOut
  obtain ⟨paid, answers, safe⟩ := exists_payout filledIn filledOut amountIn
  have self := (safe paid.toNat).2 le_rfl
  have hlt := self.lt hr hs
  have hin : (reserveIn + amountIn).toNat = reserveIn.toNat + amountIn.toNat :=
    (UInt64.toNat_add _ _).trans (Nat.mod_eq_of_lt fits)
  have hout : (reserveOut - paid).toNat = reserveOut.toNat - paid.toNat :=
    UInt64.toNat_sub_of_le _ _ (UInt64.le_iff_toNat_le.2 hlt.le)
  refine ⟨paid, answers, self, hlt.le, hin, hout, UInt64.lt_iff_toNat_lt.2 ?_,
    UInt64.lt_iff_toNat_lt.2 ?_⟩
  · rw [hin]
    exact Nat.add_pos_left hr _
  · rw [hout]
    exact Nat.sub_pos_of_lt hlt

/-- What is paid for the parts is safe for the whole. -/
theorem payouts_safe (parts : List Amount) (filledIn : 0 < reserveIn) (filledOut : 0 < reserveOut)
    (fits : reserveIn.toNat + Amount.total id parts < UInt64.size) :
    ∃ paid, payouts reserveIn reserveOut parts = .ok paid ∧
      Safe reserveIn.toNat reserveOut.toNat (Amount.total id parts) (Amount.total id paid) := by
  induction parts generalizing reserveIn reserveOut with
  | nil => exact ⟨[], rfl, (safe_iff_of_le (Nat.zero_le _)).2 le_rfl⟩
  | cons part rest ih =>
    rw [Amount.total_cons] at fits
    have hpart : (id part).toNat = part.toNat := rfl
    obtain ⟨paid, first, safe, hle, hin, hout, filledIn', filledOut'⟩ :=
      exists_payout_left filledIn filledOut part (by omega)
    obtain ⟨later, others, safe'⟩ := ih filledIn' filledOut' (by rw [hin]; omega)
    rw [hin, hout] at safe'
    exact ⟨paid :: later, payouts_cons_of_ok first others, safe.add hle safe'⟩

/-- Two trades, one after the other, pay no more than one trade of both amounts, and neither do the
parts of an amount, however it is cut. -/
theorem payouts_le_payout (filledIn : 0 < reserveIn) (filledOut : 0 < reserveOut) :
    (∀ x y : Amount, reserveIn.toNat + x.toNat + y.toNat < UInt64.size →
      ∃ first second both, payout reserveIn reserveOut x = .ok first ∧
        payout (reserveIn + x) (reserveOut - first) y = .ok second ∧
        payout reserveIn reserveOut (x + y) = .ok both ∧
        first.toNat + second.toNat ≤ both.toNat) ∧
    ∀ (whole : Amount) (parts : List Amount), Amount.total id parts = whole.toNat →
      reserveIn.toNat + whole.toNat < UInt64.size →
      ∃ paid once, payouts reserveIn reserveOut parts = .ok paid ∧
        payout reserveIn reserveOut whole = .ok once ∧ Amount.total id paid ≤ once.toNat := by
  refine ⟨fun x y fits => ?_, fun whole parts cut fits => ?_⟩
  · have sum : (x + y).toNat = x.toNat + y.toNat :=
      (UInt64.toNat_add _ _).trans (Nat.mod_eq_of_lt (show _ < UInt64.size by omega))
    obtain ⟨first, paidFirst, safe, hle, hin, hout, filledIn', filledOut'⟩ :=
      exists_payout_left filledIn filledOut x (by omega)
    obtain ⟨second, paidSecond, safe', _⟩ :=
      exists_payout_left filledIn' filledOut' y (by rw [hin]; exact fits)
    obtain ⟨both, paidBoth, greatest⟩ := exists_payout filledIn filledOut (x + y)
    rw [hin, hout] at safe'
    refine ⟨first, second, both, paidFirst, paidSecond, paidBoth, (greatest _).1 ?_⟩
    rw [sum]
    exact safe.add hle safe'
  · obtain ⟨paid, answers, safe⟩ := payouts_safe parts filledIn filledOut (by rw [cut]; exact fits)
    obtain ⟨once, paidOnce, greatest⟩ := exists_payout filledIn filledOut whole
    rw [cut] at safe
    exact ⟨paid, once, answers, paidOnce, (greatest _).1 safe⟩

/-- an amount in three parts, where each rounding is for the pool -/
theorem cut_payout : (0 : Amount) < 1000 ∧ payouts 1000 1000 [33, 33, 34] = .ok [31, 29, 29] ∧
    payout 1000 1000 100 = .ok 90 ∧ Amount.total id [31, 29, 29] ≤ (90 : Amount).toNat := by
  have filled : (0 : Amount) < 1000 := by decide
  have parts : payouts 1000 1000 [33, 33, 34] = .ok [31, 29, 29] := rfl
  have once : payout 1000 1000 100 = .ok 90 := rfl
  obtain ⟨paid, paidOnce, answers, answersOnce, hle⟩ :=
    (payouts_le_payout filled filled).2 100 [33, 33, 34] rfl (by decide)
  obtain rfl := Except.ok.inj (answers.symm.trans parts)
  obtain rfl := Except.ok.inj (answersOnce.symm.trans once)
  exact ⟨filled, parts, once, hle⟩

end AccountLedger.Swap
