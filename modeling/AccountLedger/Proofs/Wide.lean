import AccountLedger.Amount
import Mathlib.Algebra.Order.Floor.Div
/-!
# Words of 128 bits

Prices are computed in words of twice the width of an amount, where a sum or a product that does not
fit is a fault and no smaller number.  Each operation here answers nothing if it faults, so a
computation that answers has not faulted anywhere.

* `mul?_eq_some`, `add?_eq_some`, `sub?_eq_some`: an answer is the number over the naturals;
* `exists_mul?_ofAmount`, `exists_add?_ofAmount`: two amounts have a product and a sum;
* `exists_ceilDiv?`: a quotient is rounded up without a fault;
* `div?_eq_some`, `shiftLeft?_eq_some`: a quotient that is rounded down, and a multiple by a power of
  two that fits;
* `toNat_clz`: how many bits a number leaves unused.
-/

namespace AccountLedger

abbrev Wide := BitVec 128

namespace Wide

variable {x y z : Wide}

def ofAmount (a : Amount) : Wide := a.toBitVec.setWidth 128

def mul? (x y : Wide) : Option Wide := if x.umulOverflow y then none else some (x * y)

def add? (x y : Wide) : Option Wide := if x.uaddOverflow y then none else some (x + y)

def sub? (x y : Wide) : Option Wide := if x.usubOverflow y then none else some (x - y)

/-- the quotient, and one more if something remains -/
def ceilDiv? (x y : Wide) : Option Wide :=
  if y = 0 then none else if x % y = 0 then some (x / y) else add? (x / y) 1

/-- the quotient, rounded down -/
def div? (x y : Wide) : Option Wide := if y = 0 then none else some (x / y)

/-- the word moved up by so many bits, of which there must be fewer than in a word -/
def shiftLeft? (x k : Wide) : Option Wide := if k.toNat < 128 then some (x <<< k.toNat) else none

def amount? (x : Wide) : Option Amount := Amount.ofNat? x.toNat

/-- A number that fits is that of a word. -/
theorem exists_toNat_eq {n : Nat} (h : n < 2 ^ 128) : ∃ z : Wide, z.toNat = n :=
  ⟨BitVec.ofNat 128 n, (BitVec.toNat_ofNat n 128).trans (Nat.mod_eq_of_lt h)⟩

@[simp] theorem toNat_ofAmount (a : Amount) : (ofAmount a).toNat = a.toNat :=
  BitVec.toNat_setWidth_of_le (by decide)

theorem ne_zero_of_toNat_pos (h : 0 < y.toNat) : y ≠ 0 := by
  rintro rfl
  cases h

/-- An operation that faults only where the number is too large answers the number if it fits. -/
theorem unless_eq_some {fault : Bool} {n : Nat} (large : fault = true → 2 ^ 128 ≤ n)
    (fits : ¬ fault = true → y.toNat = n) :
    (if fault then none else some y) = some z ↔ z.toNat = n := by
  split
  · rename_i h
    have := large h
    have := z.isLt
    refine ⟨fun h' => (by cases h'), fun h' => ?_⟩
    omega
  · rename_i h
    rw [Option.some.injEq, ← BitVec.toNat_inj, fits h]
    exact eq_comm

theorem mul?_eq_some : mul? x y = some z ↔ z.toNat = x.toNat * y.toNat :=
  unless_eq_some of_decide_eq_true BitVec.toNat_mul_of_not_umulOverflow

theorem add?_eq_some : add? x y = some z ↔ z.toNat = x.toNat + y.toNat :=
  unless_eq_some of_decide_eq_true BitVec.toNat_add_of_not_uaddOverflow

theorem sub?_eq_some : sub? x y = some z ↔ z.toNat + y.toNat = x.toNat := by
  unfold sub?
  split
  · rename_i h
    have hless : x.toNat < y.toNat := of_decide_eq_true h
    refine ⟨fun h' => (by cases h'), fun h' => ?_⟩
    omega
  · rename_i h
    have hle : ¬ x.toNat < y.toNat := fun hless => h (decide_eq_true hless)
    rw [Option.some.injEq, ← BitVec.toNat_inj, BitVec.toNat_sub_of_not_usubOverflow h]
    omega

theorem amount?_eq_some {a : Amount} : amount? x = some a ↔ a.toNat = x.toNat :=
  Amount.ofNat?_eq_some

theorem exists_mul?_ofAmount (a b : Amount) :
    ∃ z, mul? (ofAmount a) (ofAmount b) = some z ∧ z.toNat = a.toNat * b.toNat := by
  have hlt : a.toNat * b.toNat < 2 ^ 64 * 2 ^ 64 := Nat.mul_lt_mul'' a.toNat_lt b.toNat_lt
  obtain ⟨z, hz⟩ := exists_toNat_eq (n := a.toNat * b.toNat) (by omega)
  exact ⟨z, mul?_eq_some.2 (by rw [hz, toNat_ofAmount, toNat_ofAmount]), hz⟩

theorem exists_add?_ofAmount (a b : Amount) :
    ∃ z, add? (ofAmount a) (ofAmount b) = some z ∧ z.toNat = a.toNat + b.toNat := by
  have ha := a.toNat_lt
  have hb := b.toNat_lt
  obtain ⟨z, hz⟩ := exists_toNat_eq (n := a.toNat + b.toNat) (by omega)
  exact ⟨z, add?_eq_some.2 (by rw [hz, toNat_ofAmount, toNat_ofAmount]), hz⟩

/-! ## quotients, rounded up -/

theorem ceilDiv_of_mod_eq_zero {n d : Nat} (divisor : 0 < d) (h : n % d = 0) : n ⌈/⌉ d = n / d := by
  have hn := Nat.div_add_mod' n d
  refine Nat.div_eq_of_lt_le ?_ ?_
  · omega
  · rw [Nat.succ_mul]
    omega

theorem ceilDiv_of_mod_ne_zero {n d : Nat} (divisor : 0 < d) (h : n % d ≠ 0) :
    n ⌈/⌉ d = n / d + 1 := by
  have hn := Nat.div_add_mod' n d
  have hr := Nat.mod_lt n divisor
  refine Nat.div_eq_of_lt_le ?_ ?_
  · rw [Nat.succ_mul]
    omega
  · rw [Nat.succ_mul, Nat.succ_mul]
    omega

theorem ceilDiv?_eq_some (divisor : 0 < y.toNat) :
    ceilDiv? x y = some z ↔ z.toNat = x.toNat ⌈/⌉ y.toNat := by
  have hy := ne_zero_of_toNat_pos divisor
  have hmod : x % y = 0 ↔ x.toNat % y.toNat = 0 := by
    rw [← BitVec.toNat_inj, BitVec.toNat_umod]
    rfl
  rw [ceilDiv?, if_neg hy]
  split
  · rename_i h
    rw [ceilDiv_of_mod_eq_zero divisor (hmod.1 h), Option.some.injEq, ← BitVec.toNat_inj,
      BitVec.toNat_udiv]
    exact eq_comm
  · rename_i h
    rw [ceilDiv_of_mod_ne_zero divisor (mt hmod.2 h), add?_eq_some, BitVec.toNat_udiv]
    rfl

theorem exists_ceilDiv? (x : Wide) (divisor : 0 < y.toNat) :
    ∃ z, ceilDiv? x y = some z ∧ z.toNat = x.toNat ⌈/⌉ y.toNat := by
  -- the quotient is no larger than the dividend, so one more than it fits if something remains
  have hle : x.toNat ⌈/⌉ y.toNat ≤ x.toNat :=
    (ceilDiv_le_iff_le_mul divisor).2 (Nat.le_mul_of_pos_left _ divisor)
  obtain ⟨z, hz⟩ := exists_toNat_eq (hle.trans_lt x.isLt)
  exact ⟨z, (ceilDiv?_eq_some divisor).2 hz, hz⟩

/-! ## quotients, rounded down, and powers of two -/

theorem div?_eq_some (divisor : 0 < y.toNat) : div? x y = some z ↔ z.toNat = x.toNat / y.toNat := by
  rw [div?, if_neg (ne_zero_of_toNat_pos divisor), Option.some.injEq, ← BitVec.toNat_inj,
    BitVec.toNat_udiv]
  exact eq_comm

theorem exists_div? (x : Wide) (divisor : 0 < y.toNat) :
    ∃ z, div? x y = some z ∧ z.toNat = x.toNat / y.toNat := by
  obtain ⟨z, hz⟩ := exists_toNat_eq ((Nat.div_le_self x.toNat y.toNat).trans_lt x.isLt)
  exact ⟨z, (div?_eq_some divisor).2 hz, hz⟩

theorem shiftLeft?_eq_some (few : y.toNat < 128) (fits : x.toNat * 2 ^ y.toNat < 2 ^ 128) :
    shiftLeft? x y = some z ↔ z.toNat = x.toNat * 2 ^ y.toNat := by
  rw [shiftLeft?, if_pos few, Option.some.injEq, ← BitVec.toNat_inj, BitVec.toNat_shiftLeft,
    Nat.shiftLeft_eq, Nat.mod_eq_of_lt fits]
  exact eq_comm

/-- Of its 128 bits a number uses one more than the logarithm. -/
theorem toNat_clz (used : x.toNat ≠ 0) : x.clz.toNat + (Nat.log2 x.toNat + 1) = 128 := by
  have hne : x ≠ 0#128 := ne_zero_of_toNat_pos (Nat.pos_of_ne_zero used)
  have hlt : x.clz.toNat < 128 := BitVec.lt_def.1 (BitVec.clz_lt_iff_ne_zero.2 hne)
  have hlog : Nat.log2 x.toNat = 127 - x.clz.toNat := by
    refine (Nat.log2_eq_iff used).2 ⟨?_, ?_⟩
    · exact BitVec.two_pow_sub_clz_le_toNat_of_ne_zero (by decide) hne
    · rw [show 127 - x.clz.toNat + 1 = 128 - x.clz.toNat by omega]
      exact BitVec.toNat_lt_two_pow_sub_clz
  omega

end Wide

end AccountLedger
