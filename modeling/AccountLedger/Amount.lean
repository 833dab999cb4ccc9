/-!
# Amounts

Balances, supplies and counts are 64-bit words.  A sum or a difference that does not fit is no
amount: nothing ever wraps.

* `credit?_eq_some`, `debit?_eq_some`: what the checked sum and difference are, over the naturals;
* `total_append`: the total of two lists, one after the other.
-/

namespace AccountLedger

abbrev Amount := UInt64

namespace Amount

/-- the sum, if it fits the word -/
def credit? (balance amount : Amount) : Option Amount :=
  if balance.toNat + amount.toNat < UInt64.size then some (balance + amount) else none

/-- the difference, if the balance covers it -/
def debit? (balance amount : Amount) : Option Amount :=
  if amount ≤ balance then some (balance - amount) else none

/-- a number as an amount, if it fits the word -/
def ofNat? (n : Nat) : Option Amount :=
  if n < UInt64.size then some (UInt64.ofNat n) else none

/-- the sum of the amounts in a list of things, which may exceed the word -/
def total {α : Type} (amount : α → Amount) : List α → Nat
  | [] => 0
  | a :: rest => (amount a).toNat + total amount rest

theorem credit?_eq_some {balance amount sum : Amount} :
    credit? balance amount = some sum ↔ sum.toNat = balance.toNat + amount.toNat := by
  unfold credit?
  split
  · rename_i h
    have hsum : (balance + amount).toNat = balance.toNat + amount.toNat :=
      (UInt64.toNat_add _ _).trans (Nat.mod_eq_of_lt h)
    rw [Option.some.injEq, ← UInt64.toNat_inj, hsum]
    exact eq_comm
  · rename_i h
    have h : ¬ balance.toNat + amount.toNat < 18446744073709551616 := h
    have := sum.toNat_lt
    constructor
    · intro h'; cases h'
    · intro h'; omega

theorem debit?_eq_some {balance amount rest : Amount} :
    debit? balance amount = some rest ↔ rest.toNat + amount.toNat = balance.toNat := by
  unfold debit?
  split
  · rename_i h
    rw [Option.some.injEq, ← UInt64.toNat_inj, UInt64.toNat_sub_of_le _ _ h]
    have := UInt64.le_iff_toNat_le.1 h
    omega
  · rename_i h
    rw [UInt64.le_iff_toNat_le] at h
    constructor
    · intro h'; cases h'
    · intro h'; omega

theorem ofNat?_eq_some {n : Nat} {a : Amount} : ofNat? n = some a ↔ a.toNat = n := by
  unfold ofNat?
  split
  · rename_i h
    rw [Option.some.injEq, ← UInt64.toNat_inj, UInt64.toNat_ofNat_of_lt' h]
    exact eq_comm
  · rename_i h
    have h : ¬ n < 18446744073709551616 := h
    have := a.toNat_lt
    constructor
    · intro h'; cases h'
    · intro h'; omega

theorem total_nil {α : Type} (amount : α → Amount) : total amount [] = 0 := rfl

theorem total_cons {α : Type} (amount : α → Amount) (a : α) (rest : List α) :
    total amount (a :: rest) = (amount a).toNat + total amount rest := rfl

theorem total_append {α : Type} (amount : α → Amount) (front rest : List α) :
    total amount (front ++ rest) = total amount front + total amount rest := by
  induction front with
  | nil => simp [total]
  | cons a front ih =>
    simp only [List.cons_append, total, ih]
    omega

end Amount

end AccountLedger
