import AccountLedger.Proofs.Batch
import AccountLedger.Proofs.Slots
/-!
# Lamports on their way

A native program moves lamports by taking them from one slot and then giving them to another, which
may be the same.  In between they are in neither.

* `put_put`, `total_put`: a slot is put, and put again;
* `Account.Touched`: the changes of an account that someone must allow;
* `moved`, `get_moved`, `lamports_moved_lt_iff`: lamports change balances only, and only the one who
  pays has fewer;
* `total_moved`: lamports that are there and fit leave the sum of the balances.
-/

namespace AccountLedger

theorem Amount.total_set {α : Type} (amount : α → Amount) {l : List α} {i : Nat} (h : i < l.length)
    (a : α) :
    Amount.total amount (l.set i a) + (amount l[i]).toNat = Amount.total amount l + (amount a).toNat := by
  induction l generalizing i with
  | nil => cases h
  | cons b rest ih =>
    cases i with
    | zero =>
      simp only [List.set_cons_zero, Amount.total_cons, List.getElem_cons_zero]
      omega
    | succ i =>
      have := ih (Nat.lt_of_succ_lt_succ h)
      simp only [List.set_cons_succ, Amount.total_cons, List.getElem_cons_succ]
      omega

/-- The account has less or other data or another owner afterwards. -/
def Account.Touched (a b : Account) : Prop :=
  b.lamports < a.lamports ∨ b.owner ≠ a.owner ∨ b.data ≠ a.data

theorem Account.not_touched_self (a : Account) : ¬ a.Touched a := by
  simp [Touched]

namespace Slots

variable {n : Nat} {accounts after : Slots n} {i : Instruction} {place : Nat} {key : Key} {p q r : Fin n}
  {amount : Amount}

theorem put_put (accounts : Slots n) (p : Fin n) (a b : Account) :
    (accounts.put p a).put p b = accounts.put p b :=
  Vector.set_set a p.isLt

theorem total_put (accounts : Slots n) (p : Fin n) (a : Account) :
    (accounts.put p a).total + (accounts.get p).lamports.toNat = accounts.total + a.lamports.toNat := by
  have hp : p.val < accounts.toList.length := by
    rw [Vector.length_toList]
    exact p.isLt
  have h := Amount.total_set (·.lamports) hp a
  rw [Vector.getElem_toList] at h
  rw [total, total, put, Vector.toList_set]
  exact h

theorem positionAt_eq_ok_iff :
    accounts.positionAt i place = .ok p ↔
      ∃ key, i.keyAt place = .ok key ∧ accounts.position key = .ok p :=
  bind_eq_ok_iff

/-- where a key is, in a form that is decided -/
theorem positionAt_of_find (named : i.keyAt place = .ok key)
    (found : accounts.findFinIdx? (·.key = key) = some p) : accounts.positionAt i place = .ok p :=
  positionAt_eq_ok_iff.2 ⟨key, named, by rw [position, found]⟩

/-! ## lamports on their way -/

/-- the slots after lamports were taken from one -/
def debited (accounts : Slots n) (p : Fin n) (amount : Amount) : Slots n :=
  accounts.put p { accounts.get p with lamports := (accounts.get p).lamports - amount }

/-- the slots after lamports went from one to another -/
def moved (accounts : Slots n) (p q : Fin n) (amount : Amount) : Slots n :=
  let taken := accounts.debited p amount
  taken.put q { taken.get q with lamports := (taken.get q).lamports + amount }

/-- what was taken from one slot fits another -/
def Fits (accounts : Slots n) (p q : Fin n) (amount : Amount) : Prop :=
  ((accounts.debited p amount).get q).lamports.toNat + amount.toNat < UInt64.size

instance : Decidable (accounts.Fits p q amount) := inferInstanceAs (Decidable (_ < _))

/-- the lamports are there, and they fit the receiver -/
structure MayMove (accounts : Slots n) (p q : Fin n) (amount : Amount) : Prop where
  covered : amount ≤ (accounts.get p).lamports
  fits : accounts.Fits p q amount

theorem get_debited (accounts : Slots n) (p : Fin n) (amount : Amount) (r : Fin n) :
    (accounts.debited p amount).get r =
      if p = r then { accounts.get r with lamports := (accounts.get r).lamports - amount }
      else accounts.get r := by
  rw [debited, get_put]
  by_cases h : p = r
  · rw [if_pos h, if_pos h, h]
  · rw [if_neg h, if_neg h]

theorem debited_ne (covered : amount ≤ (accounts.get p).lamports) (some : amount ≠ 0) :
    accounts.debited p amount ≠ accounts := by
  intro h
  have hp := congrArg (fun now => (now.get p).lamports.toNat) h
  have hpos : amount.toNat ≠ 0 := fun h => some (UInt64.toNat_inj.1 h)
  have hle := UInt64.le_iff_toNat_le.1 covered
  simp only [get_debited, ↓reduceIte, UInt64.toNat_sub_of_le _ _ covered] at hp
  omega

/-- Moving lamports changes balances only. -/
theorem get_moved (accounts : Slots n) (p q : Fin n) (amount : Amount) (r : Fin n) :
    (accounts.moved p q amount).get r =
      { accounts.get r with lamports := ((accounts.moved p q amount).get r).lamports } := by
  unfold moved
  dsimp only
  rw [get_put, get_debited, get_debited]
  by_cases hq : q = r
  · rw [if_pos hq, hq]
    by_cases hp : p = r
    · rw [if_pos hp]
    · rw [if_neg hp]
  · rw [if_neg hq]
    by_cases hp : p = r
    · rw [if_pos hp]
    · rw [if_neg hp]

theorem moved_self (accounts : Slots n) (p : Fin n) (amount : Amount) :
    accounts.moved p p amount = accounts := by
  have hback : (accounts.get p).lamports - amount + amount = (accounts.get p).lamports :=
    UInt64.sub_add_cancel _ _
  apply Vector.ext
  intro r hr
  show (accounts.moved p p amount).get ⟨r, hr⟩ = accounts.get ⟨r, hr⟩
  rw [moved, get_put, get_debited, get_debited, if_pos rfl]
  by_cases h : p = ⟨r, hr⟩
  · rw [if_pos h, ← h, hback]
  · rw [if_neg h, if_neg h]

theorem lamports_moved (hne : p ≠ q) (amount : Amount) (r : Fin n) :
    ((accounts.moved p q amount).get r).lamports =
      if q = r then (accounts.get q).lamports + amount
      else if p = r then (accounts.get p).lamports - amount else (accounts.get r).lamports := by
  rw [moved, get_put, get_debited, get_debited, if_neg hne]
  by_cases hq : q = r
  · rw [if_pos hq, if_pos hq]
  · rw [if_neg hq, if_neg hq]
    by_cases hp : p = r
    · rw [if_pos hp, if_pos hp, hp]
    · rw [if_neg hp, if_neg hp]

/-- Only the slot that pays has fewer lamports afterwards. -/
theorem lamports_moved_lt_iff (may : accounts.MayMove p q amount) :
    ((accounts.moved p q amount).get r).lamports < (accounts.get r).lamports ↔
      r = p ∧ p ≠ q ∧ amount ≠ 0 := by
  by_cases hpq : p = q
  · subst hpq
    simp [moved_self]
  · have hfits := may.fits
    rw [Fits, get_debited, if_neg hpq] at hfits
    have hle := UInt64.le_iff_toNat_le.1 may.covered
    have hzero : amount ≠ 0 ↔ amount.toNat ≠ 0 := by
      rw [Ne, ← UInt64.toNat_inj]
      rfl
    rw [lamports_moved hpq, UInt64.lt_iff_toNat_lt, hzero]
    by_cases hq : q = r
    · subst hq
      rw [if_pos rfl, UInt64.toNat_add, Nat.mod_eq_of_lt hfits]
      refine ⟨fun h => absurd h (by omega), fun h => absurd h.1.symm hpq⟩
    · rw [if_neg hq]
      by_cases hp : p = r
      · subst hp
        rw [if_pos rfl, UInt64.toNat_sub_of_le _ _ may.covered]
        refine ⟨fun h => ⟨rfl, hpq, by omega⟩, fun h => by omega⟩
      · rw [if_neg hp]
        refine ⟨fun h => absurd h (Nat.lt_irrefl _), fun h => absurd h.1.symm hp⟩

theorem touched_moved_iff (may : accounts.MayMove p q amount) :
    (accounts.get r).Touched ((accounts.moved p q amount).get r) ↔ r = p ∧ p ≠ q ∧ amount ≠ 0 := by
  have same := accounts.get_moved p q amount r
  have hdata := congrArg Account.data same
  have howner := congrArg Account.owner same
  rw [← lamports_moved_lt_iff may, Account.Touched]
  refine ⟨?_, .inl⟩
  rintro (less | other | other)
  · exact less
  · exact absurd howner other
  · exact absurd hdata other

theorem total_moved (may : accounts.MayMove p q amount) :
    (accounts.moved p q amount).total = accounts.total := by
  have hle := UInt64.le_iff_toNat_le.1 may.covered
  have htaken := accounts.total_put p
    { accounts.get p with lamports := (accounts.get p).lamports - amount }
  have hgiven := (accounts.debited p amount).total_put q { (accounts.debited p amount).get q with
    lamports := ((accounts.debited p amount).get q).lamports + amount }
  simp only [UInt64.toNat_sub_of_le _ _ may.covered] at htaken
  simp only [UInt64.toNat_add, Nat.mod_eq_of_lt may.fits] at hgiven
  change (accounts.debited p amount).total + _ = _ at htaken
  change (accounts.moved p q amount).total + _ = _ at hgiven
  omega

/-- A slot with the balance that it had. -/
theorem total_put_same (accounts : Slots n) (p : Fin n) (a : Account)
    (h : a.lamports = (accounts.get p).lamports) :
    (accounts.put p a).total = accounts.total := by
  have := accounts.total_put p a
  rw [h] at this
  omega

theorem total_congr (h : ∀ p, (after.get p).lamports = (accounts.get p).lamports) :
    after.total = accounts.total := by
  have hlist : after.toList.map (·.lamports) = accounts.toList.map (·.lamports) := by
    apply List.ext_getElem (by simp)
    intro i hi hj
    have hlt : i < n := by simpa using hj
    rw [List.getElem_map, List.getElem_map]
    exact h ⟨i, hlt⟩
  have hsum := congrArg (Amount.total id) hlist
  rw [Amount.total_map, Amount.total_map] at hsum
  exact hsum

end Slots

end AccountLedger
