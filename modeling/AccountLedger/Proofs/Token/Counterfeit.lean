import AccountLedger.Proofs.Performed
/-!
# What the token program takes for its own

The token program opens a holding only in an account that it owns.  All its other commands read the
data alone: an account that stores the form of a holding or of a mint is taken for one, whoever owns
it.

* `Looks`: the accounts that are taken for holdings and mints;
* `touched_claimed_or_looks`: what the token program touches is its own, or looks like it.
-/

namespace AccountLedger.Token

/-- The data is the form of an open holding or of an initialized mint. -/
def Looks (a : Account) : Prop :=
  (∃ h, Holding.unpack a.data = .ok h) ∨ ∃ m, Mint.unpack a.data = .ok m

variable {n : Nat} {i : Instruction} {accounts : Slots n} {signers : List Key} {a b : Account}

theorem Rewritten.looks_of_touched (rewritten : Rewritten a b) (touched : a.Touched b) : Looks a := by
  cases rewritten with
  | same => exact absurd touched a.not_touched_self
  | holding here _ => exact .inl ⟨_, here⟩
  | mint here _ => exact .inr ⟨_, here⟩

/-- What the token program touches is its own.  Only a command that opens no holding may also touch
an account of someone else, and that one looks like a holding or a mint. -/
theorem touched_claimed_or_looks {calls : List Request}
    (ok : (native calls i accounts signers).result = .ok ()) {p : Fin n}
    (touched : (accounts.get p).Touched ((native calls i accounts signers).accounts.get p)) :
    (accounts.get p).owner = program ∨
      (∀ wallet, Command.read? i.data ≠ some (.openHolding wallet)) ∧ Looks (accounts.get p) := by
  have performed := performed_of_done (Reply.result_eq_ok_iff.1 ok)
  generalize (native calls i accounts signers).accounts = after at performed touched
  cases performed with
  | @opened q _ _ _ claimed =>
    rw [get_putData] at touched
    split at touched
    · rename_i h
      exact .inl (h ▸ claimed)
    · exact absurd touched (Account.not_touched_self _)
  | rewritten asked each => exact .inr ⟨asked, (each p).looks_of_touched touched⟩
  | @closed q receiver asked passes may =>
    have other : ∀ wallet, Command.read? i.data ≠ some (.openHolding wallet) := by
      intro wallet opens
      cases asked.symm.trans opens
    refine .inr ⟨other, ?_⟩
    obtain ⟨h, here, _⟩ := passes.closable
    rw [Slots.get_put] at touched
    split at touched
    · rename_i hq
      exact .inl ⟨h, hq ▸ here⟩
    · rename_i hq
      exact absurd ((Slots.touched_moved_iff may).1 touched).1.symm hq

/-! ## a forged holding -/

/-- a holding that the token program opened in none of its accounts -/
def forgery : Account where
  key := .ofNat 1
  lamports := 5
  data := (Holding.opened (.ofNat 9) (.ofNat 8) 70 []).pack

/-- the forged holding and a genuine one -/
def forged : Slots 2 :=
  #v[forgery, ⟨.ofNat 2, 5, (Holding.opened (.ofNat 9) (.ofNat 7) 0 []).pack, program, false, 0⟩]

/-- Its tokens are spent by whoever it names as owner. -/
def spending : Instruction := transfer (.ofNat 1) (.ofNat 2) (.ofNat 8) 70

theorem spending_performed :
    (native [] spending forged [.ofNat 8]).result = .ok () ∧
      ((native [] spending forged [.ofNat 8]).accounts.get 0).data ≠ (forged.get 0).data :=
  ⟨Reply.result_of_isOk (by decide +kernel), by decide +kernel⟩

theorem spending_unclaimed :
    (forged.get 0).key ≠ (forged.get 1).key ∧
      (native [] spending forged [.ofNat 8]).result = .ok () ∧
      (forged.get 0).Touched ((native [] spending forged [.ofNat 8]).accounts.get 0) ∧
      (forged.get 0).owner ≠ program := by
  obtain ⟨ok, spent⟩ := spending_performed
  exact ⟨by decide +kernel, ok, .inr (.inr spent), by decide +kernel⟩

theorem spending_looks : (forged.get 0).owner = .system ∧ Looks (forged.get 0) := by
  obtain ⟨ok, spent⟩ := spending_performed
  rcases touched_claimed_or_looks ok (.inr (.inr spent)) with claimed | ⟨_, looks⟩
  · exact absurd claimed (by decide +kernel)
  · exact ⟨rfl, looks⟩

end AccountLedger.Token
