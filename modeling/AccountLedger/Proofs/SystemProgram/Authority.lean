import AccountLedger.Proofs.Performed
/-!
# Who must allow what the System Program does

An account that the System Program takes lamports from, allocates or gives away has signed.  It is
also an account that no other program owns, and it has no data if it pays, with one exception: the
account that pays for a new one is asked for its signature only.

* `Authorized`: what it takes to touch an account;
* `touched_signed_and_authorized_iff`: whoever is touched has signed, and a touch is authorized unless
  it is the payment for a new account.
-/

namespace AccountLedger

namespace SystemProgram

/-- what a change of an account needs -/
structure Authorized (signers : List Key) (a b : Account) : Prop where
  signed : a.Touched b → a.key ∈ signers
  unclaimed : a.Touched b → a.owner = .system
  empty : b.lamports < a.lamports → a.data = []

variable {n : Nat} {i : Instruction} {accounts after : Slots n} {signers : List Key} {p : Fin n}

/-- The instruction makes the account in a slot pay for a new account. -/
def Funds (i : Instruction) (accounts : Slots n) (p : Fin n) : Prop :=
  ∃ amount space owner, Command.read? i.data = some (.createAccount amount space owner) ∧
    amount ≠ 0 ∧ accounts.positionAt i 0 = .ok p

theorem Authorized.of_untouched {a b : Account} (h : ¬ a.Touched b) : Authorized signers a b :=
  ⟨fun touched => absurd touched h, fun touched => absurd touched h, fun less => absurd (.inl less) h⟩

theorem Authorized.of_signed {a b : Account} (signed : a.key ∈ signers) (unclaimed : a.owner = .system)
    (empty : b.lamports < a.lamports → a.data = []) : Authorized signers a b :=
  ⟨fun _ => signed, fun _ => unclaimed, empty⟩

/-- A touch by an instruction that makes no new account is authorized. -/
theorem authorized_of_performed (performed : Performed i accounts signers after)
    (made : ∀ amount space owner, Command.read? i.data ≠ some (.createAccount amount space owner)) :
    Authorized signers (accounts.get p) (after.get p) := by
  cases performed with
  | created asked _ _ => exact absurd asked (made _ _ _)
  | @transferred payer receiver amount _ passes may =>
    by_cases touched : (accounts.get p).Touched ((accounts.moved payer receiver amount).get p)
    · obtain ⟨rfl, _⟩ := (Slots.touched_moved_iff may).1 touched
      exact .of_signed passes.signed passes.unclaimed fun _ => passes.empty
    · exact .of_untouched touched
  | @assigned q owner _ signed unclaimed =>
    rw [Slots.get_put]
    split
    · rename_i h
      exact .of_signed (h ▸ signed) (h ▸ unclaimed) fun less => absurd (h ▸ less) (UInt64.lt_irrefl _)
    · exact .of_untouched (Account.not_touched_self _)
  | @allocated q space _ signed unclaimed empty =>
    rw [Slots.get_put]
    split
    · rename_i h
      exact .of_signed (h ▸ signed) (h ▸ unclaimed) fun _ => h ▸ empty
    · exact .of_untouched (Account.not_touched_self _)

/-- A new account is vacant before, and of the other accounts only the one that pays is touched. -/
theorem created_authorized_iff {amount : Amount} {space : UInt64} {owner : Key}
    (asked : Command.read? i.data = some (.createAccount amount space owner))
    (performed : Performed i accounts signers after) :
    ((accounts.get p).Touched (after.get p) → (accounts.get p).key ∈ signers) ∧
      (Authorized signers (accounts.get p) (after.get p) ↔
        (Funds i accounts p → (accounts.get p).owner = .system ∧ (accounts.get p).data = [])) := by
  cases performed with
  | @created payer target _ _ _ asked' passes may =>
    cases asked.symm.trans asked'
    have hpayer : Funds i accounts p → payer = p := by
      rintro ⟨_, _, _, _, _, place⟩
      exact Except.ok.inj (passes.payer.symm.trans place)
    by_cases htarget : target = p
    · subst htarget
      obtain ⟨_, empty, unclaimed⟩ := Account.isVacant_iff.1 passes.vacant
      exact ⟨fun _ => passes.target_signed, fun _ _ => ⟨unclaimed, empty⟩,
        fun _ => .of_signed passes.target_signed unclaimed fun _ => empty⟩
    · rw [Slots.get_put, if_neg htarget]
      by_cases touched : (accounts.get p).Touched ((accounts.moved payer target amount).get p)
      · obtain ⟨rfl, hne, some⟩ := (Slots.touched_moved_iff may).1 touched
        have funds : Funds i accounts p := ⟨_, _, _, asked, some, passes.payer⟩
        have less := (Slots.lamports_moved_lt_iff may).2 ⟨Eq.refl p, hne, some⟩
        refine ⟨fun _ => passes.payer_signed, ?_, fun h => ?_⟩
        · intro authorized _
          exact ⟨authorized.unclaimed touched, authorized.empty less⟩
        · exact .of_signed passes.payer_signed (h funds).1 fun _ => (h funds).2
      · refine ⟨fun h => absurd h touched, fun _ funds => absurd ?_ touched, fun _ => .of_untouched touched⟩
        obtain ⟨_, _, _, asked', some, _⟩ := id funds
        cases asked.symm.trans asked'
        obtain rfl := hpayer funds
        exact (Slots.touched_moved_iff may).2 ⟨rfl, Ne.symm htarget, some⟩
  | transferred asked' => cases asked.symm.trans asked'
  | assigned asked' => cases asked.symm.trans asked'
  | allocated asked' => cases asked.symm.trans asked'

/-- Whoever the System Program touches has signed.  What it does to an account is authorized, unless
it makes a claimed account or one with data pay for a new one. -/
theorem touched_signed_and_authorized_iff {calls : List Request}
    (ok : (native calls i accounts signers).result = .ok ()) (p : Fin n) :
    let a := accounts.get p
    let b := (native calls i accounts signers).accounts.get p
    (a.Touched b → a.key ∈ signers) ∧
      (Authorized signers a b ↔ (Funds i accounts p → a.owner = .system ∧ a.data = [])) := by
  dsimp only
  have performed := performed_of_done (Reply.result_eq_ok_iff.1 ok)
  generalize (native calls i accounts signers).accounts = after at performed ⊢
  by_cases made : ∃ amount space owner, Command.read? i.data = some (.createAccount amount space owner)
  · obtain ⟨amount, space, owner, asked⟩ := made
    exact created_authorized_iff asked performed
  · have authorized : Authorized signers (accounts.get p) (after.get p) :=
      authorized_of_performed performed fun amount space owner asked => made ⟨_, _, _, asked⟩
    refine ⟨authorized.signed, fun _ ⟨amount, space, owner, asked, _⟩ => ?_, fun _ => authorized⟩
    exact absurd ⟨_, _, _, asked⟩ made

/-! ## an account of another program that pays -/

/-- a claimed account with data, and a vacant one -/
def claimed : Slots 2 := #v[⟨.ofNat 1, 10, [7], .ofNat 3, false, 0⟩, .vacant (.ofNat 2)]

/-- The claimed account pays for the vacant one. -/
def payment : Instruction := createAccount (.ofNat 1) (.ofNat 2) 4 0 (.ofNat 3)

theorem payment_performed :
    (native [] payment claimed [.ofNat 1, .ofNat 2]).result = .ok () ∧
      ((native [] payment claimed [.ofNat 1, .ofNat 2]).accounts.get 0).lamports = 6 :=
  ⟨Reply.result_of_isOk (by decide +kernel), by decide +kernel⟩

/-- Both have signed, so the claimed account pays. -/
theorem payment_unauthorized :
    (claimed.get 0).key ≠ (claimed.get 1).key ∧
      (native [] payment claimed [.ofNat 1, .ofNat 2]).result = .ok () ∧
      ¬ Authorized [.ofNat 1, .ofNat 2] (claimed.get 0)
        ((native [] payment claimed [.ofNat 1, .ofNat 2]).accounts.get 0) := by
  obtain ⟨ok, less⟩ := payment_performed
  refine ⟨by decide +kernel, ok, fun authorized => ?_⟩
  have empty := authorized.empty (by rw [less]; decide)
  exact absurd empty (by decide)

theorem payment_signed :
    (claimed.get 0).key ∈ [Key.ofNat 1, .ofNat 2] ∧ Funds payment claimed 0 := by
  obtain ⟨ok, less⟩ := payment_performed
  have fewer : ((native [] payment claimed [.ofNat 1, .ofNat 2]).accounts.get 0).lamports <
      (claimed.get 0).lamports := by
    rw [less]
    decide
  obtain ⟨signed, authorized⟩ := touched_signed_and_authorized_iff ok 0
  refine ⟨signed (.inl fewer), Classical.byContradiction fun spared => ?_⟩
  have empty := (authorized.2 fun funds => absurd funds spared).empty fewer
  exact absurd empty (by decide)

end SystemProgram

end AccountLedger
