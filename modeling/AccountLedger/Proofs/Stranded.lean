import AccountLedger.Proofs.Performed
import AccountLedger.Proofs.Token.Losses
/-!
# What a refused instruction leaves

A native program makes its checks before it changes anything, so an instruction that it refuses leaves
the accounts as they were.  There is one exception, in two places: lamports are taken from the one who
pays before they are found not to fit the one who is paid.

* `Reply.Spares`: a refusal leaves the accounts;
* `SystemProgram.native_spares`, `Token.native_spares`, `Associated.native_spares`: it does, unless
  lamports do not fit;
* `Ledger.Strands`, `refused_changed_iff`: the refusals of the ledger that change accounts.
-/

namespace AccountLedger

/-! ## refusals that leave the accounts -/

namespace Reply

variable {n : Nat} {α : Type} {accounts after : Slots n} {reply : Reply n}

/-- If the reply is a refusal, the accounts are as they were. -/
def Spares (accounts : Slots n) (reply : Reply n) : Prop :=
  ∀ e, reply.result = .error (.refused e) → reply.accounts = accounts

theorem spares_of_same (h : reply.accounts = accounts) : reply.Spares accounts :=
  fun _ _ => h

theorem spares_done (accounts after : Slots n) : (done after).Spares accounts :=
  fun _ h => nomatch h

theorem spares_crash (c : Crash) (accounts after : Slots n) : (crash c after).Spares accounts :=
  fun _ h => nomatch h

theorem spares_afterChecks {checks : Except ProgramError α} {next : α → Reply n}
    (h : ∀ a, checks = .ok a → (next a).Spares accounts) :
    (afterChecks accounts checks next).Spares accounts := by
  cases checks with
  | error e => exact spares_of_same rfl
  | ok a => exact h a rfl

theorem spares_ofChanged (changed : Except ProgramError (Slots n)) :
    (ofChanged accounts changed).Spares accounts :=
  spares_afterChecks fun after _ => spares_done accounts after

end Reply

theorem Slots.ne_zero_of_not_fits {n : Nat} {accounts : Slots n} {p q : Fin n} {amount : Amount}
    (overflow : ¬ accounts.Fits p q amount) : amount ≠ 0 := by
  rintro rfl
  refine overflow ?_
  rw [Fits, UInt64.toNat_zero, Nat.add_zero]
  exact UInt64.toNat_lt _

variable {n : Nat} {i : Instruction} {accounts : Slots n} {signers : List Key} {calls : List Request}

namespace SystemProgram

theorem allocateSlot_spares (accounts now : Slots n) (p : Fin n) (space : UInt64) (owner : Key) :
    (allocateSlot now p space owner).Spares accounts := by
  unfold allocateSlot
  split
  · exact Reply.spares_crash _ _ _
  · exact Reply.spares_done _ _

theorem create_spares (amount : Amount) (space : UInt64) (owner : Key) :
    (create i accounts signers amount space owner).Spares accounts := by
  rcases create_cases i accounts signers amount space owner with ⟨e, he⟩ | ⟨p, q, passes⟩
  · rw [he]
    exact Reply.spares_of_same rfl
  · rw [create_of_passes passes]
    split
    · exact Reply.spares_of_same rfl
    · exact allocateSlot_spares _ _ _ _ _

theorem transfer_spares {amount : Amount}
    (fits : ∀ p q, PassesTransfer i accounts signers p q → amount ≤ (accounts.get p).lamports →
      accounts.Fits p q amount) : (transfer i accounts signers amount).Spares accounts := by
  rcases transfer_cases i accounts signers amount with ⟨e, he⟩ | ⟨p, q, passes⟩
  · rw [he]
    exact Reply.spares_of_same rfl
  · rw [transfer_of_passes passes]
    split
    · exact Reply.spares_of_same rfl
    · rename_i hfunds
      rw [if_pos (fits p q passes (UInt64.not_lt.1 hfunds))]
      exact Reply.spares_done _ _

theorem native_spares
    (fits : ∀ amount p q, Command.read? i.data = some (.transfer amount) →
      PassesTransfer i accounts signers p q → amount ≤ (accounts.get p).lamports →
        accounts.Fits p q amount) : (native calls i accounts signers).Spares accounts := by
  cases asked : Command.read? i.data with
  | none =>
    rw [native, asked]
    exact Reply.spares_of_same rfl
  | some command =>
    rw [native_of_asked asked]
    cases command with
    | createAccount amount space owner => exact create_spares amount space owner
    | transfer amount => exact transfer_spares fun p q => fits amount p q asked
    | assign owner => exact Reply.spares_afterChecks fun p _ => Reply.spares_done _ _
    | allocate space => exact Reply.spares_afterChecks fun p _ => allocateSlot_spares _ _ _ _ _
    | _ => exact Reply.spares_of_same rfl

/-- The payer loses what does not fit the receiver. -/
theorem native_of_overflow {amount : Amount} {p q : Fin n}
    (asked : Command.read? i.data = some (.transfer amount))
    (passes : PassesTransfer i accounts signers p q) (covered : amount ≤ (accounts.get p).lamports)
    (overflow : ¬ accounts.Fits p q amount) :
    native calls i accounts signers = .refuse .arithmeticOverflow (accounts.debited p amount) := by
  rw [native_of_asked asked]
  change transfer i accounts signers amount = _
  rw [transfer_of_passes passes, if_neg (UInt64.not_lt.2 covered), if_neg overflow]

end SystemProgram

namespace Token

theorem performOpen_spares (wallet : Key) : (performOpen i accounts wallet).Spares accounts := by
  refine Reply.spares_afterChecks fun found _ => ?_
  dsimp only
  split
  · exact Reply.spares_crash _ _ _
  · exact Reply.spares_done _ _

theorem performClose_spares
    (fits : ∀ p q, PassesClose i accounts signers p q → accounts.Fits p q (accounts.get p).lamports) :
    (performClose i accounts signers).Spares accounts := by
  rcases performClose_cases i accounts signers with ⟨e, he⟩ | ⟨p, q, passes⟩
  · rw [he]
    exact Reply.spares_of_same rfl
  · rw [performClose_of_passes passes, if_pos (fits p q passes)]
    exact Reply.spares_done _ _

theorem native_spares
    (fits : ∀ p q, Command.read? i.data = some .close → PassesClose i accounts signers p q →
      accounts.Fits p q (accounts.get p).lamports) :
    (native calls i accounts signers).Spares accounts := by
  cases asked : Command.read? i.data with
  | none =>
    rw [native, asked]
    exact Reply.spares_of_same rfl
  | some command =>
    rw [native_of_asked asked]
    cases command with
    | openHolding wallet => exact performOpen_spares wallet
    | close => exact performClose_spares fun p q => fits p q asked
    | other number => exact Reply.spares_of_same rfl
    | _ => exact Reply.spares_ofChanged _

/-- The holding loses what does not fit the receiver, and stays open. -/
theorem native_of_overflow {p q : Fin n} (asked : Command.read? i.data = some .close)
    (passes : PassesClose i accounts signers p q)
    (overflow : ¬ accounts.Fits p q (accounts.get p).lamports) :
    native calls i accounts signers =
      .refuse .arithmeticOverflow (accounts.debited p (accounts.get p).lamports) := by
  rw [native_of_asked asked]
  change performClose i accounts signers = _
  rw [performClose_of_passes passes, if_neg overflow]

theorem Associated.native_spares : (native calls i accounts signers).Spares accounts := by
  refine Reply.spares_afterChecks fun o _ => ?_
  split
  · exact Reply.spares_crash _ _ _
  · exact Reply.spares_crash _ _ _
  · split
    · exact Reply.spares_of_same rfl
    · exact Reply.spares_ofChanged _

end Token

/-! ## the ledger -/

namespace Ledger

variable {l : Ledger} {program : Native}

theorem RunsTokens.cases (known : l.RunsTokens) {key : Key} (loaded : l.native? key = some program) :
    program = SystemProgram.native ∨ program = Token.native ∨ program = Token.Associated.native := by
  unfold native? at loaded
  split at loaded
  · exact .inl (Option.some.inj loaded).symm
  · rcases known key program loaded with ⟨_, h⟩ | ⟨_, h⟩
    · exact .inr (.inl h)
    · exact .inr (.inr h)

theorem RunsTokens.even (known : l.RunsTokens) {key : Key} (loaded : l.native? key = some program) :
    program.Even := by
  rcases known.cases loaded with rfl | rfl | rfl
  · exact SystemProgram.native_even
  · exact Token.native_even
  · exact Token.Associated.native_even

/-- The ledger finds nothing to object to in the reply of a program that keeps balances even. -/
theorem execute_of_even (loaded : l.native? i.program = some program) (even : program.Even) :
    l.execute i accounts signers = program l.calls i accounts signers := by
  rw [execute, loaded]
  dsimp only
  unfold balanced
  cases hresult : (program l.calls i accounts signers).result with
  | error stop => rfl
  | ok u => rw [if_pos (even _ _ _ _ _ (Reply.result_eq_ok_iff.1 hresult)).symm]

/-- An instruction takes lamports that do not fit the one who is to get them: what a transfer takes
from its payer, or all that an account to be closed has. -/
inductive Strands (l : Ledger) (i : Instruction) (accounts : Slots n) (signers : List Key) :
    Slots n → Prop
  | transfer {p q : Fin n} {amount : Amount}
      (loaded : l.native? i.program = some SystemProgram.native)
      (asked : SystemProgram.Command.read? i.data = some (.transfer amount))
      (passes : SystemProgram.PassesTransfer i accounts signers p q)
      (covered : amount ≤ (accounts.get p).lamports) (overflow : ¬ accounts.Fits p q amount) :
      Strands l i accounts signers (accounts.debited p amount)
  | close {p q : Fin n} (loaded : l.native? i.program = some Token.native)
      (asked : Token.Command.read? i.data = some .close)
      (passes : Token.PassesClose i accounts signers p q)
      (overflow : ¬ accounts.Fits p q (accounts.get p).lamports) :
      Strands l i accounts signers (accounts.debited p (accounts.get p).lamports)

theorem Strands.changed {after : Slots n} (h : l.Strands i accounts signers after) :
    after ≠ accounts := by
  cases h with
  | transfer _ _ _ covered overflow => exact Slots.debited_ne covered (Slots.ne_zero_of_not_fits overflow)
  | close _ _ _ overflow =>
    exact Slots.debited_ne (UInt64.le_refl _) (Slots.ne_zero_of_not_fits overflow)

/-- If nothing is stranded, a refusal leaves the accounts. -/
theorem execute_spares (known : l.RunsTokens)
    (safe : ¬ l.Strands i accounts signers (l.execute i accounts signers).accounts) :
    (l.execute i accounts signers).Spares accounts := by
  cases loaded : l.native? i.program with
  | none =>
    rw [execute, loaded]
    exact Reply.spares_of_same rfl
  | some program =>
    have hexecute : l.execute i accounts signers = program l.calls i accounts signers :=
      execute_of_even loaded (known.even loaded)
    rw [hexecute] at safe ⊢
    rcases known.cases loaded with rfl | rfl | rfl
    · refine SystemProgram.native_spares fun amount p q asked passes covered => ?_
      refine Decidable.byContradiction fun overflow => safe ?_
      rw [SystemProgram.native_of_overflow asked passes covered overflow]
      exact .transfer loaded asked passes covered overflow
    · refine Token.native_spares fun p q asked passes => ?_
      refine Decidable.byContradiction fun overflow => safe ?_
      rw [Token.native_of_overflow asked passes overflow]
      exact .close loaded asked passes overflow
    · exact Token.Associated.native_spares

/-- A refused instruction has changed accounts exactly if it has stranded lamports. -/
theorem refused_changed_iff (known : l.RunsTokens) {height : Nat} {e : HostError}
    (refused : (host.invoke l i accounts signers height).1.result = .error (.refused e)) :
    (host.invoke l i accounts signers height).1.accounts ≠ accounts ↔
      l.Strands i accounts signers (host.invoke l i accounts signers height).1.accounts := by
  refine ⟨fun changed => ?_, Strands.changed⟩
  exact Classical.byContradiction fun safe => changed (execute_spares known safe e refused)

/-! ## a receiver who has all that fits -/

/-- a wallet, and one that has as many lamports as there can be -/
def brimming : Slots 2 := #v[{ key := .ofNat 1, lamports := 10 }, { key := .ofNat 2, lamports := -1 }]

def overpayment : Instruction where
  program := .system
  metas := [⟨.ofNat 1, true, true⟩, ⟨.ofNat 2, false, true⟩]
  data := [2, 0, 0, 0, 1, 0, 0, 0, 0, 0, 0, 0]

theorem overpayment_refused :
    (host.invoke start.withTokens overpayment brimming [.ofNat 1] 2).1 =
      .refuse .arithmeticOverflow (brimming.debited 0 1) := by
  have asked : SystemProgram.Command.read? overpayment.data = some (.transfer 1) := by decide +kernel
  have payer : brimming.positionAt overpayment 0 = .ok 0 :=
    Slots.positionAt_of_find rfl (by decide +kernel)
  have receiver : brimming.positionAt overpayment 1 = .ok 1 :=
    Slots.positionAt_of_find rfl (by decide +kernel)
  have passes : SystemProgram.PassesTransfer overpayment brimming [.ofNat 1] 0 1 :=
    ⟨payer, receiver, by decide +kernel, rfl, rfl⟩
  have loaded : start.withTokens.native? overpayment.program = some SystemProgram.native := rfl
  refine (execute_of_even loaded SystemProgram.native_even).trans ?_
  exact SystemProgram.native_of_overflow asked passes (by decide +kernel) (by decide +kernel)

/-- The payer has lost a lamport, though the transfer is refused. -/
theorem overpayment_unspared :
    start.withTokens.RunsTokens ∧
      (host.invoke start.withTokens overpayment brimming [.ofNat 1] 2).1.result =
        .error (.refused (.ofProgram .arithmeticOverflow)) ∧
      (host.invoke start.withTokens overpayment brimming [.ofNat 1] 2).1.accounts ≠ brimming := by
  rw [overpayment_refused]
  exact ⟨RunsTokens.start.withTokens, rfl, Slots.debited_ne (by decide +kernel) (by decide)⟩

theorem overpayment_strands :
    start.withTokens.Strands overpayment brimming [.ofNat 1]
      (host.invoke start.withTokens overpayment brimming [.ofNat 1] 2).1.accounts := by
  have refused : (host.invoke start.withTokens overpayment brimming [.ofNat 1] 2).1.result =
      .error (.refused (.ofProgram .arithmeticOverflow)) := by
    rw [overpayment_refused]
    rfl
  refine (refused_changed_iff RunsTokens.start.withTokens refused).1 ?_
  rw [overpayment_refused]
  exact Slots.debited_ne (by decide +kernel) (by decide)

end Ledger

end AccountLedger
