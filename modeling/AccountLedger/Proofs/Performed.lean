import AccountLedger.Proofs.Instructions
import AccountLedger.Proofs.Lamports
/-!
# What the native programs do to their slots

Every instruction that a native program carries out is one of a few changes of the slots: lamports go
from one slot to another, and what an account stores or who owns it is written anew.  This is said of
any slots, also of some with one key, so that it holds of whatever a program hands on.

* `PassesCreate`, `PassesTransfer`, `Token.PassesClose`: what is checked before lamports move, and what
  is done when it is so;
* `Token.Recounted`, `Token.Rewritten`: what the token program does to one account;
* `SystemProgram.Performed`, `Token.Performed`, `Associated.Performed`: all that each program does;
* `native_even`: none of them changes the sum of the balances.
-/

namespace AccountLedger

namespace Reply

variable {n : Nat} {α : Type} {accounts : Slots n} {checks : Except ProgramError α} {next : α → Reply n}

/-- success, in a form that is decided -/
theorem result_of_isOk {reply : Reply n} (h : reply.result.isOk = true) : reply.result = .ok () := by
  unfold Except.isOk Except.toBool at h
  split at h
  · rename_i u hu
    exact hu
  · cases h

theorem afterChecks_of_ok {a : α} (h : checks = .ok a) : afterChecks accounts checks next = next a := by
  rw [h, afterChecks]

theorem afterChecks_cases :
    (∃ e, afterChecks accounts checks next = .refuse e accounts) ∨ ∃ a, checks = .ok a := by
  cases checks with
  | error e => exact .inl ⟨e, rfl⟩
  | ok a => exact .inr ⟨a, rfl⟩

end Reply

/-! ## the System Program -/

namespace SystemProgram

variable {n : Nat} {i : Instruction} {accounts after : Slots n} {signers : List Key}

section

variable {p q : Fin n} {amount : Amount}

/-- Without the lamports nothing moves; when they do not fit, they are gone. -/
theorem move_eq (accounts : Slots n) (p q : Fin n) (amount : Amount) :
    move accounts p q amount =
      if (accounts.get p).lamports < amount then (.error .insufficientFunds, accounts)
      else if accounts.Fits p q amount then (.ok (), accounts.moved p q amount)
      else (.error .arithmeticOverflow, accounts.debited p amount) := by
  unfold move
  by_cases hfunds : (accounts.get p).lamports < amount
  · rw [if_pos hfunds, if_pos hfunds]
  · rw [if_neg hfunds, if_neg hfunds]
    dsimp only
    rw [← Slots.debited, Amount.credit?]
    by_cases hfits : accounts.Fits p q amount
    · rw [if_pos hfits, if_pos (show _ < _ from hfits)]
      rfl
    · rw [if_neg hfits, if_neg (show ¬ _ < _ from hfits)]

end

theorem requireUnclaimed_eq_ok_iff {a : Account} : requireUnclaimed a = .ok () ↔ a.owner = .system := by
  unfold requireUnclaimed
  split <;> simp_all

/-- The checks before an account is made pass. -/
structure PassesCreate (i : Instruction) (accounts : Slots n) (signers : List Key) (p q : Fin n) :
    Prop where
  payer : accounts.positionAt i 0 = .ok p
  target : accounts.positionAt i 1 = .ok q
  payer_signed : (accounts.get p).key ∈ signers
  target_signed : (accounts.get q).key ∈ signers
  vacant : (accounts.get q).isVacant = true

/-- The checks before a transfer pass. -/
structure PassesTransfer (i : Instruction) (accounts : Slots n) (signers : List Key) (p q : Fin n) :
    Prop where
  payer : accounts.positionAt i 0 = .ok p
  receiver : accounts.positionAt i 1 = .ok q
  signed : (accounts.get p).key ∈ signers
  unclaimed : (accounts.get p).owner = .system
  empty : (accounts.get p).data = []

section

variable {p q : Fin n} {amount : Amount} {space : UInt64} {owner : Key}

theorem create_cases (i : Instruction) (accounts : Slots n) (signers : List Key) (amount : Amount)
    (space : UInt64) (owner : Key) :
    (∃ e, create i accounts signers amount space owner = .refuse e accounts) ∨
      ∃ p q, PassesCreate i accounts signers p q := by
  refine Reply.afterChecks_cases.imp_right fun ⟨⟨p, q⟩, hchecks⟩ => ⟨p, q, ?_⟩
  simp only [bind_eq_ok_iff, exists_unit, throw_or_eq_ok_iff, pure_eq_ok_iff, Prod.mk.injEq,
    Token.requireSigner_eq_ok_iff, Bool.not_eq_true', Bool.not_eq_false] at hchecks
  obtain ⟨payerKey, hk, targetKey, hl, hps, hqs, p, hp, q, hq, vacant, rfl, rfl⟩ := hchecks
  exact ⟨Slots.positionAt_eq_ok_iff.2 ⟨_, hk, hp⟩, Slots.positionAt_eq_ok_iff.2 ⟨_, hl, hq⟩,
    Slots.key_of_position hp ▸ hps, Slots.key_of_position hq ▸ hqs, vacant⟩

/-- A vacant account has room for all that is taken elsewhere. -/
theorem PassesCreate.fits (passes : PassesCreate i accounts signers p q)
    (covered : amount ≤ (accounts.get p).lamports) : accounts.Fits p q amount := by
  have hzero := (Account.isVacant_iff.1 passes.vacant).1
  have hamount := amount.toNat_lt
  rw [Slots.Fits, Slots.get_debited]
  split
  · rename_i hpq
    rw [hpq, hzero] at covered
    rw [UInt64.le_zero_iff.1 covered, hzero]
    exact Nat.zero_lt_succ _
  · rw [hzero, UInt64.toNat_zero, Nat.zero_add]
    exact hamount

theorem create_of_passes (passes : PassesCreate i accounts signers p q) :
    create i accounts signers amount space owner =
      if (accounts.get p).lamports < amount then .refuse .insufficientFunds accounts
      else allocateSlot (accounts.moved p q amount) q space owner := by
  obtain ⟨payerKey, hk, hp⟩ := Slots.positionAt_eq_ok_iff.1 passes.payer
  obtain ⟨targetKey, hl, hq⟩ := Slots.positionAt_eq_ok_iff.1 passes.target
  refine (Reply.afterChecks_of_ok (a := (p, q)) ?_).trans ?_
  · simp only [hk, hl, hp, hq, bind_eq_ok_iff, exists_unit, throw_or_eq_ok_iff, pure_eq_ok_iff,
      Token.requireSigner_eq_ok_iff, Except.ok.injEq, exists_eq_left', Bool.not_eq_true',
      Bool.not_eq_false]
    exact ⟨Slots.key_of_position hp ▸ passes.payer_signed,
      Slots.key_of_position hq ▸ passes.target_signed, passes.vacant, trivial⟩
  · dsimp only
    rw [move_eq]
    by_cases hfunds : (accounts.get p).lamports < amount
    · rw [if_pos hfunds, if_pos hfunds]
    · rw [if_neg hfunds, if_neg hfunds, if_pos (passes.fits (UInt64.not_lt.1 hfunds))]

theorem transfer_cases (i : Instruction) (accounts : Slots n) (signers : List Key) (amount : Amount) :
    (∃ e, transfer i accounts signers amount = .refuse e accounts) ∨
      ∃ p q, PassesTransfer i accounts signers p q := by
  refine Reply.afterChecks_cases.imp_right fun ⟨⟨p, q⟩, hchecks⟩ => ⟨p, q, ?_⟩
  simp only [bind_eq_ok_iff, exists_unit, throw_or_eq_ok_iff, pure_eq_ok_iff, Prod.mk.injEq,
    Token.requireSigner_eq_ok_iff, requireUnclaimed_eq_ok_iff, Bool.not_eq_true',
    Bool.not_eq_false, List.isEmpty_iff] at hchecks
  obtain ⟨payerKey, hk, targetKey, hl, hps, p, hp, q, hq, unclaimed, empty, rfl, rfl⟩ := hchecks
  exact ⟨Slots.positionAt_eq_ok_iff.2 ⟨_, hk, hp⟩, Slots.positionAt_eq_ok_iff.2 ⟨_, hl, hq⟩,
    Slots.key_of_position hp ▸ hps, unclaimed, empty⟩

theorem transfer_of_passes (passes : PassesTransfer i accounts signers p q) :
    transfer i accounts signers amount =
      if (accounts.get p).lamports < amount then .refuse .insufficientFunds accounts
      else if accounts.Fits p q amount then .done (accounts.moved p q amount)
      else .refuse .arithmeticOverflow (accounts.debited p amount) := by
  obtain ⟨payerKey, hk, hp⟩ := Slots.positionAt_eq_ok_iff.1 passes.payer
  obtain ⟨targetKey, hl, hq⟩ := Slots.positionAt_eq_ok_iff.1 passes.receiver
  refine (Reply.afterChecks_of_ok (a := (p, q)) ?_).trans ?_
  · simp only [hk, hl, hp, hq, bind_eq_ok_iff, exists_unit, throw_or_eq_ok_iff, pure_eq_ok_iff,
      Token.requireSigner_eq_ok_iff, requireUnclaimed_eq_ok_iff, Except.ok.injEq, exists_eq_left',
      Bool.not_eq_true', Bool.not_eq_false, List.isEmpty_iff]
    exact ⟨Slots.key_of_position hp ▸ passes.signed, passes.unclaimed, passes.empty, trivial⟩
  · dsimp only
    rw [move_eq]
    by_cases hfunds : (accounts.get p).lamports < amount
    · rw [if_pos hfunds, if_pos hfunds]
    · rw [if_neg hfunds, if_neg hfunds]
      by_cases hfits : accounts.Fits p q amount
      · rw [if_pos hfits, if_pos hfits]
      · rw [if_neg hfits, if_neg hfits]

theorem ownSlot_eq_ok (h : ownSlot i accounts signers = .ok p) :
    (accounts.get p).key ∈ signers ∧ (accounts.get p).owner = .system := by
  simp only [ownSlot, bind_eq_ok_iff, exists_unit, pure_eq_ok_iff, Token.requireSigner_eq_ok_iff,
    requireUnclaimed_eq_ok_iff] at h
  obtain ⟨_, _, signed, p', hp, unclaimed, rfl⟩ := h
  exact ⟨Slots.key_of_position hp ▸ signed, unclaimed⟩

end

/-- All that the System Program does when it carries out an instruction. -/
inductive Performed (i : Instruction) (accounts : Slots n) (signers : List Key) : Slots n → Prop
  | created {p q : Fin n} {amount : Amount} {space : UInt64} {owner : Key}
      (asked : Command.read? i.data = some (.createAccount amount space owner))
      (passes : PassesCreate i accounts signers p q) (may : accounts.MayMove p q amount) :
      Performed i accounts signers ((accounts.moved p q amount).put q
        { (accounts.moved p q amount).get q with data := List.replicate space.toNat 0, owner })
  | transferred {p q : Fin n} {amount : Amount}
      (asked : Command.read? i.data = some (.transfer amount))
      (passes : PassesTransfer i accounts signers p q) (may : accounts.MayMove p q amount) :
      Performed i accounts signers (accounts.moved p q amount)
  | assigned {p : Fin n} {owner : Key} (asked : Command.read? i.data = some (.assign owner))
      (signed : (accounts.get p).key ∈ signers) (unclaimed : (accounts.get p).owner = .system) :
      Performed i accounts signers (accounts.put p { accounts.get p with owner })
  | allocated {p : Fin n} {space : UInt64} (asked : Command.read? i.data = some (.allocate space))
      (signed : (accounts.get p).key ∈ signers) (unclaimed : (accounts.get p).owner = .system)
      (empty : (accounts.get p).data = []) :
      Performed i accounts signers
        (accounts.put p { accounts.get p with data := List.replicate space.toNat 0 })

theorem native_of_asked {calls : List Request} {command : Command}
    (asked : Command.read? i.data = some command) :
    native calls i accounts signers = perform i accounts signers command := by
  unfold native
  rw [asked]

theorem performed_of_done {calls : List Request} (h : native calls i accounts signers = .done after) :
    Performed i accounts signers after := by
  cases asked : Command.read? i.data with
  | none =>
    rw [native, asked] at h
    cases h
  | some command =>
    rw [native_of_asked asked] at h
    cases command with
    | createAccount amount space owner =>
      rcases create_cases i accounts signers amount space owner with ⟨e, he⟩ | ⟨p, q, passes⟩
      · cases he.symm.trans h
      · change create i accounts signers amount space owner = _ at h
        rw [create_of_passes passes] at h
        split at h
        · cases h
        · rename_i hfunds
          have covered := UInt64.not_lt.1 hfunds
          obtain ⟨_, rfl⟩ := allocateSlot_eq_done_iff.1 h
          exact .created asked passes ⟨covered, passes.fits covered⟩
    | transfer amount =>
      rcases transfer_cases i accounts signers amount with ⟨e, he⟩ | ⟨p, q, passes⟩
      · cases he.symm.trans h
      · change transfer i accounts signers amount = _ at h
        rw [transfer_of_passes passes] at h
        split at h
        · cases h
        · rename_i hfunds
          split at h
          · rename_i hfits
            obtain rfl := Reply.done_inj.1 h
            exact .transferred asked passes ⟨UInt64.not_lt.1 hfunds, hfits⟩
          · cases h
    | assign owner =>
      obtain ⟨p, hp, hdone⟩ := Reply.afterChecks_eq_done_iff.1 h
      obtain rfl := Reply.done_inj.1 hdone
      obtain ⟨signed, unclaimed⟩ := ownSlot_eq_ok hp
      exact .assigned asked signed unclaimed
    | allocate space =>
      obtain ⟨p, hchecks, hdone⟩ := Reply.afterChecks_eq_done_iff.1 h
      simp only [bind_eq_ok_iff, throw_or_eq_ok_iff, pure_eq_ok_iff, Bool.not_eq_true',
        Bool.not_eq_false, List.isEmpty_iff] at hchecks
      obtain ⟨p', hp, empty, rfl⟩ := hchecks
      obtain ⟨signed, unclaimed⟩ := ownSlot_eq_ok hp
      obtain ⟨_, rfl⟩ := allocateSlot_eq_done_iff.1 hdone
      exact .allocated asked signed unclaimed empty
    | _ => cases h

theorem Performed.even (h : Performed i accounts signers after) : after.total = accounts.total := by
  cases h with
  | created _ _ may =>
    refine (Slots.total_put_same _ _ _ ?_).trans (Slots.total_moved may)
    rfl
  | transferred _ _ may => exact Slots.total_moved may
  | assigned => exact Slots.total_put_same _ _ _ rfl
  | allocated => exact Slots.total_put_same _ _ _ rfl

end SystemProgram

/-! ## the token program -/

namespace Token

variable {n : Nat} {i : Instruction} {accounts after : Slots n} {signers : List Key}

/-- an account in which a holding may have another amount, or a mint another supply -/
inductive Recounted (a : Account) : Account → Prop
  | same : Recounted a a
  | holding {h : Holding} (here : Holding.unpack a.data = .ok h) (amount : Amount) :
      Recounted a { a with data := { h with amount }.pack }
  | mint {m : Mint} (here : Mint.unpack a.data = .ok m) (supply : Amount) :
      Recounted a { a with data := { m with supply }.pack }

/-- an account in which another holding or mint may stand in the place of one -/
inductive Rewritten (a : Account) : Account → Prop
  | same : Rewritten a a
  | holding {h : Holding} (here : Holding.unpack a.data = .ok h) (h' : Holding) :
      Rewritten a { a with data := h'.pack }
  | mint {m : Mint} (here : Mint.unpack a.data = .ok m) (m' : Mint) :
      Rewritten a { a with data := m'.pack }

/-- The checks before a holding is closed pass. -/
structure PassesClose (i : Instruction) (accounts : Slots n) (signers : List Key) (p q : Fin n) :
    Prop where
  holding : accounts.positionAt i 0 = .ok p
  receiver : accounts.positionAt i 1 = .ok q
  closable : ∃ h, Holding.unpack (accounts.get p).data = .ok h ∧ i.keyAt 2 = .ok h.closer ∧
    h.closer ∈ signers ∧ h.amount = 0

/-- All that the token program does when it carries out an instruction. -/
inductive Performed (i : Instruction) (accounts : Slots n) (signers : List Key) : Slots n → Prop
  | opened {p : Fin n} {wallet : Key} {data : Bytes} (asked : Command.read? i.data = some (.openHolding wallet))
      (claimed : (accounts.get p).owner = program) :
      Performed i accounts signers (putData accounts p data)
  | rewritten {after : Slots n} (asked : ∀ wallet, Command.read? i.data ≠ some (.openHolding wallet))
      (each : ∀ r, Rewritten (accounts.get r) (after.get r)) :
      Performed i accounts signers after
  | closed {p q : Fin n} (asked : Command.read? i.data = some .close)
      (passes : PassesClose i accounts signers p q)
      (may : accounts.MayMove p q (accounts.get p).lamports) :
      Performed i accounts signers ((accounts.moved p q (accounts.get p).lamports).put p
        (closed ((accounts.moved p q (accounts.get p).lamports).get p)))

namespace Rewritten

variable {a b c : Account}

theorem lamports (h : Rewritten a b) : b.lamports = a.lamports := by
  cases h <;> rfl

end Rewritten

theorem Recounted.rewritten {a b : Account} (h : Recounted a b) : Rewritten a b := by
  cases h with
  | same => exact .same
  | holding here => exact .holding here _
  | mint here => exact .mint here _

variable {wallet : Key} {amount : Amount} {p q r : Fin n}

theorem get_putData (accounts : Slots n) (p : Fin n) (data : Bytes) (r : Fin n) :
    (putData accounts p data).get r =
      if p = r then { accounts.get r with data } else accounts.get r := by
  rw [putData, Slots.get_put]
  by_cases h : p = r
  · rw [if_pos h, if_pos h, h]
  · rw [if_neg h, if_neg h]

/-- One slot changes. -/
theorem related_putData {R : Account → Account → Prop} (same : ∀ a, R a a) {data : Bytes}
    (h : R (accounts.get p) { accounts.get p with data }) :
    R (accounts.get r) ((putData accounts p data).get r) := by
  rw [get_putData]
  split
  · rename_i hr
    exact hr ▸ h
  · exact same _

/-- Two slots are counted anew. -/
theorem recounted_putData_putData (hne : p ≠ q) {data data' : Bytes}
    (h : Recounted (accounts.get p) { accounts.get p with data })
    (h' : Recounted (accounts.get q) { accounts.get q with data := data' }) :
    Recounted (accounts.get r) ((putData (putData accounts p data) q data').get r) := by
  rw [get_putData]
  split
  · rename_i hr
    rw [← hr, get_putData, if_neg hne]
    exact h'
  · exact related_putData (fun _ => .same) h

theorem recounted_of_performTransfer (h : performTransfer i accounts signers amount = .ok after) :
    Recounted (accounts.get r) (after.get r) := by
  simp only [performTransfer, bind_eq_ok_iff, exists_unit, throw_or_eq_ok_iff] at h
  obtain ⟨source, _, destination, _, authority, _, giver, hgiver, taker, htaker, _, _, h⟩ := h
  split at h
  · cases pure_eq_ok_iff.1 h
    exact .same
  · rename_i hne
    simp only [bind_eq_ok_iff, pure_eq_ok_iff] at h
    obtain ⟨rest, _, sum, _, rfl⟩ := h
    exact recounted_putData_putData (Ne.symm hne) (.holding htaker _) (.holding hgiver _)

theorem recounted_of_performMint (h : performMint i accounts signers amount = .ok after) :
    Recounted (accounts.get r) (after.get r) := by
  simp only [performMint, bind_eq_ok_iff, exists_unit, throw_or_eq_ok_iff, pure_eq_ok_iff] at h
  obtain ⟨mintKey, _, mint, _, destination, _, authority, _, m, hm, taker, htaker, _, _, supply, _,
    sum, _, rfl⟩ := h
  have hne : mint ≠ destination := by
    rintro rfl
    exact not_holding_of_mint hm taker htaker
  exact recounted_putData_putData hne (.mint hm _) (.holding htaker _)

theorem recounted_of_performBurn (h : performBurn i accounts signers amount = .ok after) :
    Recounted (accounts.get r) (after.get r) := by
  simp only [performBurn, bind_eq_ok_iff, exists_unit, throw_or_eq_ok_iff, pure_eq_ok_iff] at h
  obtain ⟨source, _, mintKey, _, mint, _, authority, _, giver, hgiver, m, hm, _, _, rest, _, supply, _,
    rfl⟩ := h
  have hne : source ≠ mint := by
    rintro rfl
    exact not_holding_of_mint hm giver hgiver
  exact recounted_putData_putData hne (.holding hgiver _) (.mint hm _)

theorem rewritten_of_performSetAuthority {kind : AuthorityKind} {successor : Option Key}
    (h : performSetAuthority i accounts signers kind successor = .ok after) :
    Rewritten (accounts.get r) (after.get r) := by
  simp only [performSetAuthority, bind_eq_ok_iff] at h
  obtain ⟨target, _, authority, _, h⟩ := h
  split at h
  · simp only [bind_eq_ok_iff, pure_eq_ok_iff] at h
    obtain ⟨m, hm, m', _, rfl⟩ := h
    exact related_putData (fun _ => .same) (.mint hm m')
  · simp only [bind_eq_ok_iff, pure_eq_ok_iff] at h
    obtain ⟨held, hheld, held', _, rfl⟩ := h
    exact related_putData (fun _ => .same) (.holding hheld held')

theorem performClose_cases (i : Instruction) (accounts : Slots n) (signers : List Key) :
    (∃ e, performClose i accounts signers = .refuse e accounts) ∨
      ∃ p q, PassesClose i accounts signers p q := by
  refine Reply.afterChecks_cases.imp_right fun ⟨⟨p, q⟩, hchecks⟩ => ⟨p, q, ?_⟩
  simp only [bind_eq_ok_iff, exists_unit, throw_or_eq_ok_iff, pure_eq_ok_iff, Prod.mk.injEq,
    requireAuthority_eq_ok_iff] at hchecks
  obtain ⟨p, hp, q, hq, authority, ha, h, here, ⟨signed, holder⟩, empty, rfl, rfl⟩ := hchecks
  rw [← Option.some.inj holder] at ha signed
  exact ⟨hp, hq, h, here, ha, signed, Decidable.not_not.1 empty⟩

/-- What the holding has goes to the receiver; if it does not fit, it is gone. -/
theorem performClose_of_passes (passes : PassesClose i accounts signers p q) :
    performClose i accounts signers =
      if accounts.Fits p q (accounts.get p).lamports then
        .done ((accounts.moved p q (accounts.get p).lamports).put p
          (closed ((accounts.moved p q (accounts.get p).lamports).get p)))
      else .refuse .arithmeticOverflow (accounts.debited p (accounts.get p).lamports) := by
  obtain ⟨h, here, ha, signed, empty⟩ := passes.closable
  have hemptied : accounts.put p { accounts.get p with lamports := 0 } =
      accounts.debited p (accounts.get p).lamports := by
    rw [Slots.debited, UInt64.sub_self]
  refine (Reply.afterChecks_of_ok (a := (p, q)) ?_).trans ?_
  · simp only [passes.holding, passes.receiver, ha, here, bind_eq_ok_iff, exists_unit,
      throw_or_eq_ok_iff, pure_eq_ok_iff, requireAuthority_eq_ok_iff, Except.ok.injEq,
      exists_eq_left']
    exact ⟨⟨signed, trivial⟩, Decidable.not_not.2 empty, trivial⟩
  · dsimp only
    rw [hemptied]
    by_cases hfits : accounts.Fits p q (accounts.get p).lamports
    · rw [if_pos hfits, credited_eq_ok_iff.2 ⟨hfits, rfl⟩]
      rfl
    · rw [if_neg hfits, credited, Amount.credit?, if_neg (show ¬ _ < _ from hfits)]

theorem native_of_asked {calls : List Request} {command : Command}
    (asked : Command.read? i.data = some command) :
    native calls i accounts signers = perform i accounts signers command := by
  unfold native
  rw [asked]

theorem performed_of_done {calls : List Request} (h : native calls i accounts signers = .done after) :
    Performed i accounts signers after := by
  cases asked : Command.read? i.data with
  | none =>
    rw [native, asked] at h
    cases h
  | some command =>
    rw [native_of_asked asked] at h
    cases command with
    | openHolding wallet =>
      obtain ⟨⟨p, mintKey⟩, hchecks, hdone⟩ := Reply.afterChecks_eq_done_iff.1 h
      simp only [bind_eq_ok_iff, throw_or_eq_ok_iff, pure_eq_ok_iff, Prod.mk.injEq] at hchecks
      obtain ⟨p', _, _, _, mint, _, m, _, claimed, _, rfl, rfl⟩ := hchecks
      dsimp only at hdone
      split at hdone
      · cases hdone
      · obtain rfl := Reply.done_inj.1 hdone
        exact .opened asked (Decidable.not_not.1 claimed)
    | transfer amount =>
      exact .rewritten (fun wallet => by simp [asked]) fun r =>
        (recounted_of_performTransfer (Reply.ofChanged_eq_done_iff.1 h)).rewritten
    | setAuthority kind successor =>
      exact .rewritten (fun wallet => by simp [asked]) fun r =>
        rewritten_of_performSetAuthority (Reply.ofChanged_eq_done_iff.1 h)
    | mintTo amount =>
      exact .rewritten (fun wallet => by simp [asked]) fun r =>
        (recounted_of_performMint (Reply.ofChanged_eq_done_iff.1 h)).rewritten
    | burn amount =>
      exact .rewritten (fun wallet => by simp [asked]) fun r =>
        (recounted_of_performBurn (Reply.ofChanged_eq_done_iff.1 h)).rewritten
    | close =>
      rcases performClose_cases i accounts signers with ⟨e, he⟩ | ⟨p, q, passes⟩
      · cases he.symm.trans h
      · change performClose i accounts signers = _ at h
        rw [performClose_of_passes passes] at h
        split at h
        · rename_i hfits
          obtain rfl := Reply.done_inj.1 h
          exact .closed asked passes ⟨UInt64.le_refl _, hfits⟩
        · cases h
    | other name => cases h

theorem Performed.even (h : Performed i accounts signers after) : after.total = accounts.total := by
  cases h with
  | opened => exact Slots.total_put_same _ _ _ rfl
  | rewritten _ each => exact Slots.total_congr fun r => (each r).lamports
  | closed _ _ may =>
    refine (Slots.total_put_same _ _ _ ?_).trans (Slots.total_moved may)
    rfl

/-! ## associated holdings -/

namespace Associated

/-- All that the program of associated holdings does when it carries out an instruction. -/
inductive Performed (accounts : Slots n) (signers : List Key) : Slots n → Prop
  | accepted : Performed accounts signers accounts
  | opened {p q : Fin n} {rent : Amount} {data : Bytes} (signed : (accounts.get p).key ∈ signers)
      (vacant : (accounts.get q).isVacant = true) (may : accounts.MayMove p q rent) :
      Performed accounts signers ((accounts.moved p q rent).put q
        { (accounts.moved p q rent).get q with data, owner := Token.program })

theorem readOrder_eq_ok {o : Order} (h : readOrder i signers = .ok o) : o.payer ∈ signers := by
  simp only [readOrder, bind_eq_ok_iff, exists_unit, requireSigner_eq_ok_iff, pure_eq_ok_iff] at h
  obtain ⟨_, _, payer, _, _, _, _, _, _, _, signed, rfl⟩ := h
  exact signed

theorem performed_of_fulfil {o : Order} {rent : Amount} (signed : o.payer ∈ signers)
    (h : fulfil o accounts rent = .ok after) : Performed accounts signers after := by
  simp only [fulfil, bind_eq_ok_iff] at h
  obtain ⟨p, hp, q, _, mint, _, m, _, h⟩ := h
  split at h
  · split at h
    · cases pure_eq_ok_iff.1 h
      exact .accepted
    · cases h
  · rename_i hvacant
    rw [Bool.not_eq_true', Bool.not_eq_false] at hvacant
    cases hrest : (accounts.get p).lamports.debit? rent with
    | none => rw [hrest] at h; cases h
    | some rest =>
      obtain ⟨hle, rfl⟩ := debited_eq_ok_iff.1
        (show debited (accounts.get p).lamports rent = .ok rest by rw [debited, hrest])
      have covered := UInt64.le_iff_toNat_le.2 hle
      rw [hrest] at h
      -- a vacant account has nothing, whether or not it is the payer itself
      have hzero : ((accounts.debited p rent).get q).lamports = 0 := by
        have hq := (Account.isVacant_iff.1 hvacant).1
        rw [Slots.get_debited]
        split
        · rename_i hpq
          rw [hpq, hq] at covered
          rw [UInt64.le_zero_iff.1 covered, hq]
          rfl
        · exact hq
      have fits : accounts.Fits p q rent := by
        rw [Slots.Fits, hzero, UInt64.toNat_zero, Nat.zero_add]
        exact rent.toNat_lt
      have hafter := pure_eq_ok_iff.1 h
      rw [← Slots.debited] at hafter
      have hopened : after = (accounts.moved p q rent).put q
          { (accounts.moved p q rent).get q with
            data := (Holding.opened o.mint o.wallet 0 []).pack, owner := Token.program } := by
        rw [Slots.moved, Slots.put_put, Slots.get_put, if_pos rfl, hzero, UInt64.zero_add]
        exact hafter.symm
      rw [hopened]
      exact .opened (Slots.key_of_position hp ▸ signed) hvacant ⟨covered, fits⟩

theorem performed_of_done {calls : List Request} (h : native calls i accounts signers = .done after) :
    Performed accounts signers after := by
  obtain ⟨o, ho, h⟩ := Reply.afterChecks_eq_done_iff.1 h
  split at h
  · cases h
  · cases h
  · split at h
    · cases h
    · exact performed_of_fulfil (readOrder_eq_ok ho) (Reply.ofChanged_eq_done_iff.1 h)

theorem Performed.even (h : Performed accounts signers after) : after.total = accounts.total := by
  cases h with
  | accepted => rfl
  | opened _ _ may =>
    refine (Slots.total_put_same _ _ _ ?_).trans (Slots.total_moved may)
    rfl

end Associated

end Token

/-- A native program leaves the sum of the balances when it carries out an instruction. -/
def Native.Even (program : Native) : Prop :=
  ∀ (calls : List Request) (i : Instruction) {n : Nat} (accounts after : Slots n)
    (signers : List Key), program calls i accounts signers = .done after →
      after.total = accounts.total

theorem SystemProgram.native_even : Native.Even native :=
  fun _ _ _ _ _ _ h => (performed_of_done h).even

theorem Token.native_even : Native.Even native :=
  fun _ _ _ _ _ _ h => (performed_of_done h).even

theorem Token.Associated.native_even : Native.Even native :=
  fun _ _ _ _ _ _ h => (performed_of_done h).even

end AccountLedger
