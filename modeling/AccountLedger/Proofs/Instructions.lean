import AccountLedger.Proofs.Token.Commands
import AccountLedger.Token.Associated
/-!
# What the instructions of the native programs do to a store

An instruction carries its command as data, and the program reads it back.  So an instruction that a
program builds is carried out only if the accounts that it names are fit for its command, and then
they change as the command says.

* `turns_createAccount`: a vacant account is paid for and given away;
* `turns_transfer`, `turns_close` and the like: the instructions of the token program;
* `Associated.turns_create`: the holding of a wallet is opened, or was there before.
-/

namespace AccountLedger

theorem InnerCall.Turns.of_done {program : Native} {calls : List Request} {i : Instruction} {s : Store}
    {P : Store → Prop} (h : ∀ after, replyOf program calls i s = .done after →
      ∃ s', after = s'.slots i.keys ∧ s.Within i.keys s' ∧ P s') : Turns program calls i s P :=
  fun hok => h _ (Reply.result_eq_ok_iff.1 hok)

namespace SystemProgram

variable {keys : List Key} {s : Store} {signers : List Key} {payer target owner : Key} {rent : Amount}
  {space : UInt64} {after : Slots keys.length}

theorem read?_createAccount :
    Command.read? (createAccount payer target rent space owner).data =
      some (.createAccount rent space owner) := by
  have hkey := Codec.key.read_write_nil owner
  simp only [Command.read?, Command.reader, createAccount, List.append_assoc, Command.next, bind,
    StateT.bind, StateT.run, Codec.read_write, Except.toOption, Option.bind_some]
  show Option.map _ (Command.fields 0 _) = _
  simp only [Command.fields, Command.next, bind, StateT.bind, Codec.read_write, hkey,
    Except.toOption, Option.bind_some]
  rfl

theorem allocateSlot_eq_done_iff {n : Nat} {accounts after : Slots n} {p : Fin n} :
    allocateSlot accounts p space owner = .done after ↔
      space.toNat < allocationLimit ∧ after = accounts.put p
        { accounts.get p with data := List.replicate space.toNat 0, owner } := by
  unfold allocateSlot checkAllocation
  by_cases h : space.toNat < allocationLimit
  · simp [h, Reply.done, eq_comm]
  · simp [h, Reply.done, Reply.crash]

theorem move_eq_ok_iff {n : Nat} {accounts moved : Slots n} {p q : Fin n} :
    move accounts p q rent = (.ok (), moved) ↔ rent ≤ (accounts.get p).lamports ∧
      ∃ balance, ((accounts.put p
          { accounts.get p with lamports := (accounts.get p).lamports - rent }).get q).lamports.credit?
            rent = some balance ∧
        moved = (accounts.put p
          { accounts.get p with lamports := (accounts.get p).lamports - rent }).put q
            { (accounts.put p
                { accounts.get p with lamports := (accounts.get p).lamports - rent }).get q with
              lamports := balance } := by
  unfold move
  by_cases hfunds : (accounts.get p).lamports < rent
  · simp [hfunds, UInt64.not_le.2 hfunds]
  · rw [if_neg hfunds]
    simp only [UInt64.not_lt.1 hfunds, true_and]
    split
    · rename_i balance hcredit
      simp [hcredit, eq_comm]
    · rename_i hcredit
      simp [hcredit]

/-- The creation of an account checks the signatures and that the account is vacant, and then it
moves the lamports and allocates. -/
theorem create_slots_eq_done_iff (distinct : keys.Nodup) (p q : Fin keys.length) :
    create (createAccount (keys.get p) (keys.get q) rent space owner) (s.slots keys) signers rent
        space owner = .done after ↔
      (keys.get p ∈ signers ∧ keys.get q ∈ signers ∧ (s.read (keys.get q)).isVacant = true) ∧
        ∃ moved, move (s.slots keys) p q rent = (.ok (), moved) ∧
          allocateSlot moved q space owner = .done after := by
  have hp := (Store.position_slots_iff distinct (s := s)).2 (Eq.refl (keys.get p))
  have hq := (Store.position_slots_iff distinct (s := s)).2 (Eq.refl (keys.get q))
  have hk : ∀ a b : Key, (createAccount a b rent space owner).keyAt 0 = .ok a := fun _ _ => rfl
  have hl : ∀ a b : Key, (createAccount a b rent space owner).keyAt 1 = .ok b := fun _ _ => rfl
  rw [create, Reply.afterChecks_eq_done_iff]
  simp only [hk, hl, hp, hq, bind_eq_ok_iff, exists_unit, Except.ok.injEq, exists_eq_left',
    throw_or_eq_ok_iff, pure_eq_ok_iff, Token.requireSigner_eq_ok_iff, Store.get_slots,
    Bool.not_eq_true', Bool.not_eq_false, Prod.exists, Prod.mk.injEq]
  refine ⟨?_, ?_⟩
  · rintro ⟨_, _, ⟨hps, hqs, hvacant, rfl, rfl⟩, h⟩
    cases hm : move (s.slots keys) p q rent with
    | mk result moved =>
      rw [hm] at h
      cases result with
      | error e => cases h
      | ok u => exact ⟨⟨hps, hqs, hvacant⟩, moved, rfl, h⟩
  · rintro ⟨⟨hps, hqs, hvacant⟩, moved, hm, h⟩
    exact ⟨p, q, ⟨hps, hqs, hvacant, rfl, rfl⟩, by rw [hm]; exact h⟩

/-- A vacant account is made that another one pays for, if both sign and the payer has the
lamports. -/
theorem create_eq_done_iff (distinct : keys.Nodup) (hp : payer ∈ keys) (ht : target ∈ keys)
    (hne : payer ≠ target) :
    create (createAccount payer target rent space owner) (s.slots keys) signers rent space owner =
        .done after ↔
      (payer ∈ signers ∧ target ∈ signers ∧ (s.read target).isVacant = true) ∧
        rent ≤ (s.read payer).lamports ∧ space.toNat < allocationLimit ∧
          after = (s.made payer target rent space.toNat owner).slots keys := by
  obtain ⟨p, rfl⟩ := exists_get_of_mem hp
  obtain ⟨q, rfl⟩ := exists_get_of_mem ht
  rw [create_slots_eq_done_iff distinct]
  refine and_congr_right fun signed => ?_
  obtain ⟨_, _, hvacant⟩ := signed
  let taken := s.putLamports (keys.get p) ((s.read (keys.get p)).lamports - rent)
  have hread : taken.read (keys.get q) = s.read (keys.get q) := by
    rw [Store.read_putLamports, if_neg hne]
  have hcredit : Amount.credit? (taken.read (keys.get q)).lamports rent = some rent := by
    rw [hread, (Account.isVacant_iff.1 hvacant).1]
    exact Amount.credit?_eq_some.2 (by simp)
  have hmade : ((taken.putLamports (keys.get q) rent).slots keys).put q
      { (taken.putLamports (keys.get q) rent).read (keys.get q) with
        data := List.replicate space.toNat 0, owner } =
      (s.made (keys.get p) (keys.get q) rent space.toNat owner).slots keys := by
    refine (Store.put_slots distinct ?_).trans (Store.slots_congr fun key _ => ?_)
    · exact Store.key_read _ _
    rw [Store.read_insert, Store.read_made]
    simp only [Store.read_putLamports, Store.key_read, taken, if_neg hne, ↓reduceIte]
    by_cases hkey : keys.get q = key
    · simp only [if_pos hkey]
    · simp only [if_neg hkey]
  simp only [move_eq_ok_iff, allocateSlot_eq_done_iff, Store.get_slots,
    Store.putLamports_slots distinct]
  refine ⟨?_, ?_⟩
  · rintro ⟨_, ⟨hle, balance, hbalance, rfl⟩, hfits, rfl⟩
    cases hcredit.symm.trans hbalance
    rw [Store.get_slots]
    exact ⟨hle, hfits, hmade⟩
  · rintro ⟨hle, hfits, rfl⟩
    refine ⟨_, ⟨hle, rent, hcredit, rfl⟩, hfits, ?_⟩
    rw [Store.get_slots]
    exact hmade.symm

theorem create_eq_done (distinct : keys.Nodup) (hp : payer ∈ keys) (ht : target ∈ keys)
    (paid : rent ≠ 0)
    (h : create (createAccount payer target rent space owner) (s.slots keys) signers rent space
      owner = .done after) :
    (s.read target).isVacant = true ∧ rent ≤ (s.read payer).lamports ∧ payer ≠ target ∧
      after = (s.made payer target rent space.toNat owner).slots keys := by
  have hne : payer ≠ target := by
    rintro rfl
    obtain ⟨p, rfl⟩ := exists_get_of_mem hp
    obtain ⟨⟨_, _, hvacant⟩, _, hmove, _⟩ := (create_slots_eq_done_iff distinct p p).1 h
    obtain ⟨hle, _⟩ := move_eq_ok_iff.1 hmove
    rw [Store.get_slots, (Account.isVacant_iff.1 hvacant).1] at hle
    exact paid (UInt64.le_zero_iff.1 hle)
  obtain ⟨⟨_, _, hvacant⟩, hle, _, hafter⟩ := (create_eq_done_iff distinct hp ht hne).1 h
  exact ⟨hvacant, hle, hne, hafter⟩

/-- Whether the instruction is carried out is a matter of the two accounts and the size. -/
theorem replyOf_createAccount_eq_done_iff {calls : List Request} (hne : payer ≠ target)
    {after : Slots (createAccount payer target rent space owner).keys.length} :
    InnerCall.replyOf native calls (createAccount payer target rent space owner) s = .done after ↔
      (s.read target).isVacant = true ∧ rent ≤ (s.read payer).lamports ∧
        space.toNat < allocationLimit ∧
          after = (s.made payer target rent space.toNat owner).slots _ := by
  let i := createAccount payer target rent space owner
  have hp : payer ∈ i.keys :=
    Instruction.mem_keys (m := ⟨payer, true, true⟩) (by simp [i, createAccount])
  have ht : target ∈ i.keys :=
    Instruction.mem_keys (m := ⟨target, true, true⟩) (by simp [i, createAccount])
  have signed : payer ∈ i.signers ∧ target ∈ i.signers := by
    simp [i, createAccount, Instruction.signers, mem_distinctBy_id]
  simp only [InnerCall.replyOf, native, read?_createAccount, perform]
  rw [create_eq_done_iff i.nodup_keys hp ht hne]
  exact ⟨fun h => ⟨h.1.2.2, h.2⟩, fun h => ⟨⟨signed.1, signed.2, h.1⟩, h.2⟩⟩

theorem within_made (hp : payer ∈ keys) (ht : target ∈ keys) (hne : payer ≠ target) (space : Nat) :
    s.Within keys (s.made payer target rent space owner) := by
  have hsame := s.read_putLamports payer ((s.read payer).lamports - rent) target
  rw [if_neg hne] at hsame
  exact (Store.Within.putLamports s hp _).trans
    (Store.Within.insert _ ht (s.key_read target) (by rw [hsame]) (by rw [hsame]))

theorem turns_createAccount {calls : List Request} (paid : rent ≠ 0) :
    InnerCall.Turns native calls (createAccount payer target rent space owner) s fun s' =>
      (s.read target).isVacant = true ∧ rent ≤ (s.read payer).lamports ∧ payer ≠ target ∧
        s' = s.made payer target rent space.toNat owner := by
  refine .of_done fun after h => ?_
  let i := createAccount payer target rent space owner
  have hp : payer ∈ i.keys :=
    Instruction.mem_keys (m := ⟨payer, true, true⟩) (by simp [i, createAccount])
  have ht : target ∈ i.keys :=
    Instruction.mem_keys (m := ⟨target, true, true⟩) (by simp [i, createAccount])
  simp only [InnerCall.replyOf, native, read?_createAccount, perform] at h
  obtain ⟨hvacant, hle, hne, rfl⟩ := create_eq_done i.nodup_keys hp ht paid h
  exact ⟨_, rfl, within_made hp ht hne _, hvacant, hle, hne, rfl⟩

end SystemProgram

namespace Token

variable {s : Store} {calls : List Request} {amount : Amount} {kind : AuthorityKind}
  {source destination authority mint holding owner : Key} {successor : Option Key}

open InnerCall (Turns replyOf)

theorem Command.field?_write {α : Type} (c : Codec α) (a : α) : field? c (c.write a) = some a := by
  simp only [field?, c.read_write_nil]

theorem read?_transfer :
    Command.read? (transfer source destination authority amount).data = some (.transfer amount) := by
  simp [transfer, Command.read?, Command.ofFields, Command.field?_write]

theorem read?_mintTo :
    Command.read? (mintTo mint holding authority amount).data = some (.mintTo amount) := by
  simp [mintTo, Command.read?, Command.ofFields, Command.field?_write]

theorem read?_burn :
    Command.read? (burn holding mint authority amount).data = some (.burn amount) := by
  simp [burn, Command.read?, Command.ofFields, Command.field?_write]

theorem read?_openHolding :
    Command.read? (openHolding holding mint owner).data = some (.openHolding owner) := by
  simp [openHolding, Command.read?, Command.ofFields, Command.field?_write]

theorem read?_close :
    Command.read? (close holding destination authority).data = some .close := by
  simp [close, Command.read?, Command.ofFields]

theorem read?_setAuthority :
    Command.read? (setAuthority holding authority kind successor).data =
      some (.setAuthority kind successor) := by
  have hfields : Command.field? (Codec.byte.pair (Codec.option .key))
      (kind.code :: (Codec.option .key).write successor) = some (kind.code, successor) :=
    Command.field?_write (Codec.byte.pair (Codec.option .key)) (kind.code, successor)
  have hkind := AuthorityKind.ofCode?_eq_some_iff.2 (Eq.refl kind.code)
  simp [setAuthority, Command.read?, Command.ofFields, Command.setAuthority?, hfields, hkind]

theorem turns_transfer :
    Turns native calls (transfer source destination authority amount) s
      (Transfers s source destination authority amount) := by
  refine .of_done fun after h => ?_
  let i := transfer source destination authority amount
  have hs : source ∈ i.keys := Instruction.mem_keys (m := ⟨source, false, true⟩) (by simp [i, transfer])
  have hd : destination ∈ i.keys :=
    Instruction.mem_keys (m := ⟨destination, false, true⟩) (by simp [i, transfer])
  simp only [replyOf, native, read?_transfer, perform, Reply.ofChanged_eq_done_iff] at h
  obtain ⟨giver, taker, may, rfl⟩ := (performTransfer_eq_ok_iff i.nodup_keys hs hd).1 h
  refine ⟨_, rfl, ?_, giver, taker, may, rfl⟩
  unfold transferred
  split
  · exact .refl _ _
  · exact (Store.Within.putData s hd _).trans (Store.Within.putData _ hs _)

theorem turns_close :
    Turns native calls (close holding destination authority) s
      (Closes s holding destination authority) := by
  refine .of_done fun after h => ?_
  let i := close holding destination authority
  have hk : holding ∈ i.keys := Instruction.mem_keys (m := ⟨holding, false, true⟩) (by simp [i, close])
  have hd : destination ∈ i.keys :=
    Instruction.mem_keys (m := ⟨destination, false, true⟩) (by simp [i, close])
  simp only [replyOf, native, read?_close, perform] at h
  obtain ⟨held, may, rfl⟩ := (performClose_eq_done_iff i.nodup_keys hk hd).1 h
  refine ⟨_, rfl, ?_, held, may, rfl⟩
  exact ((Store.Within.putLamports s hk _).trans (Store.Within.putLamports _ hd _)).trans
    (Store.Within.insert _ hk (Store.key_read _ _) rfl rfl)

theorem turns_mintTo :
    Turns native calls (mintTo mint holding authority amount) s
      (Mints s mint holding authority amount) := by
  refine .of_done fun after h => ?_
  let i := mintTo mint holding authority amount
  have hm : mint ∈ i.keys := Instruction.mem_keys (m := ⟨mint, false, true⟩) (by simp [i, mintTo])
  have hh : holding ∈ i.keys :=
    Instruction.mem_keys (m := ⟨holding, false, true⟩) (by simp [i, mintTo])
  simp only [replyOf, native, read?_mintTo, perform, Reply.ofChanged_eq_done_iff] at h
  obtain ⟨m, taker, may, rfl⟩ := (performMint_eq_ok_iff i.nodup_keys hm hh).1 h
  exact ⟨_, rfl, (Store.Within.putData s hm _).trans (Store.Within.putData _ hh _), m, taker, may, rfl⟩

theorem turns_burn :
    Turns native calls (burn holding mint authority amount) s
      (Burns s holding mint authority amount) := by
  refine .of_done fun after h => ?_
  let i := burn holding mint authority amount
  have hh : holding ∈ i.keys := Instruction.mem_keys (m := ⟨holding, false, true⟩) (by simp [i, burn])
  have hm : mint ∈ i.keys := Instruction.mem_keys (m := ⟨mint, false, true⟩) (by simp [i, burn])
  simp only [replyOf, native, read?_burn, perform, Reply.ofChanged_eq_done_iff] at h
  obtain ⟨giver, m, may, rfl⟩ := (performBurn_eq_ok_iff i.nodup_keys hh hm).1 h
  exact ⟨_, rfl, (Store.Within.putData s hh _).trans (Store.Within.putData _ hm _), giver, m, may, rfl⟩

theorem turns_openHolding :
    Turns native calls (openHolding holding mint owner) s fun s' =>
      (∃ m, Mint.unpack (s.read mint).data = .ok m) ∧ (s.read holding).owner = program ∧
        (∀ h, Holding.unpack (s.read holding).data ≠ .ok h) ∧
        Holding.size ≤ (s.read holding).data.length ∧
        s' = s.putData holding ((Holding.opened mint owner 0 (s.read holding).data).pack ++
          (s.read holding).data.drop Holding.size) := by
  refine .of_done fun after h => ?_
  let i := openHolding holding mint owner
  have hh : holding ∈ i.keys :=
    Instruction.mem_keys (m := ⟨holding, false, true⟩) (by simp [i, openHolding])
  have hm : mint ∈ i.keys :=
    Instruction.mem_keys (m := ⟨mint, false, false⟩) (by simp [i, openHolding])
  simp only [replyOf, native, read?_openHolding, perform] at h
  obtain ⟨hmint, howner, hunopened, hlength, rfl⟩ := (performOpen_eq_done_iff i.nodup_keys hh hm).1 h
  exact ⟨_, rfl, Store.Within.putData s hh _, hmint, howner, hunopened, hlength, rfl⟩

theorem turns_setAuthority :
    Turns native calls (setAuthority source authority kind successor) s
      (HandsOver s source authority kind successor) := by
  refine .of_done fun after h => ?_
  let i := setAuthority source authority kind successor
  have hs : source ∈ i.keys :=
    Instruction.mem_keys (m := ⟨source, false, true⟩) (by simp [i, setAuthority])
  simp only [replyOf, native, read?_setAuthority, perform, Reply.ofChanged_eq_done_iff] at h
  obtain ⟨data, handed, rfl⟩ := (performSetAuthority_eq_ok_iff i.nodup_keys hs).1 h
  exact ⟨_, rfl, Store.Within.putData s hs _, data, handed, rfl⟩

namespace Associated

variable {payer wallet : Key} {idempotent : Bool}

theorem readOrder_create {signers : List Key} {o : Order}
    (h : readOrder (create payer holding wallet mint idempotent) signers = .ok o) :
    o.payer = payer ∧ o.holding = holding ∧ o.wallet = wallet ∧ o.mint = mint := by
  have hk : (create payer holding wallet mint idempotent).keyAt 0 = .ok payer ∧
      (create payer holding wallet mint idempotent).keyAt 1 = .ok holding ∧
      (create payer holding wallet mint idempotent).keyAt 2 = .ok wallet ∧
      (create payer holding wallet mint idempotent).keyAt 3 = .ok mint := ⟨rfl, rfl, rfl, rfl⟩
  simp only [readOrder, hk, bind_eq_ok_iff, exists_unit, Except.ok.injEq, exists_eq_left',
    pure_eq_ok_iff] at h
  obtain ⟨_, _, _, rfl⟩ := h
  exact ⟨rfl, rfl, rfl, rfl⟩

theorem fulfil_eq_ok {keys : List Key} (distinct : keys.Nodup) {o : Order} {rent : Amount}
    {after : Slots keys.length} (h : fulfil o (s.slots keys) rent = .ok after) :
    (after = s.slots keys ∧ isOpen (s.read o.holding) o.wallet o.mint = true) ∨
      o.payer ∈ keys ∧ (s.read o.holding).isVacant = true ∧ rent ≤ (s.read o.payer).lamports ∧
        after = ((s.putLamports o.payer ((s.read o.payer).lamports - rent)).insert
          (openedAt ((s.putLamports o.payer ((s.read o.payer).lamports - rent)).read o.holding)
            o.wallet o.mint rent)).slots keys := by
  simp only [fulfil, bind_eq_ok_iff, Store.position_slots_iff distinct, Store.get_slots] at h
  obtain ⟨p, hp, q, hq, m, hm, _, _, h⟩ := h
  by_cases hvacant : (s.read (keys.get q)).isVacant = true
  · rw [hvacant, if_neg (by decide)] at h
    cases hrest : (s.read (keys.get p)).lamports.debit? rent with
    | none => rw [hrest] at h; cases h
    | some rest =>
      rw [hrest] at h
      obtain ⟨hle, rfl⟩ := debited_eq_ok_iff.1
        (show debited (s.read (keys.get p)).lamports rent = .ok rest by rw [debited, hrest])
      simp only [Store.putLamports_slots distinct, Store.get_slots, pure_eq_ok_iff] at h
      rw [← hp, ← hq]
      refine .inr ⟨List.get_mem _ _, hvacant, UInt64.le_iff_toNat_le.2 hle, h.symm.trans ?_⟩
      exact Store.put_slots distinct (Store.key_read _ _)
  · rw [Bool.not_eq_true] at hvacant
    rw [hvacant, if_pos (by decide)] at h
    by_cases hopen : (o.idempotent && isOpen (s.read (keys.get q)) o.wallet o.mint) = true
    · rw [if_pos hopen, pure_eq_ok_iff] at h
      exact .inl ⟨h.symm, hq ▸ (Bool.and_eq_true_iff.1 hopen).2⟩
    · rw [if_neg hopen] at h
      cases h

/-- the store has a holding set apart: the wallet had it open, or it is made at a vacant account -/
def Opened (s : Store) (payer holding wallet mint : Key) (s' : Store) : Prop :=
  (s' = s ∧ isOpen (s.read holding) wallet mint = true) ∨
    (s.read holding).isVacant = true ∧ ∃ rent, rent ≤ (s.read payer).lamports ∧
      s' = (s.putLamports payer ((s.read payer).lamports - rent)).insert
        (openedAt ((s.putLamports payer ((s.read payer).lamports - rent)).read holding) wallet mint
          rent)

theorem turns_create :
    Turns native calls (create payer holding wallet mint idempotent) s
      (Opened s payer holding wallet mint) := by
  refine .of_done fun after h => ?_
  let i := create payer holding wallet mint idempotent
  have hp : payer ∈ i.keys := Instruction.mem_keys (m := ⟨payer, true, true⟩) (by simp [i, create])
  have hh : holding ∈ i.keys :=
    Instruction.mem_keys (m := ⟨holding, false, true⟩) (by simp [i, create])
  obtain ⟨o, ho, h⟩ := Reply.afterChecks_eq_done_iff.1 h
  obtain ⟨rfl, rfl, rfl, rfl⟩ := readOrder_create ho
  split at h
  · cases h
  · cases h
  · split at h
    · cases h
    · rcases fulfil_eq_ok i.nodup_keys (Reply.ofChanged_eq_done_iff.1 h) with
        ⟨rfl, hopen⟩ | ⟨_, hvacant, hle, rfl⟩
      · exact ⟨s, rfl, .refl _ _, .inl ⟨rfl, hopen⟩⟩
      · refine ⟨_, rfl, ?_, .inr ⟨hvacant, _, hle, rfl⟩⟩
        exact (Store.Within.putLamports s hp _).trans
          (Store.Within.insert _ hh (Store.key_read _ _) rfl rfl)

end Associated

end Token
end AccountLedger
