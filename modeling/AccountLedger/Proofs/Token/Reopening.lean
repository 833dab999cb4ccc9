import AccountLedger.Proofs.Performed
import Mathlib.Logic.Relation
/-!
# A holding that is opened again

The holding that is set apart for a wallet is opened once.  After that an order for it is accepted if
it asks for no more than that the holding is there, and else refused.  Whether it is there is read back
from what the account stores, which is written anew with every transfer.

* `Recounts`: tokens are transferred, minted or burnt;
* `Recounted.isMint`, `isOpen_of_recounted`: what an account is does not depend on amounts;
* `Filled`: an order finds what it needs, and the holding that it is for; `filled_of_fulfil`: so it is
  once it was fulfilled, and `Filled.of_follows`: so it stays;
* `Filled.fulfil_eq`: what then becomes of the order;
* `reopened`: these together.
-/

namespace AccountLedger.Token

variable {n : Nat} {accounts after : Slots n} {a b : Account} {wallet mint : Key}

/-! ## tokens that are counted anew -/

/-- The token program carries out a transfer, a mint or a burn. -/
inductive Recounts (accounts after : Slots n) : Prop
  | transferred {calls : List Request} {i : Instruction} {signers : List Key} {amount : Amount}
      (asked : Command.read? i.data = some (.transfer amount))
      (done : native calls i accounts signers = .done after)
  | minted {calls : List Request} {i : Instruction} {signers : List Key} {amount : Amount}
      (asked : Command.read? i.data = some (.mintTo amount))
      (done : native calls i accounts signers = .done after)
  | burnt {calls : List Request} {i : Instruction} {signers : List Key} {amount : Amount}
      (asked : Command.read? i.data = some (.burn amount))
      (done : native calls i accounts signers = .done after)

theorem Recounts.recounted (h : Recounts accounts after) (r : Fin n) :
    Recounted (accounts.get r) (after.get r) := by
  cases h with
  | transferred asked done =>
    rw [native_of_asked asked] at done
    exact recounted_of_performTransfer (Reply.ofChanged_eq_done_iff.1 done)
  | minted asked done =>
    rw [native_of_asked asked] at done
    exact recounted_of_performMint (Reply.ofChanged_eq_done_iff.1 done)
  | burnt asked done =>
    rw [native_of_asked asked] at done
    exact recounted_of_performBurn (Reply.ofChanged_eq_done_iff.1 done)

namespace Recounted

theorem key (h : Recounted a b) : b.key = a.key := by
  cases h <;> rfl

/-- A mint stays one. -/
theorem isMint (h : Recounted a b) {m : Mint} (here : Mint.unpack a.data = .ok m) :
    ∃ m', Mint.unpack b.data = .ok m' := by
  cases h with
  | same => exact ⟨m, here⟩
  | holding there => exact absurd there (not_holding_of_mint here _)
  | @mint m' there supply =>
    exact ⟨{ m' with supply }, Mint.unpack_eq_ok_iff.2 ⟨rfl, (Mint.unpack_eq_ok_iff.1 there).2⟩⟩

end Recounted

/-! ## a holding that is there -/

namespace Associated

theorem isOpen_iff : isOpen a wallet mint = true ↔
    a.owner = Token.program ∧
      ∃ h, Holding.unpack a.data = .ok h ∧ h.owner = wallet ∧ h.mint = mint := by
  rw [isOpen, Bool.and_eq_true, decide_eq_true_eq]
  refine and_congr_right fun _ => ?_
  cases Holding.unpack a.data with
  | error e => simp
  | ok h => simp

theorem not_vacant_of_isOpen (h : isOpen a wallet mint = true) : a.isVacant = false := by
  obtain ⟨_, held, here, _⟩ := isOpen_iff.1 h
  rw [← Bool.not_eq_true]
  exact fun vacant => not_holding_of_vacant vacant held here

/-- A holding stays one, of its owner and its mint. -/
theorem isOpen_of_recounted (h : Recounted a b) (hopen : isOpen a wallet mint = true) :
    isOpen b wallet mint = true := by
  obtain ⟨owned, held, here, howner, hmint⟩ := isOpen_iff.1 hopen
  cases h with
  | same => exact hopen
  | @holding held' there amount =>
    cases here.symm.trans there
    exact isOpen_iff.2 ⟨owned, { held with amount },
      unpack_pack _ (Holding.unpack_eq_ok_iff.1 here).2, howner, hmint⟩
  | mint there => exact absurd here (not_holding_of_mint there _)

theorem isOpen_openedAt (a : Account) (wallet mint : Key) (rent : Amount) :
    isOpen (openedAt a wallet mint rent) wallet mint = true :=
  isOpen_iff.2 ⟨rfl, Holding.opened mint wallet 0 [], unpack_pack _ nofun, rfl, rfl⟩

/-! ## orders that find their holding -/

variable {o : Order} {rent : Amount}

/-- The payer and the mint of the order are there, and the holding is one already. -/
structure Filled (o : Order) (accounts : Slots n) : Prop where
  payer : ∃ p, accounts.position o.payer = .ok p
  mint : ∃ p m, accounts.position o.mint = .ok p ∧ Mint.unpack (accounts.get p).data = .ok m
  holding : ∃ p, accounts.position o.holding = .ok p ∧
    isOpen (accounts.get p) o.wallet o.mint = true

namespace Filled

theorem of_recounted (h : Filled o accounts) (each : ∀ r, Recounted (accounts.get r) (after.get r)) :
    Filled o after := by
  obtain ⟨⟨p, hp⟩, ⟨q, m, hq, hm⟩, r, hr, hopen⟩ := h
  have keys : ∀ r, (after.get r).key = (accounts.get r).key := fun r => (each r).key
  obtain ⟨m', hm'⟩ := (each q).isMint hm
  exact ⟨⟨p, Slots.position_of_keys keys hp⟩, ⟨q, m', Slots.position_of_keys keys hq, hm'⟩, r,
    Slots.position_of_keys keys hr, isOpen_of_recounted (each r) hopen⟩

theorem of_follows (h : Filled o accounts) (since : Relation.ReflTransGen Recounts accounts after) :
    Filled o after := by
  induction since with
  | refl => exact h
  | tail _ step ih => exact ih.of_recounted step.recounted

theorem fulfil_eq (h : Filled o accounts) (rent : Amount) :
    fulfil o accounts rent = if o.idempotent then .ok accounts else .error .alreadyInitialized := by
  obtain ⟨⟨p, hp⟩, ⟨q, m, hq, hm⟩, r, hr, hopen⟩ := h
  simp only [fulfil, hp, hq, hr, hm, hopen, not_vacant_of_isOpen hopen, bind, Except.bind,
    Bool.not_false, Bool.and_true, ↓reduceIte]
  split
  · rfl
  · rfl

end Filled

/-- Who pays for a holding has another balance. -/
theorem get_paid (accounts : Slots n) (p : Fin n) (rest : Amount) (r : Fin n) :
    (accounts.put p { accounts.get p with lamports := rest }).get r =
      { accounts.get r with
        lamports := ((accounts.put p { accounts.get p with lamports := rest }).get r).lamports } := by
  rw [Slots.get_put]
  split
  · rename_i hr
    rw [hr]
  · rfl

/-- A holding is made where nothing was, so not where the mint is. -/
theorem filled_of_fulfil (h : fulfil o accounts rent = .ok after) : Filled o after := by
  simp only [fulfil, bind_eq_ok_iff] at h
  obtain ⟨p, hp, q, hq, r, hr, m, hm, h⟩ := h
  split at h
  · split at h
    · rename_i hopen
      cases pure_eq_ok_iff.1 h
      exact ⟨⟨p, hp⟩, ⟨r, m, hr, hm⟩, q, hq, (Bool.and_eq_true_iff.1 hopen).2⟩
    · cases h
  · rename_i hvacant
    rw [Bool.not_eq_true', Bool.not_eq_false] at hvacant
    have hne : q ≠ r := by
      rintro rfl
      have hlength := congrArg List.length (Mint.unpack_eq_ok_iff.1 hm).1
      rw [(Account.isVacant_iff.1 hvacant).2.1, Mint.length_pack] at hlength
      cases hlength
    split at h
    · cases h
    · rename_i rest _
      cases pure_eq_ok_iff.1 h
      have keys : ∀ s, (((accounts.put p { accounts.get p with lamports := rest }).put q
          (openedAt ((accounts.put p { accounts.get p with lamports := rest }).get q) o.wallet o.mint
            rent)).get s).key = (accounts.get s).key := by
        intro s
        rw [Slots.get_put]
        split
        · rename_i hs
          rw [← hs, openedAt, get_paid]
        · rw [get_paid]
      refine ⟨⟨p, Slots.position_of_keys keys hp⟩, ⟨r, m, Slots.position_of_keys keys hr, ?_⟩, q,
        Slots.position_of_keys keys hq, ?_⟩
      · rw [Slots.get_put, if_neg hne, get_paid]
        exact hm
      · rw [Slots.get_put, if_pos rfl]
        exact isOpen_openedAt _ _ _ _

/-! ## the program -/

variable {i j : Instruction} {now later : Slots n} {signers signers' : List Key}
  {calls calls' : List Request}

theorem readOrder_eq_ok_iff : readOrder i signers = .ok o ↔
    idempotent? i.data = .ok o.idempotent ∧ (i.keyAt 0 = .ok o.payer ∧ i.keyAt 1 = .ok o.holding ∧
      i.keyAt 2 = .ok o.wallet ∧ i.keyAt 3 = .ok o.mint) ∧ o.payer ∈ signers := by
  simp only [readOrder, bind_eq_ok_iff, exists_unit, requireSigner_eq_ok_iff, pure_eq_ok_iff]
  refine ⟨?_, ?_⟩
  · rintro ⟨idempotent, hdata, payer, h0, holding, h1, wallet, h2, mint, h3, signed, rfl⟩
    exact ⟨hdata, ⟨h0, h1, h2, h3⟩, signed⟩
  · rintro ⟨hdata, ⟨h0, h1, h2, h3⟩, signed⟩
    exact ⟨_, hdata, _, h0, _, h1, _, h2, _, h3, signed, rfl⟩

/-- An order is fulfilled at the address that is set apart. -/
theorem native_eq (read : readOrder i signers = .ok o) (apart : address o.wallet o.mint = .ok o.holding)
    (priced : Rent.minimum Holding.size = .ok rent) :
    native calls i accounts signers = .ofChanged accounts (fulfil o accounts rent) := by
  rw [native, read, Reply.afterChecks_of_ok rfl, apart, priced]
  exact if_neg fun h => h rfl

theorem native_eq_done (h : native calls i accounts signers = .done after) :
    ∃ o rent, readOrder i signers = .ok o ∧ address o.wallet o.mint = .ok o.holding ∧
      Rent.minimum Holding.size = .ok rent ∧ fulfil o accounts rent = .ok after := by
  obtain ⟨o, read, h⟩ := Reply.afterChecks_eq_done_iff.1 h
  split at h
  · cases h
  · cases h
  · rename_i expected rent apart priced
    split at h
    · cases h
    · rename_i hplace
      rw [← Decidable.not_not.1 hplace] at apart
      exact ⟨o, rent, read, apart, priced, Reply.ofChanged_eq_done_iff.1 h⟩

/-- Once the holding of a wallet was opened or accepted, and whatever was transferred, minted and burnt
since, another order for it is accepted if it asks for no more, and else refused; either way it
changes nothing. -/
theorem reopened (created : native calls i accounts signers = .done now)
    (since : Relation.ReflTransGen Recounts now later)
    (same : ∀ place < 4, j.keyAt place = i.keyAt place)
    (signed : ∃ payer ∈ signers', j.keyAt 0 = .ok payer) :
    (idempotent? j.data = .ok true → native calls' j later signers' = .done later) ∧
      (idempotent? j.data = .ok false →
        native calls' j later signers' = .refuse .alreadyInitialized later) := by
  obtain ⟨o, rent, read, apart, priced, made⟩ := native_eq_done created
  obtain ⟨_, ⟨h0, h1, h2, h3⟩, _⟩ := readOrder_eq_ok_iff.1 read
  obtain ⟨payer, speaks, named⟩ := signed
  have hpayer : o.payer = payer := Except.ok.inj (h0.symm.trans ((same 0 (by decide)).symm.trans named))
  have again : ∀ idempotent, idempotent? j.data = .ok idempotent → native calls' j later signers' =
      .ofChanged later (if idempotent then .ok later else .error .alreadyInitialized) := by
    intro idempotent hdata
    have filled := (filled_of_fulfil made).of_follows since
    have filled' : Filled { o with idempotent } later := ⟨filled.payer, filled.mint, filled.holding⟩
    have read' : readOrder j signers' = .ok { o with idempotent } := by
      refine readOrder_eq_ok_iff.2 ⟨hdata, ⟨?_, ?_, ?_, ?_⟩, hpayer ▸ speaks⟩
      · rw [same 0 (by decide), h0]
      · rw [same 1 (by decide), h1]
      · rw [same 2 (by decide), h2]
      · rw [same 3 (by decide), h3]
    rw [native_eq read' apart priced, filled'.fulfil_eq]
  exact ⟨again true, again false⟩

/-! ## a wallet that opens its holding twice -/

/-- the address that is set apart for the wallet 2 and the mint 14 -/
def purse : Key := .ofNat 0x581c1b9611d196cccbe9afe2b728f675b89e310a57cf78dcf9d4bef66a447a3d

/-- a wallet that may mint, the address of its holding, the mint, and another holding -/
def bench : Slots 4 :=
  #v[{ key := .ofNat 2, lamports := 10000000 }, .vacant purse,
    { key := .ofNat 14
      owner := Token.program
      data := Mint.pack ⟨⟨true, .ofNat 2⟩, 0, 0, true, ⟨false, .ofNat 0⟩⟩ },
    { key := .ofNat 15
      owner := Token.program
      data := (Holding.opened (.ofNat 14) (.ofNat 2) 0 []).pack }]

def order (idempotent : Bool) : Instruction :=
  create (.ofNat 2) purse (.ofNat 2) (.ofNat 14) idempotent

/-- the holding is opened, and paid for -/
def benchOpened : Slots 4 :=
  (bench.put 0 { bench.get 0 with lamports := 7960720 }).put 1
    (openedAt (.vacant purse) (.ofNat 2) (.ofNat 14) 2039280)

/-- what the wallet has the token program do -/
def told (i : Instruction) (accounts : Slots 4) : Slots 4 :=
  (Token.native [] i accounts [.ofNat 2]).accounts

/-- nine tokens are minted to the holding -/
def benchMinted : Slots 4 := told (mintTo (.ofNat 14) purse (.ofNat 2) 9) benchOpened

/-- five of them have gone to the other one -/
def benchPaid : Slots 4 := told (transfer purse (.ofNat 15) (.ofNat 2) 5) benchMinted

/-- three more are burnt -/
def benchBurnt : Slots 4 := told (burn purse (.ofNat 14) (.ofNat 2) 3) benchPaid

theorem bench_reopened :
    native [] (order true) bench [.ofNat 2] = .done benchOpened ∧
      Relation.ReflTransGen Recounts benchOpened benchBurnt ∧
      native [] (order true) benchBurnt [.ofNat 2] = .done benchBurnt ∧
      native [] (order false) benchBurnt [.ofNat 2] = .refuse .alreadyInitialized benchBurnt := by
  have run : (native [] (order true) bench [.ofNat 2]).result.isOk = true ∧
      (native [] (order true) bench [.ofNat 2]).accounts = benchOpened := by
    decide +kernel
  have created : native [] (order true) bench [.ofNat 2] = .done benchOpened :=
    (Reply.result_eq_ok_iff.1 (Reply.result_of_isOk run.1)).trans (congrArg Reply.done run.2)
  have minted : Recounts benchOpened benchMinted :=
    .minted read?_mintTo (Reply.result_eq_ok_iff.1 (Reply.result_of_isOk (by decide +kernel)))
  have paid : Recounts benchMinted benchPaid :=
    .transferred read?_transfer (Reply.result_eq_ok_iff.1 (Reply.result_of_isOk (by decide +kernel)))
  have burnt : Recounts benchPaid benchBurnt :=
    .burnt read?_burn (Reply.result_eq_ok_iff.1 (Reply.result_of_isOk (by decide +kernel)))
  have since : Relation.ReflTransGen Recounts benchOpened benchBurnt :=
    ((Relation.ReflTransGen.single minted).tail paid).tail burnt
  have signed : ∀ idempotent, ∃ payer ∈ [Key.ofNat 2], (order idempotent).keyAt 0 = .ok payer :=
    fun _ => ⟨.ofNat 2, List.mem_singleton_self _, rfl⟩
  have same : ∀ idempotent, ∀ place < 4, (order idempotent).keyAt place = (order true).keyAt place :=
    fun _ _ _ => rfl
  exact ⟨created, since, (reopened created since (same true) (signed true)).1 rfl,
    (reopened created since (same false) (signed false)).2 rfl⟩

end Associated

end AccountLedger.Token
