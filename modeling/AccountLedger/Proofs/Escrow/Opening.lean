import AccountLedger.Proofs.Committed
import AccountLedger.Escrow.Program
import AccountLedger.Token.Fixture
/-!
# What the opening of an escrow does

An opening that commits makes the record and the vault, both at vacant accounts and both paid for by
the initializer, and moves the deposit to the vault.

* `Opens`: what it needs of the store and what it leaves there, account by account;
* `steps_of_returns`: business logic that returns has found what an opening needs, and done it.
-/

namespace AccountLedger.Escrow

open Logic (Returns)
open Token (Holding MayTransfer)

/-- the vault of the canonical bump -/
def vault : Key := .ofNat 0x357536156f6d6dace72abd09381c7ad29c8c757fce20a966bd659e9a97d601f4

/-- the authority of the canonical bump -/
def authority : Key := .ofNat 0x41ee5d123c5f65fdacf13799a8ad4611aad39d26311685faab412dac7beeb035

theorem find_vault : (Address.find key [vaultSeed]).toOption = some (vault, 254) := by
  decide +kernel

theorem find_authority : (Address.find key [authoritySeed]).toOption = some (authority, 255) := by
  decide +kernel

variable {l : Ledger} {i : Instruction} {f : Frame} {first scene last : Scene Ledger} {o : Opening}
  {u : Unit} {now : Store}

/-- the accounts of an opening -/
structure Parties where
  initializer : Key
  mint : Key
  vault : Key
  deposit : Key
  receive : Key
  record : Key

/-- the accounts that an instruction gives for an opening -/
structure Parties.Of (p : Parties) (i : Instruction) : Prop where
  initializer : openLayout.keyOf? i "initializer" = some p.initializer
  mint : openLayout.keyOf? i "mint" = some p.mint
  vault : openLayout.keyOf? i "vault" = some p.vault
  deposit : openLayout.keyOf? i "initializer_deposit" = some p.deposit
  receive : openLayout.keyOf? i "initializer_receive" = some p.receive
  record : openLayout.keyOf? i "escrow" = some p.record

/-- the terms that an opening puts on record -/
def Parties.terms (p : Parties) (o : Opening) : Terms where
  initializer := p.initializer
  deposit := p.deposit
  receive := p.receive
  offered := o.offered
  asked := o.asked

def Terms.image (t : Terms) : Bytes :=
  (Record.tag Terms).image (Record.codec.write t) (Record.space Terms)

theorem Terms.length_write (t : Terms) : (Record.codec.write t).length = 112 := by
  simp [Record.codec, Codec.iso, Codec.pair, Codec.key, Codec.amount, Codec.fixed, Key.length_bytes]

theorem Terms.length_image (t : Terms) : t.image.length = Record.space Terms :=
  Tag.length_image (by rw [length_write]; decide)

theorem deposit_of_returns (seated : first.table.Seated openLayout i.metas)
    (shown : first.table.Shows l.store) {initializer mint : Key}
    (h : Returns Ledger.host f first (checkDeposit o initializer mint) u last) :
    last = first ∧ ∃ deposit held, openLayout.keyOf? i "initializer_deposit" = some deposit ∧
      (l.store.read deposit).owner = Token.program ∧
      Holding.unpack (l.store.read deposit).data = .ok held ∧ held.mint = mint ∧
      held.owner = initializer ∧ o.offered ≤ held.amount := by
  simp only [checkDeposit, Logic.returns_bind_iff, Logic.returns_require_iff,
    seated.returns_holdingOf_iff shown, seated.returns_mintOf_iff shown, Logic.returns_requireEq_iff,
    Logic.returns_pure_iff, and_assoc, exists_and_left, exists_eq_left, decide_eq_true_eq] at h
  obtain ⟨_, _, held, ⟨deposit, hkey, howner, hheld⟩, hmint, hinitializer, hle, _, _, _, _, _, h,
    _⟩ := h
  exact ⟨h, deposit, held, hkey, howner, hheld, hmint, hinitializer, hle⟩

theorem terms_of_returns (drafts : first.Drafts l openLayout i l.store)
    (shown : first.table.Shows l.store) (clean : first.table.Clean) {initializer : Key}
    (h : Returns Ledger.host f first (recordTerms o initializer) u last) :
    ∃ a b deposit receive rent, openLayout.keyOf? i "initializer" = some a ∧
      openLayout.keyOf? i "escrow" = some b ∧
      openLayout.keyOf? i "initializer_deposit" = some deposit ∧
      openLayout.keyOf? i "initializer_receive" = some receive ∧
      Rent.minimum (Record.space Terms) = .ok rent ∧ (l.store.read b).isVacant = true ∧
      rent ≤ (l.store.read a).lamports ∧ a ≠ b ∧ last.Drafts l openLayout i
        ((l.store.made a b rent (Record.space Terms) key).putData b
          (Terms.image ⟨initializer, deposit, receive, o.offered, o.asked⟩)) := by
  rw [recordTerms, Logic.returns_bind_iff] at h
  obtain ⟨_, mid, hmake, h⟩ := h
  obtain ⟨a, b, rent, position, ha, hb, hp, hkey, hrent, hvacant, hfunds, hne, drafts, sole⟩ :=
    drafts.made shown clean (by decide) hmake
  simp only [Logic.returns_bind_iff, drafts.seated.returns_keyOf_iff, and_assoc,
    exists_eq_left] at h
  obtain ⟨deposit, hdeposit, receive, hreceive, hsave⟩ := h
  exact ⟨a, b, deposit, receive, rent, ha, hb, hdeposit, hreceive, hrent, hvacant, hfunds, hne,
    drafts.filled hp hkey sole hsave⟩

theorem vault_of_returns (drafts : first.Drafts l openLayout i now) (frame : f.program = key)
    (tokens : l.natives Token.program = some Token.native)
    (h : Returns Ledger.host f first (fillVault o) u last) :
    ∃ a v mint deposit rent giver taker, openLayout.keyOf? i "initializer" = some a ∧
      openLayout.keyOf? i "vault" = some v ∧ openLayout.keyOf? i "mint" = some mint ∧
      openLayout.keyOf? i "initializer_deposit" = some deposit ∧
      Rent.minimum Holding.size = .ok rent ∧ (now.read v).isVacant = true ∧
      rent ≤ (now.read a).lamports ∧ a ≠ v ∧ i.Signed a ∧
      MayTransfer (Token.opened now a v mint authority rent) deposit v a [a] o.offered giver taker ∧
      last.Drafts l openLayout i
        (Token.transferred (Token.opened now a v mint authority rent) deposit v o.offered giver
          taker) := by
  simp only [fillVault, Logic.returns_bind_iff, Logic.returns_found_iff (frame ▸ find_authority),
    Logic.returns_positionOf_iff, drafts.seated.positionOf_eq_ok_iff, and_assoc,
    exists_eq_left] at h
  obtain ⟨p, hp, q, hq, r, hr, _, mid, hopen, d, hd, h⟩ := h
  obtain ⟨a, v, mint, rent, ha, hv, hmint, hrent, hvacant, hfunds, hne, drafts⟩ :=
    drafts.opened tokens hopen
  rw [drafts.seated.positionOf_eq_ok_iff] at hd
  obtain ⟨deposit, v', a', hdeposit, hv', ha', voices, _, ⟨giver, taker, may, rfl⟩, drafts⟩ :=
    drafts.transferred tokens h
  cases hv.symm.trans hv'
  cases ha.symm.trans ha'
  exact ⟨a, v, mint, deposit, rent, giver, taker, (Layout.keyOf?_eq hp i).trans ha,
    (Layout.keyOf?_eq hq i).trans hv, (Layout.keyOf?_eq hr i).trans hmint,
    (Layout.keyOf?_eq hd i).trans hdeposit, hrent, hvacant, hfunds, hne,
    Instruction.signed_of_voices voices, may, drafts⟩

/-- the holding that is a vault with a deposit -/
def filled (mint : Key) (amount : Amount) : Holding :=
  Holding.opened mint authority amount (List.replicate Holding.size 0)

/-- what an opening needs of a store, and the store that it leaves -/
structure Opens (o : Opening) (p : Parties) (held : Holding) (rent vaultRent : Amount)
    (s s' : Store) : Prop where
  rent_eq : Rent.minimum (Record.space Terms) = .ok rent
  vaultRent_eq : Rent.minimum Holding.size = .ok vaultRent
  record_vacant : (s.read p.record).isVacant = true
  vault_vacant : (s.read p.vault).isVacant = true
  held_at : Holding.unpack (s.read p.deposit).data = .ok held
  held_owner : held.owner = p.initializer
  held_mint : held.mint = p.mint
  covered : o.offered ≤ held.amount
  funds : rent.toNat + vaultRent.toNat ≤ (s.read p.initializer).lamports.toNat
  record_ne_vault : p.record ≠ p.vault
  initializer_ne_record : p.initializer ≠ p.record
  initializer_ne_vault : p.initializer ≠ p.vault
  deposit_ne_record : p.deposit ≠ p.record
  deposit_ne_vault : p.deposit ≠ p.vault
  record_at : s'.read p.record = { s.read p.record with
    lamports := rent, data := (p.terms o).image, owner := key }
  vault_at : s'.read p.vault = { s.read p.vault with
    lamports := vaultRent, data := (filled p.mint o.offered).pack, owner := Token.program }
  elsewhere : ∀ k, k ≠ p.record → k ≠ p.vault → s'.read k = { s.read k with
    lamports := if k = p.initializer then (s.read k).lamports - rent - vaultRent
      else (s.read k).lamports
    data := if k = p.deposit then { held with amount := held.amount - o.offered }.pack
      else (s.read k).data }

/-! ## the stores on the way -/

section

variable {s : Store} {p : Parties} {held giver taker : Holding} {rent vaultRent : Amount}

/-- the store after the record was made -/
def Parties.recorded (p : Parties) (o : Opening) (rent : Amount) (s : Store) : Store :=
  (s.made p.initializer p.record rent (Record.space Terms) key).putData p.record (p.terms o).image

/-- the store after the vault was made -/
def Parties.opened (p : Parties) (o : Opening) (rent vaultRent : Amount) (s : Store) : Store :=
  Token.opened (p.recorded o rent s) p.initializer p.vault p.mint authority vaultRent

theorem read_recorded (s : Store) (k : Key) : (p.recorded o rent s).read k =
    if p.record = k then
      { s.read p.record with lamports := rent, data := (p.terms o).image, owner := key }
    else if p.initializer = k then
      { s.read p.initializer with lamports := (s.read p.initializer).lamports - rent }
    else s.read k :=
  Store.read_filled s p.initializer p.record rent (Record.space Terms) key (p.terms o).image k

theorem record_ne_vault_of_vacant (vacant : ((p.recorded o rent s).read p.vault).isVacant = true) :
    p.record ≠ p.vault := by
  intro h
  rw [← h, read_recorded, if_pos rfl] at vacant
  have howner : key = .system := (Account.isVacant_iff.1 vacant).2.2
  exact absurd howner (by decide)

theorem read_opened_elsewhere (initializer_ne_record : p.initializer ≠ p.record) {k : Key}
    (hr : k ≠ p.record) (hv : k ≠ p.vault) :
    (p.opened o rent vaultRent s).read k = { s.read k with
      lamports := if k = p.initializer then (s.read k).lamports - rent - vaultRent
        else (s.read k).lamports } := by
  rw [Parties.opened, Token.read_opened, if_neg (Ne.symm hv), read_recorded, read_recorded,
    if_neg (Ne.symm initializer_ne_record), if_pos rfl, if_neg (Ne.symm hr)]
  by_cases hk : k = p.initializer
  · simp only [hk, ↓reduceIte, Store.key_read]
  · simp only [if_neg hk, if_neg (Ne.symm hk)]

/-- What is moved comes out of the deposit and goes to an empty vault. -/
theorem holdings_of_filling (initializer_ne_record : p.initializer ≠ p.record)
    (deposit_ne_record : p.deposit ≠ p.record) (deposit_ne_vault : p.deposit ≠ p.vault)
    (held_at : Holding.unpack (s.read p.deposit).data = .ok held)
    (may : MayTransfer (p.opened o rent vaultRent s) p.deposit p.vault p.initializer
      [p.initializer] o.offered giver taker) : giver = held ∧ taker = filled p.mint 0 := by
  refine ⟨?_, ?_⟩
  · have hgiver := may.giver_at
    rw [read_opened_elsewhere initializer_ne_record deposit_ne_record deposit_ne_vault] at hgiver
    exact Except.ok.inj (hgiver.symm.trans held_at)
  · have htaker := may.taker_at
    rw [Parties.opened, Token.read_opened, if_pos rfl] at htaker
    have hfilled := Token.unpack_pack (filled p.mint 0) (by simp [filled, Holding.opened])
    exact Except.ok.inj (htaker.symm.trans hfilled)

/-- what an opening finds on the way: the deposit and the funds, a record that is vacant, then a vault
that is, and in the end a deposit that may be moved there -/
structure Steps (o : Opening) (p : Parties) (held giver taker : Holding) (rent vaultRent : Amount)
    (s : Store) : Prop where
  rent_eq : Rent.minimum (Record.space Terms) = .ok rent
  vaultRent_eq : Rent.minimum Holding.size = .ok vaultRent
  record_vacant : (s.read p.record).isVacant = true
  held_at : Holding.unpack (s.read p.deposit).data = .ok held
  held_owner : held.owner = p.initializer
  held_mint : held.mint = p.mint
  covered : o.offered ≤ held.amount
  funds : rent ≤ (s.read p.initializer).lamports
  initializer_ne_record : p.initializer ≠ p.record
  initializer_ne_vault : p.initializer ≠ p.vault
  vault_vacant : ((p.recorded o rent s).read p.vault).isVacant = true
  vaultFunds : vaultRent ≤ ((p.recorded o rent s).read p.initializer).lamports
  may : MayTransfer (p.opened o rent vaultRent s) p.deposit p.vault p.initializer [p.initializer]
    o.offered giver taker

theorem Steps.opens (steps : Steps o p held giver taker rent vaultRent s) :
    Opens o p held rent vaultRent s
      (Token.transferred (p.opened o rent vaultRent s) p.deposit p.vault o.offered giver taker) := by
  obtain ⟨rent_eq, vaultRent_eq, record_vacant, held_at, held_owner, held_mint, covered, funds,
    initializer_ne_record, initializer_ne_vault, vacant, vaultFunds, may⟩ := steps
  have record_ne_vault := record_ne_vault_of_vacant vacant
  have hvault : (p.recorded o rent s).read p.vault = s.read p.vault := by
    rw [read_recorded, if_neg record_ne_vault, if_neg initializer_ne_vault]
  rw [hvault] at vacant
  have deposit_ne_record : p.deposit ≠ p.record := by
    intro h
    rw [h] at held_at
    exact Token.not_holding_of_vacant record_vacant _ held_at
  have deposit_ne_vault : p.deposit ≠ p.vault := by
    intro h
    rw [h] at held_at
    exact Token.not_holding_of_vacant vacant _ held_at
  obtain ⟨rfl, rfl⟩ := holdings_of_filling initializer_ne_record deposit_ne_record
    deposit_ne_vault held_at may
  refine ⟨rent_eq, vaultRent_eq, record_vacant, vacant, held_at, held_owner, held_mint, covered, ?_,
    record_ne_vault, initializer_ne_record, initializer_ne_vault, deposit_ne_record,
    deposit_ne_vault, ?_, ?_, ?_⟩
  · rw [read_recorded, if_neg (Ne.symm initializer_ne_record), if_pos rfl] at vaultFunds
    dsimp only at vaultFunds
    have hsub := UInt64.toNat_sub_of_le _ _ funds
    have hle := UInt64.le_iff_toNat_le.1 vaultFunds
    have := UInt64.le_iff_toNat_le.1 funds
    omega
  · rw [Token.read_transferred, if_neg deposit_ne_vault, if_neg deposit_ne_record,
      if_neg (Ne.symm record_ne_vault), Parties.opened, Token.read_opened,
      if_neg (Ne.symm record_ne_vault), if_neg initializer_ne_record, read_recorded, if_pos rfl]
  · rw [Token.read_transferred, if_neg deposit_ne_vault, if_neg deposit_ne_vault, if_pos rfl]
    have hsum : (filled p.mint 0).amount + o.offered = o.offered := UInt64.zero_add _
    rw [hsum, Parties.opened, Token.read_opened, if_pos rfl, hvault]
    rfl
  · intro k hr hv
    rw [Token.read_transferred, if_neg deposit_ne_vault, if_neg (Ne.symm hv),
      read_opened_elsewhere initializer_ne_record hr hv,
      read_opened_elsewhere initializer_ne_record deposit_ne_record deposit_ne_vault]
    by_cases hk : k = p.deposit
    · simp only [hk, ↓reduceIte, Store.key_read]
    · simp only [if_neg hk, if_neg (Ne.symm hk)]

end

theorem steps_of_returns (drafts : first.Drafts l openLayout i l.store)
    (shown : first.table.Shows l.store) (clean : first.table.Clean) (frame : f.program = key)
    (tokens : l.natives Token.program = some Token.native)
    (h : Returns Ledger.host f first (openEscrow o) u last) :
    ∃ (p : Parties) (held giver taker : Holding) (rent vaultRent : Amount), p.Of i ∧
      i.Signed p.initializer ∧ Steps o p held giver taker rent vaultRent l.store ∧
        last.Drafts l openLayout i (Token.transferred (p.opened o rent vaultRent l.store) p.deposit
          p.vault o.offered giver taker) := by
  simp only [openEscrow, Logic.returns_bind_iff, Logic.returns_require_iff,
    drafts.seated.returns_keyOf_iff, and_assoc, exists_and_left, exists_eq_left] at h
  obtain ⟨_, _, a, ha, mint, hmint, _, mid, hcheck, _, mid', hrecord, hfill⟩ := h
  obtain ⟨rfl, deposit, held, hdeposit, _, held_at, held_mint, held_owner, covered⟩ :=
    deposit_of_returns drafts.seated shown hcheck
  obtain ⟨a', record, deposit', receive, rent, ha', hrec, hdeposit', hreceive, hrent, hvacant,
    hfunds, hne, drafts⟩ := terms_of_returns drafts shown clean hrecord
  cases ha.symm.trans ha'
  cases hdeposit.symm.trans hdeposit'
  obtain ⟨a', v, mint', deposit', vaultRent, giver, taker, ha', hv, hmint', hdeposit', hvaultRent,
    hvaultVacant, hvaultFunds, hvaultNe, signed, may, drafts⟩ :=
    vault_of_returns drafts frame tokens hfill
  cases ha.symm.trans ha'
  cases hmint.symm.trans hmint'
  cases hdeposit.symm.trans hdeposit'
  exact ⟨⟨a, mint, v, deposit, receive, record⟩, held, giver, taker, rent, vaultRent,
    ⟨ha, hmint, hv, hdeposit, hreceive, hrec⟩, signed,
    ⟨hrent, hvaultRent, hvacant, held_at, held_owner, held_mint, covered, hfunds, hne, hvaultNe,
      hvaultVacant, hvaultFunds, may⟩, drafts⟩

theorem Opens.congr {o : Opening} {p : Parties} {held : Holding} {rent vaultRent : Amount}
    {s s' s'' : Store} (same : ∀ k, s''.read k = s'.read k) (h : Opens o p held rent vaultRent s s') :
    Opens o p held rent vaultRent s s'' :=
  { h with
    record_at := (same _).trans h.record_at
    vault_at := (same _).trans h.vault_at
    elsewhere := fun k hr hv => (same k).trans (h.elsewhere k hr hv) }

theorem opens_of_commit {l' : Ledger} (commit : program.Commit l i l' openRoute o f first last)
    (tokens : l.natives Token.program = some Token.native) :
    ∃ p held rent vaultRent, Parties.Of p i ∧ Opens o p held rent vaultRent l.store l'.store := by
  obtain ⟨p, held, giver, taker, rent, vaultRent, parties, _, steps, drafts⟩ :=
    steps_of_returns commit.drafts commit.shown commit.clean commit.frame tokens commit.returns
  exact ⟨p, held, rent, vaultRent, parties, steps.opens.congr (commit.settled _ drafts.mirrors)⟩

/-! ## two parties -/

/-- the instruction that opens an escrow between the parties -/
def Parties.opening (p : Parties) (o : Opening) : Instruction where
  program := key
  metas := [⟨p.initializer, true, true⟩, ⟨p.mint, false, false⟩, ⟨p.vault, false, true⟩,
    ⟨p.deposit, false, true⟩, ⟨p.receive, false, false⟩, ⟨p.record, true, true⟩,
    ⟨.system, false, false⟩, ⟨Token.program, false, false⟩]
  data := openRoute.data o

/-- a ledger on which two parties hold ten tokens of one mint each -/
def market : Ledger :=
  let unset : Token.Clearable Key := ⟨false, .ofNat 0⟩
  let mint : Token.Mint := ⟨unset, 20, 0, true, unset⟩
  let holding (owner : Nat) : Bytes := (Holding.opened (.ofNat 3) (.ofNat owner) 10 []).pack
  let ofTokens (key : Nat) (data : Bytes) : Account :=
    { key := .ofNat key, lamports := 10000000, data, owner := Token.program }
  let wallet (key : Nat) : Account := { key := .ofNat key, lamports := 1000000000 }
  [wallet 1, wallet 2, ofTokens 3 mint.pack, ofTokens 4 (holding 1), ofTokens 5 (holding 2),
    ofTokens 6 (holding 1), ofTokens 7 (holding 2)].foldl Ledger.addAccount Ledger.start.withTokens

def earlier : Parties := ⟨.ofNat 1, .ofNat 3, vault, .ofNat 4, .ofNat 6, .ofNat 8⟩

def opening : Submission := ⟨earlier.opening ⟨254, 10, 1⟩, 1, []⟩

def later : Parties := ⟨.ofNat 2, .ofNat 3, vault, .ofNat 5, .ofNat 7, .ofNat 9⟩

end AccountLedger.Escrow
