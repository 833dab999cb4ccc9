import AccountLedger.Proofs.Swap.Vaults
/-!
# What the instructions of the swap program do

Each instruction reads the record of a pool, checks the accounts that it names against it, and makes
a few calls of the token program, one after the other.  Here these calls are written down as steps
from store to store, with the prices that they are made at and with the signatures that they need.

* `Created`, `Deposited`, `Traded`, `Withdrawn`, `Shut`: the steps of each instruction;
* `created_of_returns`, `deposited_of_returns` and the like: business logic that returns has taken
  these steps.
-/

namespace AccountLedger.Swap

open Logic (Returns)
open Token (Holding Mint Transfers)
open Token.Call (holdingOf mintOf)

variable {l : Ledger} {i : Instruction} {f : Frame} {first scene last : Scene Ledger} {u : Unit}
  {now : Store} {layout : Layout}

/-! ## what the instructions share -/

theorem returns_requireRecorded_iff (seated : scene.table.Seated layout i.metas) {name : String}
    {recorded : Key} :
    Returns Ledger.host f scene (requireRecorded name recorded) u last ↔
      last = scene ∧ layout.keyOf? i name = some recorded :=
  seated.returns_requireKey_iff

theorem returns_requireVaults_iff (seated : scene.table.Seated layout i.metas) {p : Pool} :
    Returns Ledger.host f scene (requireVaults p) u last ↔
      last = scene ∧ layout.keyOf? i "token_a_vault" = some p.vaultA ∧
        layout.keyOf? i "token_b_vault" = some p.vaultB := by
  simp only [requireVaults, Logic.returns_bind_iff, returns_requireRecorded_iff seated, and_assoc,
    exists_unit, exists_eq_left]
  exact and_left_comm

theorem returns_priced_iff {price : Except PriceFault Amount} {amount : Amount} :
    Returns Ledger.host f scene (priced price) amount last ↔ last = scene ∧ price = .ok amount := by
  rw [priced, Logic.returns_ofExcept_iff, mapError_eq_ok_iff]

/-- the key signed the instruction, or it is an address of the seed of the vault authority -/
def Vouched (i : Instruction) (c : Key) : Prop :=
  i.Signed c ∨ ∃ bump, Address.create key [vaultSeed] bump = .ok c

theorem vouched_of_voices {c : Key} {bump : UInt8} (h : i.Voices key [⟨[vaultSeed], bump⟩] c) :
    Vouched i c := by
  rcases h with h | ⟨_, hmem, h⟩
  · exact .inl h
  · cases List.mem_singleton.1 hmem
    exact .inr ⟨bump, h⟩

theorem moved_of_returns (drafts : scene.Drafts l layout i now)
    (tokens : l.natives Token.program = some Token.native) {source destination : String} {signer : Nat}
    {amount : Amount} {seeds : List SignerSeeds}
    (h : Returns Ledger.host f scene (move source destination signer amount seeds) u last) :
    ∃ a b c now', layout.keyOf? i source = some a ∧ layout.keyOf? i destination = some b ∧
      i.key? signer = some c ∧ i.Voices f.program seeds c ∧ Transfers now a b c amount now' ∧
      last.Drafts l layout i now' := by
  simp only [move, Logic.returns_bind_iff, Logic.returns_positionOf_iff,
    drafts.seated.positionOf_eq_ok_iff, and_assoc, exists_eq_left] at h
  obtain ⟨p, hp, q, hq, h⟩ := h
  obtain ⟨a, b, c, ha, hb, hc, voices, now', moves, drafts⟩ := drafts.transferred tokens h
  exact ⟨a, b, c, now', (Layout.keyOf?_eq hp i).trans ha, (Layout.keyOf?_eq hq i).trans hb, hc,
    voices, moves, drafts⟩

/-- the record of a pool that an instruction names, in a store -/
def Names (layout : Layout) (i : Instruction) (s : Store) (p : Pool) : Prop :=
  ∃ record, layout.keyOf? i "pool_info" = some record ∧ Record.decode (s.read record).data = .ok p

/-! ## creating -/

/-- the data of the record of a pool -/
def Pool.image (p : Pool) : Bytes :=
  (Record.tag Pool).image (Record.codec.write p) (Record.space Pool)

theorem Pool.length_write (p : Pool) : (Record.codec.write p).length = 192 := by
  simp [Record.codec, Codec.iso, Codec.pair, Codec.key, Codec.fixed, Key.length_bytes]

/-- nothing was made of the mint, and its tokens are the creator's to make -/
def Fresh (s : Store) (mint creator : Key) : Prop :=
  ∃ m, Mint.unpack (s.read mint).data = .ok m ∧ m.supply = 0 ∧ m.authority.get? = some creator

/-- the steps of a creation: the record is made, then both vaults, and the right to mint liquidity is
handed over -/
inductive Created (record : Key) (p : Pool) (s s' : Store) : Prop
  | intro {rent : Amount} {nowA nowB : Store} (vacant : (s.read record).isVacant = true)
    (differ : p.mintA ≠ p.mintB) (fresh : Fresh s p.liquidityMint p.creator)
    (makesA : Token.Makes
      ((s.made p.creator record rent (Record.space Pool) key).putData record p.image) p.creator
        p.vaultA p.mintA authority nowA)
    (makesB : Token.Makes nowA p.creator p.vaultB p.mintB authority nowB)
    (hands : Token.HandsOver nowB p.liquidityMint p.creator .mintTokens (some liquidityAuthority) s')

theorem fresh_of_checkMints (seated : scene.table.Seated layout i.metas)
    (shown : scene.table.Shows now) {creator mintA mintB : Key}
    (h : Returns Ledger.host f scene (checkMints creator mintA mintB) u last) :
    last = scene ∧ mintA ≠ mintB ∧
      ∃ liquidity, layout.keyOf? i "mint_liquidity" = some liquidity ∧ Fresh now liquidity creator := by
  simp only [checkMints, Logic.returns_bind_iff, seated.returns_mintOf_iff shown,
    Logic.returns_require_iff, decide_eq_true_eq, Bool.and_eq_true, and_assoc, exists_and_left,
    exists_eq_left] at h
  obtain ⟨differ, _, _, _, _, _, m, ⟨liquidity, hkey, _, mint_at⟩, rfl, unissued, holder⟩ := h
  exact ⟨rfl, differ, liquidity, hkey, m, mint_at, unissued, holder⟩

theorem recorded_of_returns (drafts : first.Drafts l createLayout i l.store)
    (shown : first.table.Shows l.store) (clean : first.table.Clean) {creator mintA mintB : Key}
    (h : Returns Ledger.host f first (recordPool creator mintA mintB) u last) :
    ∃ record vaultA vaultB liquidityMint payer rent,
      createLayout.keyOf? i "pool_info" = some record ∧
      createLayout.keyOf? i "creator" = some payer ∧
      createLayout.keyOf? i "token_a_vault" = some vaultA ∧
      createLayout.keyOf? i "token_b_vault" = some vaultB ∧
      createLayout.keyOf? i "mint_liquidity" = some liquidityMint ∧
      (l.store.read record).isVacant = true ∧ last.Drafts l createLayout i
        ((l.store.made payer record rent (Record.space Pool) key).putData record
          (Pool.mk creator mintA mintB vaultA vaultB liquidityMint).image) := by
  rw [recordPool, Logic.returns_bind_iff] at h
  obtain ⟨_, mid, hmake, h⟩ := h
  obtain ⟨payer, record, rent, position, hpayer, hrecord, hp, hkey, _, vacant, _, _, drafts, sole⟩ :=
    drafts.made shown clean (by decide) hmake
  simp only [Logic.returns_bind_iff, drafts.seated.returns_keyOf_iff, and_assoc,
    exists_eq_left] at h
  obtain ⟨a, ha, b, hb, liquidity, hliquidity, hsave⟩ := h
  exact ⟨record, a, b, liquidity, payer, rent, hrecord, hpayer, ha, hb, hliquidity, vacant,
    drafts.filled hp hkey sole hsave⟩

theorem vault_of_returns (drafts : scene.Drafts l layout i now)
    (tokens : l.natives Token.program = some Token.native) {vault mint : String}
    (h : Returns Ledger.host f scene (openVault vault mint authority) u last) :
    ∃ payer v m now', layout.keyOf? i "creator" = some payer ∧ layout.keyOf? i vault = some v ∧
      layout.keyOf? i mint = some m ∧ Token.Makes now payer v m authority now' ∧
        last.Drafts l layout i now' := by
  simp only [openVault, Logic.returns_bind_iff, Logic.returns_positionOf_iff,
    drafts.seated.positionOf_eq_ok_iff, and_assoc, exists_eq_left] at h
  obtain ⟨payerAt, hpayer, vaultAt, hvault, mintAt, hmint, h⟩ := h
  obtain ⟨payer, v, m, rent, ha, hv, hm, _, vacant, _, _, drafts⟩ := drafts.opened tokens h
  exact ⟨payer, v, m, _, (Layout.keyOf?_eq hpayer i).trans ha, (Layout.keyOf?_eq hvault i).trans hv,
    (Layout.keyOf?_eq hmint i).trans hm, ⟨vacant, rent, rfl⟩, drafts⟩

/-- the accounts that a creation puts on record and that sign it -/
structure Subscribed (i : Instruction) (p : Pool) : Prop where
  creator : createLayout.keyOf? i "creator" = some p.creator
  vaultA : createLayout.keyOf? i "token_a_vault" = some p.vaultA
  vaultB : createLayout.keyOf? i "token_b_vault" = some p.vaultB

theorem created_of_returns (drafts : first.Drafts l createLayout i l.store)
    (shown : first.table.Shows l.store) (clean : first.table.Clean) (frame : f.program = key)
    (tokens : l.natives Token.program = some Token.native)
    (h : Returns Ledger.host f first (createPool ()) u last) :
    ∃ record p now, createLayout.keyOf? i "pool_info" = some record ∧ Subscribed i p ∧
      Created record p l.store now ∧ last.Drafts l createLayout i now := by
  simp only [createPool, Logic.returns_bind_iff, drafts.seated.returns_keyOf_iff, and_assoc,
    exists_eq_left] at h
  obtain ⟨creator, hcreator, mintA, hmintA, mintB, hmintB, _, mid, hcheck, _, mid', hrecord, h⟩ := h
  obtain ⟨rfl, differ, liquidity, hliquidity, fresh⟩ := fresh_of_checkMints drafts.seated shown hcheck
  obtain ⟨record, a, b, _, payer, rent, hkey, hpayer, ha, hb, hliquidity', vacant, drafts⟩ :=
    recorded_of_returns drafts shown clean hrecord
  cases hcreator.symm.trans hpayer
  cases hliquidity.symm.trans hliquidity'
  simp only [Logic.returns_found_iff (frame ▸ find_authority),
    Logic.returns_found_iff (frame ▸ find_liquidityAuthority), and_assoc, exists_eq_left] at h
  obtain ⟨_, mid, hopenA, _, mid', hopenB, h⟩ := h
  obtain ⟨payerA, a', mA, nowA, hpayerA, ha', hmintA', makesA, drafts⟩ :=
    vault_of_returns drafts tokens hopenA
  obtain ⟨payerB, b', mB, nowB, hpayerB, hb', hmintB', makesB, drafts⟩ :=
    vault_of_returns drafts tokens hopenB
  simp only [Logic.returns_positionOf_iff, drafts.seated.positionOf_eq_ok_iff, and_assoc,
    exists_eq_left] at h
  obtain ⟨payerAt, hpayerAt, mintAt, hmintAt, hhand⟩ := h
  obtain ⟨target, holder, htarget, hholder, now, hands, drafts⟩ := drafts.handedOn tokens hhand
  -- the positions that are named twice hold the same keys
  cases ha.symm.trans ha'
  cases hb.symm.trans hb'
  cases hpayer.symm.trans hpayerA
  cases hpayer.symm.trans hpayerB
  cases hmintA.symm.trans hmintA'
  cases hmintB.symm.trans hmintB'
  cases hliquidity.symm.trans ((Layout.keyOf?_eq hmintAt i).trans htarget)
  cases hpayer.symm.trans ((Layout.keyOf?_eq hpayerAt i).trans hholder)
  exact ⟨record, ⟨creator, mintA, mintB, a, b, liquidity⟩, now, hkey, ⟨hcreator, ha, hb⟩,
    ⟨vacant, differ, fresh, makesA, makesB, hands⟩, drafts⟩

/-! ## depositing -/

/-- The liquidity that a deposit is worth: the geometric mean of its two sides if it is the first one,
and else the lesser of the shares that its sides add to the vaults. -/
def Worth (d : Deposit) (p : Pool) (s : Store) (supply liquidity : Amount) : Prop :=
  if supply = 0 then liquidity = firstLiquidity d.amountA d.amountB
  else ∃ a b sideA sideB, Holding.unpack (s.read p.vaultA).data = .ok a ∧
    Holding.unpack (s.read p.vaultB).data = .ok b ∧ share d.amountA supply a.amount = .ok sideA ∧
    share d.amountB supply b.amount = .ok sideB ∧ liquidity = min sideA sideB

/-- the steps of a deposit: the holding for the liquidity is there or is set apart, the depositor
pays into both vaults, and the liquidity is minted -/
inductive Deposited (i : Instruction) (d : Deposit) (p : Pool) (s s' : Store) : Prop
  | intro {depositor receiver sourceA sourceB minter : Key} {m : Mint} {liquidity : Amount}
    {opened paid filled : Store} (signed : i.Signed depositor)
    (positive : 0 < d.amountA ∧ 0 < d.amountB)
    (address : Token.Associated.address depositor p.liquidityMint = .ok receiver)
    (mint_at : Mint.unpack (s.read p.liquidityMint).data = .ok m)
    (worth : Worth d p s m.supply liquidity)
    (sets : Token.Associated.Opened s depositor receiver depositor p.liquidityMint opened)
    (paysA : Transfers opened sourceA p.vaultA depositor d.amountA paid)
    (paysB : Transfers paid sourceB p.vaultB depositor d.amountB filled)
    (mints : Token.Mints filled p.liquidityMint receiver minter liquidity s')
    (earned : 0 < liquidity)
    (names : depositLayout.Gives i [("depositor", depositor), ("token_a", sourceA),
      ("token_b", sourceB), ("token_liquidity", receiver)])

theorem worth_of_returns (seated : scene.table.Seated layout i.metas)
    (shown : scene.table.Shows now) {d : Deposit} {p : Pool} {supply liquidity : Amount}
    (vaultA : layout.keyOf? i "token_a_vault" = some p.vaultA)
    (vaultB : layout.keyOf? i "token_b_vault" = some p.vaultB)
    (h : Returns Ledger.host f scene (liquidityFor d supply) liquidity last) :
    last = scene ∧ Worth d p now supply liquidity := by
  unfold liquidityFor at h
  unfold Worth
  split at h
  · rename_i hzero
    obtain ⟨rfl, rfl⟩ := Logic.returns_pure_iff.1 h
    exact ⟨rfl, by rw [if_pos hzero]⟩
  · rename_i hzero
    rw [if_neg hzero]
    simp only [Logic.returns_bind_iff, seated.returns_holdingOf_iff shown, returns_priced_iff,
      Logic.returns_pure_iff, vaultA, vaultB, Option.some.injEq, and_assoc, exists_eq_left,
      exists_eq_left'] at h
    obtain ⟨a, _, ha, b, _, hb, sideA, hA, sideB, hB, rfl, rfl⟩ := h
    exact ⟨rfl, a, b, sideA, sideB, ha, hb, hA, hB, rfl⟩

theorem deposited_of_returns (drafts : first.Drafts l depositLayout i l.store)
    (shown : first.table.Shows l.store) (tokens : l.natives Token.program = some Token.native)
    (associated : l.natives Token.Associated.program = some Token.Associated.native) {d : Deposit}
    (h : Returns Ledger.host f first (deposit d) u last) :
    ∃ p now, Names depositLayout i l.store p ∧ Deposited i d p l.store now ∧
      last.Drafts l depositLayout i now := by
  simp only [deposit, Logic.returns_bind_iff, Logic.returns_require_iff,
    drafts.seated.returns_record_iff shown, returns_requireVaults_iff drafts.seated,
    requireLiquidityMint, returns_requireRecorded_iff drafts.seated,
    drafts.seated.returns_mintOf_iff shown, Bool.and_eq_true, decide_eq_true_eq, and_assoc,
    exists_and_left, exists_eq_left] at h
  obtain ⟨positiveA, positiveB, _, p, ⟨record, hrecord, _, hpool⟩, hvaultA, hvaultB, hmint, _, _, m,
    ⟨mint, hmint', _, mint_at⟩, liquidity, mid, hliquidity, earned, _, h⟩ := h
  cases hmint.symm.trans hmint'
  obtain ⟨rfl, worth⟩ := worth_of_returns drafts.seated shown hvaultA hvaultB hliquidity
  simp only [Logic.returns_positionOf_iff, drafts.seated.positionOf_eq_ok_iff, and_assoc,
    exists_eq_left] at h
  obtain ⟨depositorAt, hdepositorAt, mintAt, hmintAt, receiverAt, hreceiverAt, _, _, hset, _, _, ha,
    _, _, hb, authorityAt, _, hmints⟩ := h
  obtain ⟨depositor, receiver, wallet, mint, opened, hdepositor, hreceiver, hwallet, hmint'', address,
    sets, drafts⟩ := drafts.setApart associated hset
  obtain ⟨sourceA, vaultA, c, paid, hsourceA, hvaultA', hc, voices, paysA, drafts⟩ :=
    moved_of_returns drafts tokens ha
  obtain ⟨sourceB, vaultB, c', filled, hsourceB, hvaultB', hc', _, paysB, drafts⟩ :=
    moved_of_returns drafts tokens hb
  obtain ⟨mint', receiver', minter, hmint', hreceiver', _, now, mints, drafts⟩ :=
    drafts.minted tokens hmints
  -- the positions that are named twice hold the same keys
  cases hdepositor.symm.trans hwallet
  cases hdepositor.symm.trans hc
  cases hdepositor.symm.trans hc'
  cases hvaultA.symm.trans hvaultA'
  cases hvaultB.symm.trans hvaultB'
  cases hmint''.symm.trans hmint'
  cases hreceiver.symm.trans hreceiver'
  cases hmint.symm.trans ((Layout.keyOf?_eq hmintAt i).trans hmint'')
  have names : depositLayout.Gives i [("depositor", depositor), ("token_a", sourceA),
      ("token_b", sourceB), ("token_liquidity", receiver)] := by
    simp only [Layout.gives_cons, Layout.gives_nil, and_true]
    exact ⟨(Layout.keyOf?_eq hdepositorAt i).trans hdepositor, hsourceA, hsourceB,
      (Layout.keyOf?_eq hreceiverAt i).trans hreceiver⟩
  exact ⟨p, now, ⟨record, hrecord, hpool⟩,
    ⟨Instruction.signed_of_voices voices, ⟨positiveA, positiveB⟩, address, mint_at, worth, sets, paysA,
      paysB, mints, earned, names⟩, drafts⟩

/-! ## trading -/

/-- the steps of a trade: the trader pays into the first vault, and is paid out of the second -/
inductive Traded (i : Instruction) (t : Trade) (p : Pool) (s s' : Store) : Prop
  | intro {trader source destination holder : Key} {a b : Holding} {amountB : Amount} {paid : Store}
    (signed : i.Signed trader) (vouched : Vouched i holder)
    (vaultA : Holding.unpack (s.read p.vaultA).data = .ok a)
    (vaultB : Holding.unpack (s.read p.vaultB).data = .ok b)
    (filled : 0 < a.amount ∧ 0 < b.amount)
    (price : payout a.amount b.amount t.amountA = .ok amountB)
    (pays : Transfers s source p.vaultA trader t.amountA paid)
    (yields : Transfers paid p.vaultB destination holder amountB s')
    (agreed : 0 < amountB ∧ t.expectedB ≤ amountB)
    (names : tradeLayout.Gives i [("trader", trader), ("token_a", source),
      ("token_b", destination)])

theorem traded_of_returns (drafts : first.Drafts l tradeLayout i l.store)
    (shown : first.table.Shows l.store) (frame : f.program = key)
    (tokens : l.natives Token.program = some Token.native) {t : Trade}
    (h : Returns Ledger.host f first (trade t) u last) :
    ∃ p now, Names tradeLayout i l.store p ∧ Traded i t p l.store now ∧
      last.Drafts l tradeLayout i now := by
  simp only [trade, Logic.returns_bind_iff, Logic.returns_require_iff,
    drafts.seated.returns_record_iff shown, returns_requireVaults_iff drafts.seated,
    drafts.seated.returns_holdingOf_iff shown, returns_priced_iff, Logic.returns_positionOf_iff,
    drafts.seated.positionOf_eq_ok_iff, Bool.and_eq_true, decide_eq_true_eq, and_assoc,
    exists_and_left, exists_eq_left] at h
  obtain ⟨_, _, p, ⟨record, hrecord, _, hpool⟩, hvaultA, hvaultB, _, a, ⟨_, ha, _, vaultA⟩, b,
    ⟨_, hb, _, vaultB⟩, hpositiveA, hpositiveB, _, amountB, price, earned, expected, _, traderAt,
    htraderAt, authorityAt, _, _, mid, hpays, hyields⟩ := h
  cases hvaultA.symm.trans ha
  cases hvaultB.symm.trans hb
  obtain ⟨source, v, trader, paid, hsource, hv, htrader, voices, pays, drafts⟩ :=
    moved_of_returns drafts tokens hpays
  obtain ⟨v', destination, holder, now, hv', hdestination, _, voices', yields, drafts⟩ :=
    moved_of_returns drafts tokens hyields
  cases hvaultA.symm.trans hv
  cases hvaultB.symm.trans hv'
  have names : tradeLayout.Gives i [("trader", trader), ("token_a", source),
      ("token_b", destination)] := by
    simp only [Layout.gives_cons, Layout.gives_nil, and_true]
    exact ⟨(Layout.keyOf?_eq htraderAt i).trans htrader, hsource, hdestination⟩
  exact ⟨p, now, ⟨record, hrecord, hpool⟩, ⟨Instruction.signed_of_voices voices,
    vouched_of_voices (frame ▸ voices'), vaultA, vaultB, ⟨hpositiveA, hpositiveB⟩, price, pays,
    yields, ⟨earned, expected⟩, names⟩, drafts⟩

/-! ## withdrawing -/

/-- the steps of a withdrawal: the share is paid out of both vaults, and the liquidity is burnt -/
inductive Withdrawn (i : Instruction) (w : Withdrawal) (p : Pool) (s s' : Store) : Prop
  | intro {depositor destinationA destinationB held holder : Key} {m : Mint} {a b : Holding}
    {amountA amountB : Amount} {drawn both : Store} (signed : i.Signed depositor)
    (vouched : Vouched i holder) (mint_at : Mint.unpack (s.read p.liquidityMint).data = .ok m)
    (vaultA : Holding.unpack (s.read p.vaultA).data = .ok a)
    (vaultB : Holding.unpack (s.read p.vaultB).data = .ok b)
    (priceA : share a.amount w.amount m.supply = .ok amountA)
    (priceB : share b.amount w.amount m.supply = .ok amountB)
    (drawsA : Transfers s p.vaultA destinationA holder amountA drawn)
    (drawsB : Transfers drawn p.vaultB destinationB holder amountB both)
    (burns : Token.Burns both held p.liquidityMint depositor w.amount s')
    (names : withdrawLayout.Gives i [("depositor", depositor), ("token_a", destinationA),
      ("token_b", destinationB), ("token_liquidity", held)])

theorem returns_checkHeld_iff (seated : scene.table.Seated layout i.metas)
    (shown : scene.table.Shows now) {w : Withdrawal} {p : Pool} :
    Returns Ledger.host f scene (checkHeld w p) u last ↔
      last = scene ∧ ∃ held, (∃ key, layout.keyOf? i "token_liquidity" = some key ∧
        (now.read key).owner = Token.program ∧ Holding.unpack (now.read key).data = .ok held) ∧
          held.mint = p.liquidityMint ∧ w.amount ≤ held.amount := by
  simp only [checkHeld, Logic.returns_bind_iff, seated.returns_holdingOf_iff shown,
    Logic.returns_requireEq_iff, Logic.returns_require_iff, and_assoc, exists_and_left,
    exists_eq_left, exists_unit, decide_eq_true_eq]
  refine ⟨?_, ?_⟩
  · rintro ⟨held, here, mint, rfl, covered⟩
    exact ⟨rfl, held, here, mint, covered⟩
  · rintro ⟨rfl, held, here, mint, covered⟩
    exact ⟨held, here, mint, rfl, covered⟩

theorem withdrawn_of_returns (drafts : first.Drafts l withdrawLayout i l.store)
    (shown : first.table.Shows l.store) (frame : f.program = key)
    (tokens : l.natives Token.program = some Token.native) {w : Withdrawal}
    (h : Returns Ledger.host f first (withdraw w) u last) :
    ∃ p now, Names withdrawLayout i l.store p ∧ Withdrawn i w p l.store now ∧
      last.Drafts l withdrawLayout i now := by
  simp only [withdraw, Logic.returns_bind_iff, Logic.returns_require_iff,
    drafts.seated.returns_record_iff shown, returns_requireVaults_iff drafts.seated,
    requireLiquidityMint, returns_requireRecorded_iff drafts.seated,
    returns_checkHeld_iff drafts.seated shown, and_assoc, exists_and_left, exists_eq_left,
    exists_unit] at h
  obtain ⟨_, p, ⟨record, hrecord, _, hpool⟩, hvaultA, hvaultB, hmint, _, h⟩ := h
  simp only [drafts.seated.returns_mintOf_iff shown, drafts.seated.returns_holdingOf_iff shown,
    returns_priced_iff, Logic.returns_positionOf_iff, drafts.seated.positionOf_eq_ok_iff, and_assoc,
    exists_eq_left] at h
  obtain ⟨m, ⟨_, hmint', _, mint_at⟩, a, ⟨_, ha, _, vaultA⟩, b, ⟨_, hb, _, vaultB⟩, amountA, priceA,
    amountB, priceB, depositorAt, hdepositorAt, authorityAt, _, mid', hdrawA, mid'', hdrawB, mintAt,
    hmintAt, heldAt, hheldAt, hburn⟩ := h
  cases hmint.symm.trans hmint'
  cases hvaultA.symm.trans ha
  cases hvaultB.symm.trans hb
  obtain ⟨v, destinationA, holder, drawn, hv, hdestinationA, hholder, voices, drawsA, drafts⟩ :=
    moved_of_returns drafts tokens hdrawA
  obtain ⟨v', destinationB, holder', both, hv', hdestinationB, hholder', _, drawsB, drafts⟩ :=
    moved_of_returns drafts tokens hdrawB
  rw [drafts.seated.positionOf_eq_ok_iff] at hmintAt hheldAt
  obtain ⟨held, mint, depositor, hheld, hmint', hdepositor, signs, now, burns, drafts⟩ :=
    drafts.burnt tokens hburn
  cases hvaultA.symm.trans hv
  cases hvaultB.symm.trans hv'
  cases hholder.symm.trans hholder'
  cases hmint.symm.trans ((Layout.keyOf?_eq hmintAt i).trans hmint')
  have names : withdrawLayout.Gives i [("depositor", depositor), ("token_a", destinationA),
      ("token_b", destinationB), ("token_liquidity", held)] := by
    simp only [Layout.gives_cons, Layout.gives_nil, and_true]
    exact ⟨(Layout.keyOf?_eq hdepositorAt i).trans hdepositor, hdestinationA, hdestinationB,
      (Layout.keyOf?_eq hheldAt i).trans hheld⟩
  exact ⟨p, now, ⟨record, hrecord, hpool⟩, ⟨Instruction.signed_of_voices signs,
    vouched_of_voices (frame ▸ voices), mint_at, vaultA, vaultB, priceA, priceB, drawsA, drawsB,
    burns, names⟩, drafts⟩

/-! ## closing -/

/-- the steps of closing a pool: its vaults, which are empty, are closed -/
inductive Shut (i : Instruction) (p : Pool) (s s' : Store) : Prop
  | intro {creator creator' holder holder' : Key} {mid : Store} (vouched : Vouched i holder)
    (vouched' : Vouched i holder') (closesA : Token.Closes s p.vaultA creator holder mid)
    (closesB : Token.Closes mid p.vaultB creator' holder' s')

theorem returns_requireEmpty_iff (seated : scene.table.Seated layout i.metas)
    (shown : scene.table.Shows now) {vault : String} :
    Returns Ledger.host f scene (requireEmpty vault) u last ↔
      last = scene ∧ ∃ held, (∃ key, layout.keyOf? i vault = some key ∧
        (now.read key).owner = Token.program ∧ Holding.unpack (now.read key).data = .ok held) ∧
          held.amount = 0 := by
  simp only [requireEmpty, Logic.returns_bind_iff, seated.returns_holdingOf_iff shown,
    Logic.returns_require_iff, and_assoc, exists_eq_left, decide_eq_true_eq]
  refine ⟨?_, ?_⟩
  · rintro ⟨held, here, rfl, hzero⟩
    exact ⟨rfl, held, here, hzero⟩
  · rintro ⟨rfl, held, here, hzero⟩
    exact ⟨held, here, rfl, hzero⟩

theorem closed_of_returns (drafts : scene.Drafts l layout i now) (frame : f.program = key)
    (tokens : l.natives Token.program = some Token.native) {vault : String} {bump : UInt8}
    (h : Returns Ledger.host f scene (closeVault vault [⟨[vaultSeed], bump⟩]) u last) :
    ∃ v creator holder now', layout.keyOf? i vault = some v ∧ Vouched i holder ∧
      Token.Closes now v creator holder now' ∧ last.Drafts l layout i now' := by
  simp only [closeVault, Logic.returns_bind_iff, Logic.returns_positionOf_iff,
    drafts.seated.positionOf_eq_ok_iff, and_assoc, exists_eq_left] at h
  obtain ⟨_, _, _, _, vaultAt, hvault, h⟩ := h
  obtain ⟨v, creator, holder, hv, _, _, voices, now', closes, drafts⟩ := drafts.closed tokens h
  exact ⟨v, creator, holder, now', (Layout.keyOf?_eq hvault i).trans hv,
    vouched_of_voices (frame ▸ voices), closes, drafts⟩

theorem shut_of_returns (drafts : first.Drafts l closeLayout i l.store)
    (shown : first.table.Shows l.store) (frame : f.program = key)
    (tokens : l.natives Token.program = some Token.native) {bump : UInt8}
    (h : Returns Ledger.host f first (closePool bump) u last) :
    ∃ p now, Names closeLayout i l.store p ∧ closeLayout.keyOf? i "token_a_vault" = some p.vaultA ∧
      closeLayout.keyOf? i "token_b_vault" = some p.vaultB ∧ Shut i p l.store now ∧
      last.Drafts l closeLayout i now := by
  simp only [closePool, Logic.returns_bind_iff, drafts.seated.returns_record_iff shown,
    returns_requireRecorded_iff drafts.seated, returns_requireVaults_iff drafts.seated,
    returns_requireEmpty_iff drafts.seated shown, and_assoc, exists_and_left, exists_eq_left] at h
  obtain ⟨p, ⟨record, hrecord, _, hpool⟩, _, hvaultA, hvaultB, _, _, _, _, _, _, _, mid, ha, hb⟩ := h
  obtain ⟨v, _, _, _, hv, vouched, closesA, drafts⟩ := closed_of_returns drafts frame tokens ha
  obtain ⟨v', _, _, now, hv', vouched', closesB, drafts⟩ := closed_of_returns drafts frame tokens hb
  cases hvaultA.symm.trans hv
  cases hvaultB.symm.trans hv'
  exact ⟨p, now, ⟨record, hrecord, hpool⟩, hvaultA, hvaultB, ⟨vouched, vouched', closesA, closesB⟩,
    drafts⟩

end AccountLedger.Swap
