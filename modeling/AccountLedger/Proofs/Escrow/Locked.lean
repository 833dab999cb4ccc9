import AccountLedger.Proofs.Escrow.Authority
import AccountLedger.Proofs.Escrow.Undo
import AccountLedger.Proofs.Services
/-!
# What keeps a deposit from being taken back

Nothing leaves the vault of an open escrow, but anybody may add to it, since the swap program pays out
to any account of the right mint.  An end moves what was recorded and closes the vault, and a vault
with tokens left is not closed.

* `Locked.move`: an open escrow stays as it is over every move that is not in the authority's name;
* `undoing_commits_iff`: when the deposit can be taken back from a ledger;
* `taken_back_iff`: the same after an opening and any run without an end.
-/

namespace AccountLedger.Escrow

open Logic (Returns)
open Token (Holding Mint Stands circulating supply tokens)

variable {l : Ledger} {o : Opening} {p : Parties} {held taker : Holding} {rent vaultRent : Amount}
  {s s' : Store}

/-! ## open escrows -/

/-- what stays of an open escrow: its record, and a vault with the deposit -/
structure Locked (o : Opening) (p : Parties) (s : Store) : Prop where
  record_owner : (s.read p.record).owner = key
  record_data : (s.read p.record).data = (p.terms o).image
  stands : Stands s p.vault (filled p.mint o.offered)
  vault_owner : (s.read p.vault).owner = Token.program
  enough : o.offered.toNat ≤ tokens s p.vault

theorem Opens.locked (opens : Opens o p held rent vaultRent s s') : Locked o p s' where
  record_owner := by rw [opens.record_at]
  record_data := by rw [opens.record_at]
  stands := .of_unpack opens.unpack_vault
  vault_owner := by rw [opens.vault_at]
  enough := Nat.le_of_eq (Token.tokens_of_unpack opens.unpack_vault).symm

namespace Locked

theorem length_record (h : Locked o p s) : (s.read p.record).data.length = 120 := by
  rw [h.record_data, Terms.length_image]
  rfl

/-- A move in another name takes nothing from the vault, and leaves the record alone. -/
theorem move {gives : Key → Prop} (silent : ¬ gives authority) (move : Move gives s s')
    (h : Locked o p s) : Locked o p s' := by
  have hlength := h.length_record
  have noHolding : ∀ held, Holding.unpack (s.read p.record).data ≠ .ok held := by
    intro held hheld
    rw [(Holding.unpack_eq_ok_iff.1 hheld).1, Holding.length_pack] at hlength
    exact absurd hlength (by decide)
  have noMint : ∀ m, Mint.unpack (s.read p.record).data ≠ .ok m := by
    intro m hm
    rw [(Mint.unpack_eq_ok_iff.1 hm).1, Mint.length_pack] at hlength
    exact absurd hlength (by decide)
  have occupied : (s.read p.record).isVacant = false := by
    refine Bool.eq_false_iff.2 fun vacant => ?_
    rw [(Account.isVacant_iff.1 vacant).2.1] at hlength
    cases hlength
  have recordApart : (s.read p.record).owner ≠ Greeter.key := by
    rw [h.record_owner]
    decide
  have vaultApart : (s.read p.vault).owner ≠ Greeter.key := by
    rw [h.vault_owner]
    decide
  obtain ⟨data, owner⟩ := (move.lot p.record).same occupied noHolding noMint recordApart
  obtain ⟨stands, vaultOwner, le⟩ := (move.lot p.vault).stands h.stands vaultApart silent silent
  exact ⟨owner.trans h.record_owner, data.trans h.record_data, stands,
    vaultOwner.trans h.vault_owner, Nat.le_trans h.enough le⟩

theorem unpack_vault (h : Locked o p s) (exact : tokens s p.vault = o.offered.toNat) :
    Holding.unpack (s.read p.vault).data = .ok (filled p.mint o.offered) := by
  obtain ⟨amount, here, held⟩ := h.stands.unpack_eq
  obtain rfl : amount = o.offered := UInt64.toNat_inj.1 (held.symm.trans exact)
  exact here

/-- The deposit has room for what was offered, if there is no more of its mint than was made. -/
theorem room (h : Locked o p s) (backed : circulating s p.mint ≤ supply s p.mint)
    (deposit_ne_vault : p.deposit ≠ p.vault)
    (taker_at : Holding.unpack (s.read p.deposit).data = .ok taker) (mint : taker.mint = p.mint) :
    taker.amount.toNat + o.offered.toNat < UInt64.size := by
  obtain ⟨amount, here, held⟩ := h.stands.unpack_eq
  have hle := Token.tokens_add_le deposit_ne_vault taker_at mint here rfl
  have := Token.supply_lt s p.mint
  have := h.enough
  dsimp only at hle
  omega

end Locked

/-! ## one undoing -/

/-- An undoing that commits has emptied the vault, so it held what was recorded. -/
theorem found_of_undone (locked : Locked o p l.store)
    (installed : l.natives Token.program = some Token.native) (deposit_ne_vault : p.deposit ≠ p.vault)
    (initializer_ne_vault : p.initializer ≠ p.vault)
    (commits : program.committed? l ⟨p.undoing, 1, []⟩ = some p.undoing) :
    tokens l.store p.vault = o.offered.toNat ∧
      (∃ held, Holding.unpack (l.store.read p.deposit).data = .ok held ∧ held.mint = p.mint) ∧
      (l.store.lamports p.initializer).toNat + (l.store.lamports p.vault).toNat < UInt64.size := by
  obtain ⟨bump, f, first, last, commit⟩ := Program.commit_of_committed? commits route?_undoing
  obtain ⟨terms, ⟨record, hrecord, _, decoded⟩, _, _, _, h⟩ :=
    (returns_cancel_iff commit.drafts.seated commit.shown commit.frame).1 commit.returns
  obtain rfl : p.record = record := Option.some.inj hrecord
  obtain rfl : p.terms o = terms :=
    Except.ok.inj ((decode_record locked.record_data).symm.trans decoded)
  obtain ⟨v, receiver, initializer, c, giver, there, empty, hv, hreceiver, hinitializer, may, close,
    _⟩ := released_of_returns commit.drafts installed h
  obtain rfl : p.vault = v := Option.some.inj hv
  obtain rfl : p.deposit = receiver := Option.some.inj hreceiver
  obtain rfl : p.initializer = initializer := Option.some.inj hinitializer
  have hmove : Token.Transfers l.store p.vault p.deposit c (p.terms o).offered _ :=
    ⟨giver, there, may, rfl⟩
  obtain ⟨covered, rest⟩ := hmove.tokens_source (Ne.symm deposit_ne_vault)
  rw [Token.tokens_of_unpack close.held_at, close.empty, UInt64.toNat_zero] at rest
  refine ⟨Nat.le_antisymm (Nat.le_of_sub_eq_zero rest.symm) covered,
    ⟨there, may.taker_at, ?_⟩, ?_⟩
  · obtain ⟨amount, here⟩ := locked.stands
    have hmint := may.mint
    cases may.giver_at.symm.trans here
    exact hmint.symm
  · have fits := close.fits
    rw [Store.read_putLamports, if_neg (Ne.symm initializer_ne_vault)] at fits
    have hsum := fits
    change (Store.lamports _ p.initializer).toNat + (Store.lamports _ p.vault).toNat < _ at hsum
    rw [Token.lamports_transferred, Token.lamports_transferred] at hsum
    exact hsum

/-- The deposit can be taken back just if the vault holds what was recorded, the deposit is still
there, and the balance of the vault can be given to the initializer. -/
theorem undoing_commits_iff (locked : Locked o p l.store)
    (installed : l.natives Token.program = some Token.native)
    (executable : (l.store.read Token.program).executable = true)
    (modifiable : ∀ k ∈ p.written, (l.store.read k).executable = false)
    (backed : circulating l.store p.mint ≤ supply l.store p.mint) (canonical : p.vault = vault)
    (deposit_ne_vault : p.deposit ≠ p.vault) (initializer_ne_vault : p.initializer ≠ p.vault) :
    let undoing : Submission := ⟨p.undoing, 1, []⟩
    let next := program.served l undoing
    (program.committed? l undoing = some p.undoing ↔
      tokens l.store p.vault = o.offered.toNat ∧
        (∃ held, Holding.unpack (l.store.read p.deposit).data = .ok held ∧ held.mint = p.mint) ∧
        (l.store.lamports p.initializer).toNat + (l.store.lamports p.vault).toNat < UInt64.size) ∧
      (program.committed? l undoing = some p.undoing →
        tokens next.store p.deposit = tokens l.store p.deposit + o.offered.toNat) := by
  intro undoing next
  have undoes : tokens l.store p.vault = o.offered.toNat ∧
      (∃ held, Holding.unpack (l.store.read p.deposit).data = .ok held ∧ held.mint = p.mint) ∧
      (l.store.lamports p.initializer).toNat + (l.store.lamports p.vault).toNat < UInt64.size →
      program.committed? l undoing = some p.undoing ∧
        tokens next.store p.deposit = tokens l.store p.deposit + o.offered.toNat := by
    rintro ⟨exact, ⟨taker, taker_at, taker_mint⟩, funds⟩
    have room := locked.room backed deposit_ne_vault taker_at taker_mint
    have u : Undoable o p taker l.store :=
      ⟨locked.record_owner, locked.record_data, locked.unpack_vault exact, taker_at, taker_mint, room,
        funds, deposit_ne_vault, initializer_ne_vault⟩
    obtain ⟨commits, hread⟩ := undoing_commits u canonical modifiable executable installed
    have there : Holding.unpack (next.store.read p.deposit).data =
        .ok { taker with amount := taker.amount + o.offered } := by
      rw [hread, u.deposit_undone]
      exact Token.unpack_pack _ (Holding.unpack_eq_ok_iff.1 taker_at).2
    refine ⟨commits, ?_⟩
    rw [Token.tokens_of_unpack there, Token.tokens_of_unpack taker_at]
    exact Token.toNat_add_of_fits room
  have finds := found_of_undone locked installed deposit_ne_vault initializer_ne_vault
  exact ⟨⟨finds, fun h => (undoes h).1⟩, fun h => (undoes (finds h)).2⟩

/-! ## runs without an end -/

/-- the submission does not speak for the authority, and does not end an escrow -/
def NoEnd (x : Service × Submission) : Prop :=
  x.2.instruction.Unsigned authority ∧ (x.1 = .escrow → x.2.instruction.data.take 8 ∉
    [exchangeLayout.discriminator, cancelLayout.discriminator])

instance (x : Service × Submission) : Decidable (NoEnd x) :=
  inferInstanceAs (Decidable (_ ∧ (_ → _)))

theorem moves_of_noEnd {x : Service × Submission} {here : Ledger} {r : Route} {params : r.Params}
    {f : Frame} {first last : Scene Ledger} (noEnd : NoEnd x)
    (commit : x.1.program.Commit here x.2.instruction (Service.served here x) r params f first last)
    (installed : here.natives Token.program = some Token.native)
    (associated : here.natives Token.Associated.program = some Token.Associated.native) :
    Moves (· ≠ authority) here.store (Service.served here x).store := by
  obtain ⟨service, submission⟩ := x
  obtain ⟨unsigned, ends⟩ := noEnd
  have silent : ∀ k, submission.instruction.Signed k → k ≠ authority := by
    rintro k ⟨m, hm, signer, rfl⟩
    exact unsigned m hm signer
  cases service with
  | greeter => exact Greeter.moves_of_commit commit
  | escrow =>
    have opens : r = openRoute := by
      have hmem := List.mem_of_find?_eq_some commit.route
      have htag := commit.discriminator_eq
      simp only [Service.program, program, List.mem_cons, List.not_mem_nil, or_false] at hmem
      rcases hmem with rfl | rfl | rfl
      · rfl
      · exact absurd (htag.symm ▸ List.mem_cons_self ..) (ends rfl)
      · exact absurd (htag.symm ▸ List.mem_cons_of_mem _ (List.mem_cons_self ..)) (ends rfl)
    subst opens
    exact (moves_of_open commit installed).mono silent
  | swap =>
    refine (Swap.moves_of_commit commit installed associated).mono fun k vouched => ?_
    rcases vouched with signed | ⟨bump, h⟩
    · exact silent k signed
    · rintro rfl
      exact create_ne_authority bump h

/-- After an opening, and any submissions that end no escrow and do not speak for the authority, the
vault holds at least the deposit.  It can be taken back just if the vault holds no more than that,
the account that it came from still takes it, and the balance of the vault can be given to the
initializer. -/
theorem taken_back_iff (l : Ledger) (s : Submission) (o : Opening) (p : Parties)
    (run : List (Service × Submission))
    (installed : l.natives Token.program = some Token.native)
    (associated : l.natives Token.Associated.program = some Token.Associated.native)
    (executable : (l.store.read Token.program).executable = true)
    (backed : circulating l.store p.mint ≤ supply l.store p.mint)
    (opening : s.instruction.data = openRoute.data o)
    (commits : program.committed? l s = some s.instruction) (parties : p.Of s.instruction)
    (canonical : p.vault = vault) (noEnd : ∀ x ∈ run, NoEnd x) :
    let here := run.foldl Service.served (program.served l s)
    let undoing : Submission := ⟨p.undoing, 1, []⟩
    let next := program.served here undoing
    o.offered.toNat ≤ tokens here.store p.vault ∧
      (program.committed? here undoing = some p.undoing ↔
        tokens here.store p.vault = o.offered.toNat ∧
          (∃ held, Holding.unpack (here.store.read p.deposit).data = .ok held ∧
            held.mint = p.mint) ∧
          (here.store.lamports p.initializer).toNat + (here.store.lamports p.vault).toNat <
            UInt64.size) ∧
      (program.committed? here undoing = some p.undoing →
        tokens next.store p.deposit = tokens here.store p.deposit + o.offered.toNat) := by
  intro here undoing next
  have hroute : s.instruction.data.take 8 = openLayout.discriminator :=
    opening ▸ List.take_left' openLayout.length_discriminator
  obtain ⟨params, f, first, last, commit⟩ :=
    Program.commit_of_committed? commits (hroute ▸ route?_open)
  obtain rfl : o = params := commit.params_eq opening
  obtain ⟨q, held, rent, vaultRent, parties', opens⟩ := opens_of_commit commit installed
  obtain rfl := parties.unique parties'
  have opened := moves_of_open commit installed
  have natives : (program.served l s).natives = l.natives := Program.natives_served l s
  obtain ⟨natives', moves⟩ := Service.moves_of_run fun x hx here hnatives r params f first last commit =>
    moves_of_noEnd (noEnd x hx) commit
      ((congrFun (hnatives.trans natives) _).trans installed)
      ((congrFun (hnatives.trans natives) _).trans associated)
  have locked : Locked o p here.store :=
    moves.keeps (fun _ _ move => Locked.move (not_not_intro rfl) move) opens.locked
  have fixed : ∀ k, (here.store.read k).executable = (l.store.read k).executable := fun k =>
    ((Service.conserves_run _ run).executable k).trans (opens.executable_eq k)
  have enough : circulating here.store p.mint ≤ supply here.store p.mint := by
    have hopen := opened.le p.mint
    have hrun : circulating here.store p.mint + supply (program.served l s).store p.mint ≤
        circulating (program.served l s).store p.mint + supply here.store p.mint :=
      moves.le p.mint
    omega
  have undoing_iff := undoing_commits_iff locked ((congrFun (natives'.trans natives) _).trans installed)
    ((fixed _).trans executable)
    (fun k hk => (fixed k).trans (modifiable_of_open commit parties hk)) enough canonical
    opens.deposit_ne_vault opens.initializer_ne_vault
  exact ⟨locked.enough, undoing_iff⟩

/-! ## a stranger who buys into the vault -/

/-- the ledger with a pool, and a stranger who holds ten of its first tokens -/
def bazaar : Ledger :=
  let unset : Token.Clearable Key := ⟨false, .ofNat 0⟩
  let ofTokens (key : Nat) (data : Bytes) : Account :=
    { key := .ofNat key, lamports := 10000000, data, owner := Token.program }
  let holding (mint : Nat) (amount : Amount) : Bytes :=
    (Holding.opened (.ofNat mint) (.ofNat 5) amount []).pack
  [{ key := .ofNat 5, lamports := 1000000000 },
    ofTokens 12 (⟨unset, 117, 0, true, unset⟩ : Mint).pack, ofTokens 27 (holding 14 40),
    ofTokens 28 (holding 12 10)].foldl Ledger.addAccount Swap.stocked

/-- the creator of the pool offers three of its second tokens -/
def offer : Parties := ⟨.ofNat 2, .ofNat 13, vault, .ofNat 25, .ofNat 24, .ofNat 31⟩

def offering : Submission := ⟨offer.opening ⟨254, 3, 1⟩, 1, []⟩

/-- the stranger buys from the pool, and has the tokens sent to any account -/
def purchase (destination : Key) : Service × Submission :=
  let buying : Instruction :=
    { program := Swap.key
      metas := [⟨.ofNat 5, true, true⟩, ⟨.ofNat 28, false, true⟩, ⟨destination, false, true⟩,
        ⟨.ofNat 22, false, true⟩, ⟨.ofNat 23, false, true⟩, ⟨Swap.authority, false, false⟩,
        ⟨.ofNat 21, false, false⟩, ⟨Token.program, false, false⟩]
      data := Swap.tradeRoute.data (⟨5, 1, 255⟩ : Swap.Trade) }
  (.swap, ⟨buying, 1, []⟩)

/-- A purchase that is sent to the deposit's account leaves the vault alone. -/
theorem offer_taken_back :
    let here := [purchase offer.deposit].foldl Service.served (program.served bazaar offering)
    let undoing : Submission := ⟨offer.undoing, 1, []⟩
    tokens here.store offer.deposit = 2 ∧
      program.committed? here undoing = some offer.undoing ∧
      tokens (program.served here undoing).store offer.deposit = 5 := by
  have run : program.committed? bazaar offering = some offering.instruction ∧
      let here := [purchase offer.deposit].foldl Service.served (program.served bazaar offering)
      tokens here.store offer.deposit = 2 ∧ tokens here.store offer.vault = 3 ∧
        (here.store.read offer.deposit).data =
          (Holding.opened (.ofNat 13) (.ofNat 2) 2 []).pack ∧
        (here.store.lamports offer.initializer).toNat + (here.store.lamports offer.vault).toNat <
          UInt64.size := by
    decide +kernel
  have parties : offer.Of offering.instruction := ⟨rfl, rfl, rfl, rfl, rfl, rfl⟩
  obtain ⟨commits, deposit, exact, packed, funds⟩ := run
  have there := packed ▸ Token.unpack_pack _ (by simp [Holding.opened])
  have h := taken_back_iff bazaar offering ⟨254, 3, 1⟩ offer [purchase offer.deposit] rfl rfl
    (by decide +kernel) (by decide +kernel) rfl commits parties rfl (by decide +kernel)
  have undoes := h.2.1.2 ⟨exact, ⟨_, there, rfl⟩, funds⟩
  refine ⟨deposit, undoes, (h.2.2 undoes).trans ?_⟩
  rw [deposit]
  rfl

/-- A purchase that is sent to the vault leaves two tokens more there than are on record, and the
deposit cannot be taken back. -/
theorem offer_trapped :
    let opened := program.served bazaar offering
    let bought := purchase vault
    let here := Service.served opened bought
    (∀ mint, circulating bazaar.store mint = supply bazaar.store mint) ∧
      program.committed? bazaar offering = some offering.instruction ∧ NoEnd bought ∧
      Swap.program.committed? opened bought.2 = some bought.2.instruction ∧
      tokens here.store vault = 5 ∧
      program.committed? here ⟨offer.undoing, 1, []⟩ = none := by
  decide +kernel

end AccountLedger.Escrow
