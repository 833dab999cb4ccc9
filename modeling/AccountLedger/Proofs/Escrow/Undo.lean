import AccountLedger.Proofs.Carried
import AccountLedger.Proofs.Escrow.Ending
import AccountLedger.Proofs.Wire
/-!
# Taking a deposit back

An opening with the vault of the canonical bump can be undone by its initializer at once.  The
deposit is then what it was before and the vault is vacant again, and only the rent of the record is
gone.  With the vault of another bump nothing can be undone, since an end looks for the canonical
one.

* `Undoable`: what the undoing needs of a store; `undoing_commits`: then it commits;
* `Opens.undoable`: an opening leaves such a store;
* `undo_of_open`: when the deposit can be taken back, and what this leaves.
-/

namespace AccountLedger.Escrow

open Logic (Returns)
open Token (Holding MayTransfer MayClose transferred closedAt)

variable {o : Opening} {p : Parties} {held taker : Holding} {rent vaultRent : Amount} {s s' : Store}

/-! ## the store that can be undone -/

/-- what the undoing needs of a store, where the deposit holds what `taker` says -/
structure Undoable (o : Opening) (p : Parties) (taker : Holding) (s : Store) : Prop where
  record_owner : (s.read p.record).owner = key
  record_data : (s.read p.record).data = (p.terms o).image
  vault_at : Holding.unpack (s.read p.vault).data = .ok (filled p.mint o.offered)
  taker_at : Holding.unpack (s.read p.deposit).data = .ok taker
  taker_mint : taker.mint = p.mint
  room : taker.amount.toNat + o.offered.toNat < UInt64.size
  funds : (s.lamports p.initializer).toNat + (s.lamports p.vault).toNat < UInt64.size
  deposit_ne_vault : p.deposit ≠ p.vault
  initializer_ne_vault : p.initializer ≠ p.vault

def emptied (o : Opening) (p : Parties) (taker : Holding) (s : Store) : Store :=
  transferred s p.vault p.deposit o.offered (filled p.mint o.offered) taker

/-- the store after the undoing -/
def undone (o : Opening) (p : Parties) (taker : Holding) (s : Store) : Store :=
  closedAt (emptied o p taker s) p.vault p.initializer

namespace Undoable

theorem mayTransfer (u : Undoable o p taker s) :
    MayTransfer s p.vault p.deposit authority [authority] o.offered (filled p.mint o.offered)
      taker where
  giver_at := u.vault_at
  taker_at := u.taker_at
  signed := by simp
  owner := rfl
  mint := u.taker_mint.symm
  covered _ := Nat.le_refl _
  fits _ := u.room

theorem read_emptied_vault (u : Undoable o p taker s) :
    (emptied o p taker s).read p.vault = { s.read p.vault with
      data := (filled p.mint (o.offered - o.offered)).pack } := by
  rw [emptied, Token.read_transferred, if_neg (Ne.symm u.deposit_ne_vault), if_pos rfl]
  rfl

theorem mayClose (u : Undoable o p taker s) :
    MayClose (emptied o p taker s) p.vault p.initializer authority [authority]
      (filled p.mint (o.offered - o.offered)) where
  held_at := by
    rw [u.read_emptied_vault]
    exact Token.unpack_pack _ (by simp [filled, Holding.opened])
  signed := by simp
  closer := rfl
  empty := by simp [filled, Holding.opened]
  fits := by
    rw [Store.read_putLamports, if_neg (Ne.symm u.initializer_ne_vault)]
    show ((emptied o p taker s).lamports p.initializer).toNat +
      ((emptied o p taker s).lamports p.vault).toNat < _
    rw [emptied, Token.lamports_transferred, Token.lamports_transferred]
    exact u.funds

theorem vacant_undone (u : Undoable o p taker s) :
    ((undone o p taker s).read p.vault).isVacant = true := by
  obtain ⟨hdata, howner⟩ := Token.closed_closedAt (emptied o p taker s) p.vault p.initializer
  exact Account.isVacant_iff.2
    ⟨Token.lamports_closedAt (Ne.symm u.initializer_ne_vault), hdata, howner⟩

theorem deposit_undone (u : Undoable o p taker s) : ((undone o p taker s).read p.deposit).data =
    { taker with amount := taker.amount + o.offered }.pack := by
  have hsame : ((undone o p taker s).read p.deposit).data =
      ((emptied o p taker s).read p.deposit).data := by
    rw [undone, Token.read_closedAt (Ne.symm u.deposit_ne_vault)]
    split <;> rfl
  rw [hsame, emptied, Token.read_transferred, if_neg (Ne.symm u.deposit_ne_vault),
    if_neg (Ne.symm u.deposit_ne_vault), if_pos rfl]

theorem lamports_undone (u : Undoable o p taker s) :
    ((undone o p taker s).lamports p.initializer).toNat =
      (s.lamports p.initializer).toNat + (s.lamports p.vault).toNat := by
  have hsum : (undone o p taker s).lamports p.initializer =
      s.lamports p.initializer + s.lamports p.vault := by
    rw [Store.lamports, undone, Token.read_closedAt (Ne.symm u.initializer_ne_vault), if_pos rfl,
      u.read_emptied_vault]
    show (emptied o p taker s).lamports p.initializer + _ = _
    rw [emptied, Token.lamports_transferred]
    rfl
  rw [hsum, UInt64.toNat_add, Nat.mod_eq_of_lt u.funds]

/-- The undoing leaves the balances of the accounts that it changes even. -/
theorem even_undone (u : Undoable o p taker s) {keys : List Key} (distinct : keys.Nodup)
    (beyond : ∀ k, k ∉ keys → (undone o p taker s).read k = s.read k) :
    Amount.total s.lamports keys = Amount.total (undone o p taker s).lamports keys := by
  have hvault : p.vault ∈ keys := by
    refine Decidable.byContradiction fun hnot => ?_
    have here := u.vault_at
    rw [← beyond _ hnot, undone, (Token.closed_closedAt _ _ _).1] at here
    cases here
  have hemptied : Amount.total s.lamports keys = Amount.total (emptied o p taker s).lamports keys :=
    Amount.total_congr fun k _ => (Token.lamports_transferred _ _ _ _ _ _ k).symm
  by_cases hinitializer : p.initializer ∈ keys
  · rw [hemptied, undone, Token.total_closedAt distinct hvault hinitializer u.mayClose]
  · -- then the vault has no balance to give to the initializer
    have hsame : (undone o p taker s).lamports p.initializer = s.lamports p.initializer :=
      congrArg Account.lamports (beyond _ hinitializer)
    have hpaid := u.lamports_undone
    rw [hsame] at hpaid
    have hnone : s.lamports p.vault = 0 := UInt64.toNat_inj.1 (by rw [UInt64.toNat_zero]; omega)
    refine Amount.total_congr fun k hk => ?_
    by_cases hkv : p.vault = k
    · rw [← hkv, hnone]
      exact (Token.lamports_closedAt (Ne.symm u.initializer_ne_vault)).symm
    · have hki : p.initializer ≠ k := fun h => hinitializer (h ▸ hk)
      show s.lamports k = ((closedAt (emptied o p taker s) p.vault p.initializer).read k).lamports
      rw [Token.read_closedAt hkv, if_neg hki]
      exact (Token.lamports_transferred _ _ _ _ _ _ k).symm

end Undoable

/-! ## the store that an opening leaves -/

def drained (held : Holding) (amount : Amount) : Holding := { held with amount := held.amount - amount }

namespace Opens

theorem executable_eq (opens : Opens o p held rent vaultRent s s') (k : Key) :
    (s'.read k).executable = (s.read k).executable := by
  by_cases hrecord : k = p.record
  · rw [hrecord, opens.record_at]
  by_cases hvault : k = p.vault
  · rw [hvault, opens.vault_at]
  · rw [opens.elsewhere k hrecord hvault]

theorem amount_drained (opens : Opens o p held rent vaultRent s s') :
    (drained held o.offered).amount.toNat = held.amount.toNat - o.offered.toNat :=
  UInt64.toNat_sub_of_le _ _ opens.covered

theorem unpack_vault (opens : Opens o p held rent vaultRent s s') :
    Holding.unpack (s'.read p.vault).data = .ok (filled p.mint o.offered) := by
  rw [opens.vault_at]
  exact Token.unpack_pack _ (by simp [filled, Holding.opened])

theorem unpack_deposit (opens : Opens o p held rent vaultRent s s') :
    Holding.unpack (s'.read p.deposit).data = .ok (drained held o.offered) := by
  rw [opens.elsewhere _ opens.deposit_ne_record opens.deposit_ne_vault]
  simp only [↓reduceIte]
  exact Token.unpack_pack (drained held o.offered) (Holding.unpack_eq_ok_iff.1 opens.held_at).2

theorem lamports_initializer (opens : Opens o p held rent vaultRent s s') :
    (s'.lamports p.initializer).toNat + rent.toNat + vaultRent.toNat =
      (s.lamports p.initializer).toNat := by
  have hread : s'.lamports p.initializer = s.lamports p.initializer - rent - vaultRent := by
    rw [Store.lamports, opens.elsewhere _ opens.initializer_ne_record opens.initializer_ne_vault]
    simp only [↓reduceIte]
    rfl
  have funds : rent.toNat + vaultRent.toNat ≤ (s.lamports p.initializer).toNat := opens.funds
  have hrent : rent ≤ s.lamports p.initializer := UInt64.le_iff_toNat_le.2 (by omega)
  have hsub := UInt64.toNat_sub_of_le _ _ hrent
  have hvault : vaultRent ≤ s.lamports p.initializer - rent :=
    UInt64.le_iff_toNat_le.2 (by rw [hsub]; omega)
  rw [hread, UInt64.toNat_sub_of_le _ _ hvault, hsub]
  omega

theorem lamports_vault (opens : Opens o p held rent vaultRent s s') :
    s'.lamports p.vault = vaultRent := by
  rw [Store.lamports, opens.vault_at]

theorem undoable (opens : Opens o p held rent vaultRent s s') :
    Undoable o p (drained held o.offered) s' where
  record_owner := by rw [opens.record_at]
  record_data := by rw [opens.record_at]
  vault_at := opens.unpack_vault
  taker_at := opens.unpack_deposit
  taker_mint := opens.held_mint
  room := by
    have := held.amount.toNat_lt
    have hle := UInt64.le_iff_toNat_le.1 opens.covered
    rw [opens.amount_drained, Nat.sub_add_cancel hle]
    exact this
  funds := by
    have := opens.lamports_initializer
    have := (s.lamports p.initializer).toNat_lt
    rw [opens.lamports_vault]
    show _ < 18446744073709551616
    omega
  deposit_ne_vault := opens.deposit_ne_vault
  initializer_ne_vault := opens.initializer_ne_vault

theorem deposit_undone (opens : Opens o p held rent vaultRent s s') :
    ((undone o p (drained held o.offered) s').read p.deposit).data = (s.read p.deposit).data := by
  have hsum : (drained held o.offered).amount + o.offered = held.amount := UInt64.sub_add_cancel _ _
  rw [opens.undoable.deposit_undone, hsum]
  exact (Holding.unpack_eq_ok_iff.1 opens.held_at).1.symm

theorem lamports_undone (opens : Opens o p held rent vaultRent s s') :
    ((undone o p (drained held o.offered) s').lamports p.initializer).toNat + rent.toNat =
      (s.lamports p.initializer).toNat := by
  rw [opens.undoable.lamports_undone, opens.lamports_vault, ← opens.lamports_initializer]
  omega

end Opens

/-! ## the instruction that undoes an opening -/

/-- the accounts that the undoing may write -/
def Parties.written (p : Parties) : List Key := [p.initializer, p.deposit, p.vault, p.record]

theorem writes_undoing (canonical : p.vault = vault) (other : Token.program ∉ p.written) :
    p.undoing.Writes p.written := by
  have hne : authority ≠ vault := by decide
  intro m hm
  simp only [Parties.undoing, List.mem_cons, List.not_mem_nil, or_false] at hm
  rcases hm with rfl | rfl | rfl | rfl | rfl | rfl
  · simp [Parties.written]
  · simp [Parties.written]
  · simp [Parties.written]
  · simp [Parties.written, canonical, hne]
  · simp [Parties.written]
  · simpa using other

/-- The calls of the end write the vault and one more of these accounts, with the signature of the
authority. -/
theorem handsOn_undoing (canonical : p.vault = vault) (other : Token.program ∉ p.written)
    {j : Instruction} {k : Key} (target : j.program = Token.program)
    (metas : j.metas = [⟨p.vault, false, true⟩, ⟨k, false, true⟩, ⟨authority, true, false⟩])
    (written : k ∈ p.written) : p.undoing.HandsOn j [authority] := by
  have present : ∀ key ∈ p.written, ∃ g ∈ p.undoing.metas, g.key = key := by
    simp [Parties.written, Parties.undoing]
  exact Instruction.handsOn_of_written (writes_undoing canonical other) present
    ⟨⟨Token.program, false, false⟩, by simp [Parties.undoing], target.symm⟩ metas
    (by simp [Parties.written]) written (by simp [Parties.undoing])
    (.inl (List.mem_singleton_self _)) (by simp)

theorem admits_of_small {j : Instruction} (target : j.program = Token.program)
    (data : j.data.length ≤ 9) (metas : j.metas.length ≤ 3) :
    program.topFrame.Admits j [⟨[authoritySeed], 255⟩] [authority] := by
  have other : j.program ≠ key := by
    rw [target]
    decide
  refine Program.admits_of_small rfl other data metas (Nat.le_refl 1) ?_
  exact congrArg (fun derived => [derived]) (Address.create_of_find find_authority)

theorem route?_open : program.route? openLayout.discriminator = some openRoute :=
  distinct.route?_eq (r := openRoute) (by simp [program])

theorem route?_cancel : program.route? cancelLayout.discriminator = some cancelRoute :=
  distinct.route?_eq (r := cancelRoute) (by simp [program])

theorem route?_undoing : program.route? (p.undoing.data.take 8) = some cancelRoute := by
  have hdata : p.undoing.data.take 8 = cancelLayout.discriminator :=
    List.take_left' cancelLayout.length_discriminator
  rw [hdata]
  exact route?_cancel

/-! ## the undoing -/

section

variable {l : Ledger} {i : Instruction}

/-- The accounts that the undoing writes are those that the opening wrote. -/
theorem modifiable_of_open {l' : Ledger} {f : Frame} {first last : Scene Ledger}
    (commit : program.Commit l i l' openRoute o f first last) (parties : p.Of i) {k : Key}
    (hk : k ∈ p.written) : (l.store.read k).executable = false := by
  have named : ∀ (name : String) {position : Nat} {spec : Spec},
      openLayout.position? name = some position → openLayout.specs[position]? = some spec →
      openLayout.keyOf? i name = some k → spec.access.writable = true →
      (l.store.read k).executable = false := by
    intro name position spec hposition hspec given writable
    obtain ⟨m, _, rfl, met⟩ := commit.met_named name hposition hspec given
    exact (met.writable writable).2
  simp only [Parties.written, List.mem_cons, List.not_mem_nil, or_false] at hk
  rcases hk with rfl | rfl | rfl | rfl
  · exact named "initializer" rfl rfl parties.initializer rfl
  · exact named "initializer_deposit" rfl rfl parties.deposit rfl
  · exact named "vault" rfl rfl parties.vault rfl
  · exact named "escrow" rfl rfl parties.record rfl

variable (u : Undoable o p taker l.store) (canonical : p.vault = vault)
  (modifiable : ∀ k ∈ p.written, (l.store.read k).executable = false)
  (installed : (l.store.read Token.program).executable = true)

theorem decode_record (h : (s.read p.record).data = (p.terms o).image) :
    Record.decode (s.read p.record).data = .ok (p.terms o) := by
  rw [h]
  exact Tag.decode_image _ _ _ _

include u canonical modifiable installed in
theorem accepts_undoing : program.Accepts l p.undoing 1 cancelRoute (255 : UInt8) := by
  have other := Store.not_written_of_installed modifiable installed
  have hdata : p.undoing.data.length = 9 := by
    show (cancelLayout.discriminator ++ Codec.byte.write (255 : UInt8)).length = 9
    rw [List.length_append, Layout.length_discriminator]
    rfl
  refine ⟨rfl, route?_cancel, rfl, ?_, ?_, by decide, Nat.le_refl _,
    (writes_undoing canonical other).consistent, ?_⟩
  · rw [hdata]
    decide
  · show 6 ≤ program.limits.accounts
    decide
  · intro position spec m hspec hm
    -- one case for each position of the layout
    rcases position with _ | _ | _ | _ | _ | _ | position
    · cases hspec; cases hm
      exact ⟨fun _ => rfl, fun _ => ⟨rfl, modifiable _ (by simp [Parties.written])⟩, nofun, nofun⟩
    · cases hspec; cases hm
      exact ⟨nofun, fun _ => ⟨rfl, modifiable _ (by simp [Parties.written])⟩, nofun, nofun⟩
    · cases hspec; cases hm
      exact ⟨nofun, fun _ => ⟨rfl, modifiable _ (by simp [Parties.written])⟩, nofun, nofun⟩
    · cases hspec; cases hm
      exact ⟨nofun, nofun, nofun, nofun⟩
    · cases hspec; cases hm
      refine ⟨nofun, fun _ => ⟨rfl, modifiable _ (by simp [Parties.written])⟩, nofun, ?_⟩
      intro tag htag
      cases htag
      exact ⟨u.record_owner, u.record_data ▸ Tag.fits_image _ _ _⟩
    · cases hspec; cases hm
      exact ⟨nofun, nofun, fun _ => installed, nofun⟩
    · cases hspec

include u canonical modifiable installed in
theorem returns_undoing (tokens : l.natives Token.program = some Token.native) :
    ∃ last, Returns Ledger.host program.topFrame (program.opened l p.undoing cancelLayout)
        (cancel (255 : UInt8)) () last ∧
      last.Level l cancelLayout p.undoing (undone o p taker l.store) := by
  have other := Store.not_written_of_installed modifiable installed
  have level : (program.opened l p.undoing cancelLayout).Level l cancelLayout p.undoing l.store :=
    Program.level_opened (r := cancelRoute) (Nat.le_refl 6)
  have moves := Token.carries_transfer u.mayTransfer
  obtain ⟨mid, hmove, emptied⟩ := level.invokes
    (j := Token.transfer p.vault p.deposit authority o.offered)
    (handsOn_undoing canonical other rfl rfl (by simp [Parties.written]))
    (admits_of_small rfl (by simp [Token.transfer, Codec.amount, Codec.iso, Codec.fixed])
      (by simp [Token.transfer]))
    installed tokens moves
  obtain ⟨last, hclose, undone⟩ := emptied.invokes
    (j := Token.close p.vault p.initializer authority)
    (handsOn_undoing canonical other rfl rfl (by simp [Parties.written]))
    (admits_of_small rfl (by simp [Token.close]) (by simp [Token.close]))
    ((moves.within.kind _).1.trans installed) tokens (Token.carries_close u.mayClose)
  refine ⟨last, (returns_cancel_iff level.seated level.shown rfl).2 ⟨p.terms o,
    ⟨p.record, rfl, rfl, decode_record u.record_data⟩, rfl, rfl, congrArg some canonical, ?_⟩, undone⟩
  simp only [releaseVault, Logic.returns_bind_iff, Logic.returns_positionOf_iff,
    level.seated.positionOf_eq_ok_iff, and_assoc, exists_eq_left]
  refine ⟨2, rfl, 1, rfl, 0, rfl, 3, rfl, (), mid, ?_, ?_⟩
  · simp only [Token.Call.transfer, Logic.returns_bind_iff, level.returns_keyAt_iff, and_assoc,
      exists_eq_left]
    exact ⟨p.vault, rfl, p.deposit, rfl, authority, rfl, hmove⟩
  · simp only [Token.Call.close, Logic.returns_bind_iff, emptied.returns_keyAt_iff, and_assoc,
      exists_eq_left]
    exact ⟨p.vault, rfl, p.initializer, rfl, authority, rfl, hclose⟩

include u canonical modifiable installed in
theorem undoing_commits (tokens : l.natives Token.program = some Token.native) :
    let undoing : Submission := ⟨p.undoing, 1, []⟩
    program.committed? l undoing = some p.undoing ∧
      ∀ k, (program.served l undoing).store.read k = (undone o p taker l.store).read k := by
  intro undoing
  obtain ⟨last, returns, level⟩ := returns_undoing u canonical modifiable installed tokens
  have accepts := accepts_undoing u canonical modifiable installed
  have other := Store.not_written_of_installed modifiable installed
  have unfrozen : ∀ m ∈ p.undoing.metas, m.writable = true →
      (l.store.read m.key).executable = false := fun m hm hw =>
    modifiable _ ((writes_undoing canonical other m hm).1 hw)
  obtain ⟨receipt, l', h, hread⟩ := Program.commits accepts returns level unfrozen
    fun _ distinct beyond => u.even_undone distinct beyond
  obtain ⟨hcommitted, hserved⟩ := Program.committed?_of_serve (s := undoing) h
  refine ⟨hcommitted, fun k => ?_⟩
  rw [hserved, hread]

end

theorem Parties.Of.unique {q : Parties} {i : Instruction} (hp : p.Of i) (hq : q.Of i) : p = q := by
  obtain ⟨initializer, mint, v, deposit, receive, record⟩ := p
  obtain ⟨initializer', mint', v', deposit', receive', record'⟩ := q
  cases hp.initializer.symm.trans hq.initializer
  cases hp.mint.symm.trans hq.mint
  cases hp.vault.symm.trans hq.vault
  cases hp.deposit.symm.trans hq.deposit
  cases hp.receive.symm.trans hq.receive
  cases hp.record.symm.trans hq.record
  rfl

/-- Nobody gets a deposit back from another vault than the canonical one. -/
theorem canonical_of_undone {l : Ledger}
    (commits : program.committed? l ⟨p.undoing, 1, []⟩ = some p.undoing) : p.vault = vault := by
  obtain ⟨bump, f, first, last, commit⟩ := Program.commit_of_committed? commits route?_undoing
  obtain ⟨terms, _, _, _, hvault, _⟩ :=
    (returns_cancel_iff commit.drafts.seated commit.shown commit.frame).1 commit.returns
  exact Option.some.inj hvault

/-- An opening that commits can be undone just if its vault is the canonical one.  The deposit is
then as it was before, byte for byte, the vault is vacant, and the initializer has paid for the
record alone. -/
theorem undo_of_open (l : Ledger) (s : Submission) (p : Parties)
    (tokens : l.natives Token.program = some Token.native)
    (installed : (l.store.read Token.program).executable = true)
    (opening : s.instruction.data.take 8 = openLayout.discriminator)
    (commits : program.committed? l s = some s.instruction) (parties : p.Of s.instruction) :
    let here := program.served l s
    let undoing : Submission := ⟨p.undoing, 1, []⟩
    let next := program.served here undoing
    (program.committed? here undoing = some p.undoing ↔ p.vault = vault) ∧
      (p.vault = vault →
        (next.store.read p.deposit).data = (l.store.read p.deposit).data ∧
        (next.store.read p.vault).isVacant = true ∧
        ∃ rent, Rent.minimum (Record.space Terms) = .ok rent ∧
          (next.store.lamports p.initializer).toNat + rent.toNat =
            (l.store.lamports p.initializer).toNat) := by
  intro here undoing next
  obtain ⟨o, f, first, last, commit⟩ :=
    Program.commit_of_committed? commits (opening ▸ route?_open)
  obtain ⟨q, held, rent, vaultRent, parties', opens⟩ := opens_of_commit commit tokens
  obtain rfl := parties.unique parties'
  have natives : here.natives Token.program = some Token.native :=
    (congrFun (Program.natives_served l s) _).trans tokens
  have modifiable : ∀ k ∈ p.written, (here.store.read k).executable = false := fun k hk =>
    (opens.executable_eq k).trans (modifiable_of_open commit parties hk)
  have executable : (here.store.read Token.program).executable = true :=
    (opens.executable_eq _).trans installed
  have undoes := fun canonical : p.vault = vault =>
    undoing_commits opens.undoable canonical modifiable executable natives
  refine ⟨⟨canonical_of_undone, fun canonical => (undoes canonical).1⟩, fun canonical => ?_⟩
  have hread := (undoes canonical).2
  refine ⟨?_, ?_, rent, opens.rent_eq, ?_⟩
  · rw [hread]
    exact opens.deposit_undone
  · rw [hread]
    exact opens.undoable.vacant_undone
  · rw [Store.lamports, hread]
    exact opens.lamports_undone

theorem market_undone :
    let here := program.served market opening
    let undoing : Submission := ⟨earlier.undoing, 1, []⟩
    program.committed? here undoing = some earlier.undoing ∧
      ((program.served here undoing).store.read earlier.deposit).data =
        (market.store.read earlier.deposit).data := by
  have parties : earlier.Of opening.instruction := ⟨rfl, rfl, rfl, rfl, rfl, rfl⟩
  have h := undo_of_open market opening earlier rfl (by decide +kernel) (by decide +kernel)
    (by decide +kernel) parties
  exact ⟨h.1.2 rfl, (h.2 rfl).1⟩

/-- the earlier party with the vault of another bump -/
def strayed : Parties :=
  { earlier with vault := .ofNat 0x76c3525ab3108cb921211bad33e855c1c44f9bca9c58d6c6ef6db4f8be45a61b }

/-- An opening with the vault of another bump commits, and its undoing does not. -/
theorem strayed_kept :
    let opening : Submission := ⟨strayed.opening ⟨253, 10, 1⟩, 1, []⟩
    program.committed? market opening = some opening.instruction ∧
      program.committed? (program.served market opening) ⟨strayed.undoing, 1, []⟩ = none := by
  decide +kernel

end AccountLedger.Escrow
