import AccountLedger.Proofs.Swap.Turns
/-!
# What accounts stay

A mint that was handed over, a vault and the record of a pool stay what they are, whatever the swap
program carries out, until a vault is closed.  And an account that is no holding does not become one,
unless it is made a vault, or is the associated holding of a depositor.

* `Lasts`: what one account stays, where a holding may have been shut or opened;
* `Lasts.of_deed`: what a step of the token program leaves of an account;
* `Created.lasting`, `Deposited.lasting` and the like: what the instructions leave of all accounts.
-/

namespace AccountLedger

namespace Token.Associated

/-- some wallet has its holding of some mint set apart under the key -/
def SetApart (k : Key) : Prop := ∃ wallet mint, address wallet mint = .ok k

theorem search_of_address {wallet mint k : Key} (h : address wallet mint = .ok k) :
    ∃ bump, Address.search (candidate wallet mint) Address.bumps = some (k, bump) := by
  -- unfolded as a function: applied to its arguments it would be evaluated, bump after bump
  obtain ⟨f, hf⟩ : ∃ f, f = address := ⟨_, rfl⟩
  rw [← hf] at h
  delta address at hf
  subst hf
  dsimp only at h
  generalize Address.search (candidate wallet mint) Address.bumps = found at *
  cases found with
  | none => cases h
  | some found => exact ⟨found.2, congrArg some (Prod.ext (Except.ok.inj h) rfl)⟩

/-- Nobody has a private key for an associated holding. -/
theorem SetApart.onCurve {k : Key} (h : SetApart k) : Curve.onCurve k = false := by
  obtain ⟨wallet, mint, h⟩ := h
  obtain ⟨bump, hsearch⟩ := search_of_address h
  obtain ⟨rfl, _, _, _, hoff, _⟩ := Address.search_eq_some_iff.1 hsearch
  exact hoff

end Token.Associated

namespace Swap

open Token (Deed Holding Mint Stands not_holding_of_mint not_holding_of_vacant)
open Token.Associated (SetApart)

/-! ## one account -/

variable {a a' a'' : Account}

/-- the tokens of the mint are the authority's to make -/
def MadeBy (o : Key) (a : Account) : Prop :=
  ∃ m, Mint.unpack a.data = .ok m ∧ m.authority.get? = some o

/-- the account is no holding -/
def Unopened (a : Account) : Prop := ∀ held, Holding.unpack a.data ≠ .ok held

theorem Unopened.of_length (h : a.data.length ≠ Holding.size) : Unopened a := by
  intro held hheld
  rw [(Holding.unpack_eq_ok_iff.1 hheld).1, Holding.length_pack] at h
  exact h rfl

/-- What an account stays: a mint whose tokens the liquidity authority makes, the record of a pool, a
holding unless it may be shut, and no holding unless one may be opened. -/
structure Lasts (shut opened : Prop) (a a' : Account) : Prop where
  minted : MadeBy liquidityAuthority a → MadeBy liquidityAuthority a'
  record : ∀ p, poolIn a = some p → poolIn a' = some p
  held : ¬ shut → ∀ held, Holding.unpack a.data = .ok held →
    ∃ amount, Holding.unpack a'.data = .ok { held with amount }
  unopened : ¬ opened → Unopened a → Unopened a'

namespace Lasts

variable {shut opened : Prop}

theorem of_same (data : a'.data = a.data) (owner : a'.owner = a.owner) : Lasts shut opened a a' where
  minted h := by rwa [MadeBy, data]
  record p hp := by rwa [poolIn, data, owner]
  held _ held hheld := ⟨held.amount, data ▸ hheld⟩
  unopened _ h := by rwa [Unopened, data]

theorem trans (h : Lasts shut opened a a') (h' : Lasts shut opened a' a'') :
    Lasts shut opened a a'' where
  minted hm := h'.minted (h.minted hm)
  record p hp := h'.record p (h.record p hp)
  held unshut held hheld := by
    obtain ⟨amount, hheld'⟩ := h.held unshut held hheld
    exact h'.held unshut { held with amount } hheld'
  unopened hk hu := h'.unopened hk (h.unopened hk hu)

theorem of_holding {held : Holding} (here : Holding.unpack a.data = .ok held)
    (stays : ¬ shut → ∃ amount, Holding.unpack a'.data = .ok { held with amount }) :
    Lasts shut opened a a' where
  minted := fun ⟨_, hm, _⟩ => absurd here (not_holding_of_mint hm held)
  record _ := Spared.no_pool (Nat.le_of_eq
    ((congrArg List.length (Holding.unpack_eq_ok_iff.1 here).1).trans held.length_pack))
  held unshut other hother := by
    cases here.symm.trans hother
    exact stays unshut
  unopened _ h := absurd here (h held)

theorem of_mint {m : Mint} (here : Mint.unpack a.data = .ok m) (stays : ∃ m', Mint.unpack a'.data = .ok m' ∧
    (m.authority.get? = some liquidityAuthority → m'.authority.get? = some liquidityAuthority)) :
    Lasts shut opened a a' where
  minted := by
    rintro ⟨_, hm, holder⟩
    cases here.symm.trans hm
    obtain ⟨m', hm', handed⟩ := stays
    exact ⟨m', hm', handed holder⟩
  record _ := Spared.no_pool (by rw [(Mint.unpack_eq_ok_iff.1 here).1, Mint.length_pack]; decide)
  held _ held hheld := absurd hheld (not_holding_of_mint here held)
  unopened _ _ := by
    obtain ⟨m', hm', _⟩ := stays
    exact not_holding_of_mint hm'

theorem of_vacant (vacant : a.isVacant = true) (stays : ¬ opened → Unopened a') :
    Lasts shut opened a a' where
  minted := by
    rintro ⟨m, hm, _⟩
    have hlength := congrArg List.length (Mint.unpack_eq_ok_iff.1 hm).1
    rw [(Account.isVacant_iff.1 vacant).2.1, Mint.length_pack] at hlength
    cases hlength
  record _ := Spared.no_pool (by rw [(Account.isVacant_iff.1 vacant).2.1]; exact Nat.zero_le _)
  held _ held hheld := absurd hheld (not_holding_of_vacant vacant held)
  unopened closed _ := stays closed

/-- A mint stays the liquidity authority's where that one does not hand it on. -/
theorem of_deed {takes closes hands : Key → Prop} {opens : Prop}
    (deed : Deed takes closes hands opens a a') (keeps : ¬ hands liquidityAuthority)
    (shuts : ∀ o, closes o → shut) (allows : opens → opened) : Lasts shut opened a a' := by
  cases deed with
  | kept data owner => exact of_same data owner
  | @repacked held amount here data _ _ =>
    refine of_holding here fun _ => ⟨amount, ?_⟩
    rw [data]
    exact Token.unpack_pack { held with amount } (Holding.unpack_eq_ok_iff.1 here).2
  | @remade m m' here data initialized _ handed =>
    have here' : Mint.unpack a'.data = .ok m' :=
      Mint.unpack_eq_ok_iff.2 ⟨data, initialized.trans (Mint.unpack_eq_ok_iff.1 here).2⟩
    refine of_mint here ⟨m', here', fun holder => ?_⟩
    rcases handed with same | ⟨o, ho, hands⟩
    · rw [same, holder]
    · cases holder.symm.trans ho
      exact absurd hands keeps
  | shut here _ closer => exact of_holding here fun unshut => absurd (shuts _ closer) unshut
  | opened here vacant => exact of_vacant vacant fun closed => absurd (allows here) closed

end Lasts

/-! ## all accounts -/

variable {l : Ledger} {i : Instruction} {s s' s'' : Store} {p : Pool} {record k : Key}
  {shut : List Key} {opened : Key → Prop}

/-- what all accounts stay, where holdings may have been shut and opened -/
def Lasting (shut : List Key) (opened : Key → Prop) (s s' : Store) : Prop :=
  ∀ k, Lasts (k ∈ shut) (opened k) (s.read k) (s'.read k)

namespace Lasting

theorem trans (h : Lasting shut opened s s') (h' : Lasting shut opened s' s'') :
    Lasting shut opened s s'' := fun k => (h k).trans (h' k)

theorem stands (h : Lasting shut opened s s') (unshut : k ∉ shut) {held : Holding}
    (stands : Stands s k held) : Stands s' k held := by
  obtain ⟨amount, here⟩ := stands
  exact (h k).held unshut { held with amount } here

end Lasting

/-! ## calls -/

theorem lasting_of_deeds {takes closes hands : Key → Key → Prop} {opens : Key → Prop}
    (deeds : ∀ k, Deed (takes k) (closes k) (hands k) (opens k) (s.read k) (s'.read k))
    (keeps : ∀ k, ¬ hands k liquidityAuthority) (shuts : ∀ k o, closes k o → k ∈ shut)
    (allows : ∀ k, opens k → opened k) : Lasting shut opened s s' := fun k =>
  .of_deed (deeds k) (keeps k) (shuts k) (allows k)

/-- What only moves tokens leaves all accounts what they are. -/
theorem lasting_of_moves {takes : Key → Key → Prop}
    (deeds : ∀ k, Deed (takes k) (fun _ => False) (fun _ => False) False (s.read k) (s'.read k)) :
    Lasting shut opened s s' :=
  lasting_of_deeds deeds (fun _ => id) nofun nofun

theorem lasting_closed {v destination holder : Key} (h : Token.Closes s v destination holder s')
    (allowed : v ∈ shut) : Lasting shut opened s s' :=
  lasting_of_deeds h.deed (fun _ => id) (fun _ _ hc => hc.1 ▸ allowed) nofun

theorem lasting_made {payer v mint : Key} (h : Token.Makes s payer v mint authority s')
    (allowed : opened v) : Lasting shut opened s s' :=
  lasting_of_deeds h.deed (fun _ => id) nofun fun _ hk => hk ▸ allowed

theorem lasting_setApart {payer receiver wallet mint : Key}
    (h : Token.Associated.Opened s payer receiver wallet mint s') (allowed : opened receiver) :
    Lasting shut opened s s' :=
  lasting_of_deeds h.deed (fun _ => id) nofun fun _ hk => hk ▸ allowed

theorem lasting_recorded {payer owner : Key} {rent : Amount} {space : Nat} {data : Bytes}
    (vacant : (s.read record).isVacant = true) (size : data.length ≠ Holding.size) :
    Lasting shut opened s ((s.made payer record rent space owner).putData record data) := by
  intro k
  rw [Store.read_filled]
  by_cases hk : record = k
  · rw [if_pos hk]
    exact .of_vacant (hk ▸ vacant) fun _ => .of_length size
  · rw [if_neg hk]
    have paid : Deed (fun _ => False) (fun _ => False) (fun _ => False) False (s.read k) _ :=
      .paid s payer ((s.read payer).lamports - rent) k
    exact .of_deed paid id nofun nofun

/-! ## instructions -/

theorem Pool.length_image (p : Pool) : p.image.length = Record.space Pool :=
  Tag.length_image (by rw [Pool.length_write]; decide)

theorem Created.lasting (h : Created record p s s') (unsigned : p.creator ≠ liquidityAuthority) :
    pool? s' record = some p ∧ Lasting [] (· ∈ p.vaults) s s' := by
  obtain @⟨rent, nowA, nowB, vacant, -, -, makesA, makesB, hands⟩ := h
  have recorded : Lasting [] (· ∈ p.vaults) s
      ((s.made p.creator record rent (Record.space Pool) key).putData record p.image) :=
    lasting_recorded vacant (by rw [p.length_image]; decide)
  have hpool := pool?_recorded s p record rent
  generalize (s.made p.creator record rent (Record.space Pool) key).putData record p.image = now at *
  have handed : Lasting [] (· ∈ p.vaults) nowB s' :=
    lasting_of_deeds hands.deed (fun _ h => unsigned h.2.symm) nofun nofun
  have since := ((lasting_made makesA (mem_vaultA p)).trans (lasting_made makesB (mem_vaultB p))).trans
    handed
  exact ⟨(since record).record p hpool, recorded.trans since⟩

theorem Deposited.lasting {d : Deposit} (h : Deposited i d p s s') :
    Lasting shut SetApart s s' := by
  obtain ⟨_, _, address, _, _, sets, paysA, paysB, mints⟩ := h
  exact (((lasting_setApart sets ⟨_, _, address⟩).trans (lasting_of_moves paysA.deed)).trans
    (lasting_of_moves paysB.deed)).trans (lasting_of_moves mints.deed)

theorem Traded.lasting {t : Trade} (h : Traded i t p s s') : Lasting shut opened s s' := by
  obtain ⟨_, _, _, _, _, _, pays, yields⟩ := h
  exact (lasting_of_moves pays.deed).trans (lasting_of_moves yields.deed)

theorem Withdrawn.lasting {w : Withdrawal} (h : Withdrawn i w p s s') :
    Lasting shut opened s s' := by
  obtain ⟨_, _, _, _, _, _, _, drawsA, drawsB, burns⟩ := h
  exact ((lasting_of_moves drawsA.deed).trans (lasting_of_moves drawsB.deed)).trans
    (lasting_of_moves burns.deed)

theorem Shut.lasting (h : Shut i p s s') : Lasting p.vaults opened s s' := by
  obtain ⟨_, _, closesA, closesB⟩ := h
  exact (lasting_closed closesA (mem_vaultA p)).trans (lasting_closed closesB (mem_vaultB p))

end Swap

end AccountLedger
