import AccountLedger.Proofs.Swap.Turns
import AccountLedger.Proofs.Token.Supply
import AccountLedger.Proofs.Wire
import AccountLedger.Token.Fixture
/-!
# What backs the liquidity of a pool

A liquidity token is worth a share of both vaults.  Deposits and withdrawals are priced so that each
vault backs a token at least as well as before, and a trade so that the product of both does.  The
accounts of the user may be the vaults themselves: the owner of the vaults does not sign, so nothing
is paid in out of a vault, and what is paid out of a vault to itself stays there.

* `share_mul_le`, `mul_le_payout`: prices are rounded in favour of the pool;
* `Reserves.Backs`: one side of a pool backs its liquidity as well as before;
* `Deposited.backs`, `Withdrawn.backs`, `Traded.grows`: what each instruction does to the reserves;
* `liquidity_undiluted`: no instruction that is executed with a pool dilutes its liquidity.
-/

namespace AccountLedger.Swap

open Token (Holding Stands Transfers tokens)

variable {i : Instruction} {p : Pool} {s s' : Store} {a b held : Holding}

/-! ## prices -/

theorem exactly_eq_ok {n : Nat} {x : Amount} (h : exactly n = .ok x) : x.toNat = n := by
  unfold exactly at h
  split at h
  · rename_i y hy
    cases h
    exact Amount.ofNat?_eq_some.1 hy
  · cases h

/-- Nobody gets more than a share. -/
theorem share_mul_le {amount part whole x : Amount} (h : share amount part whole = .ok x) :
    x.toNat * whole.toNat ≤ amount.toNat * part.toNat := by
  unfold share at h
  split at h
  · cases h
  · rw [exactly_eq_ok h]
    exact Nat.div_mul_le_self _ _

/-- What is left after a trade makes up for the product of the reserves. -/
theorem mul_le_payout {reserveIn reserveOut amountIn x : Amount} (filled : 0 < reserveIn)
    (h : payout reserveIn reserveOut amountIn = .ok x) :
    reserveIn.toNat * reserveOut.toNat ≤
      (reserveIn.toNat + amountIn.toNat) * (reserveOut.toNat - x.toNat) := by
  unfold payout at h
  split at h
  · cases h
  · have hin : 0 < reserveIn.toNat := UInt64.lt_iff_toNat_lt.1 filled
    have hd : 0 < reserveIn.toNat + amountIn.toNat := Nat.add_pos_left hin _
    -- the quotient is no more than the whole reserve, so nothing is cut off in the difference
    have hle : ceilDiv (reserveIn.toNat * reserveOut.toNat) (reserveIn.toNat + amountIn.toNat) ≤
        reserveOut.toNat := by
      refine ceilDiv_le hd ?_
      rw [Nat.mul_comm]
      exact Nat.mul_le_mul_left _ (Nat.le_add_right _ _)
    rw [exactly_eq_ok h, Nat.sub_sub_self hle, Nat.mul_comm (_ + _)]
    exact le_ceilDiv_mul hd

/-! ## reserves -/

/-- what lies in the vaults of a pool, and how much liquidity there is -/
structure Reserves where
  a : Nat
  b : Nat
  supply : Nat
deriving DecidableEq

/-- the reserves of a pool in a store -/
def Pool.reserves (p : Pool) (s : Store) : Reserves :=
  ⟨tokens s p.vaultA, tokens s p.vaultB, Token.supply s p.liquidityMint⟩

/-- Each side backs a token of the liquidity at least as well as before. -/
structure Reserves.Backs (r r' : Reserves) : Prop where
  a : r.a * r'.supply ≤ r'.a * r.supply
  b : r.b * r'.supply ≤ r'.b * r.supply

theorem Reserves.Backs.product {r r' : Reserves} (h : r.Backs r') :
    r.a * r.b * (r'.supply * r'.supply) ≤ r'.a * r'.b * (r.supply * r.supply) := by
  rw [Nat.mul_mul_mul_comm, Nat.mul_mul_mul_comm r'.a]
  exact Nat.mul_le_mul h.a h.b

/-- One side after a payment that earned no more than its share of the supply. -/
theorem backs_of_paid {x x' supply minted : Nat} (added : Nat) (paid : x + added ≤ x')
    (earned : minted * x ≤ added * supply) : x * (supply + minted) ≤ x' * supply := by
  calc x * (supply + minted) = x * supply + minted * x := by rw [Nat.mul_add, Nat.mul_comm minted]
    _ ≤ x * supply + added * supply := Nat.add_le_add_left earned _
    _ = (x + added) * supply := (Nat.add_mul _ _ _).symm
    _ ≤ x' * supply := Nat.mul_le_mul_right _ paid

/-- One side after a draft of no more than the share that was burnt. -/
theorem backs_of_drawn {x x' supply burnt : Nat} (drawn : Nat) (left : x ≤ x' + drawn)
    (share : drawn * supply ≤ x * burnt) : x * (supply - burnt) ≤ x' * supply := by
  rw [Nat.mul_sub]
  refine Nat.sub_le_of_le_add ?_
  calc x * supply ≤ (x' + drawn) * supply := Nat.mul_le_mul_right _ left
    _ = x' * supply + drawn * supply := Nat.add_mul _ _ _
    _ ≤ x' * supply + x * burnt := Nat.add_le_add_left share _

/-! ## the vaults -/

/-- the vaults of a pool are holdings of different mints whose owners do not sign -/
structure Vaulted (i : Instruction) (p : Pool) (a b : Holding) (s : Store) : Prop where
  vaultA : Stands s p.vaultA a
  vaultB : Stands s p.vaultB b
  mints : a.mint ≠ b.mint
  silentA : ¬ i.Signed a.owner
  silentB : ¬ i.Signed b.owner

namespace Vaulted

theorem ne (v : Vaulted i p a b s) : p.vaultA ≠ p.vaultB := by
  intro heq
  obtain ⟨_, ha⟩ := v.vaultA
  obtain ⟨_, hb⟩ := v.vaultB
  rw [heq] at ha
  have hmint := congrArg Holding.mint (Except.ok.inj (ha.symm.trans hb))
  exact v.mints hmint

/-- A step that closes nothing leaves the vaults, and takes from them in the name of their owners
only. -/
theorem step (v : Vaulted i p a b s) {takes : Key → Key → Prop}
    (fates : ∀ k, Token.Fate (takes k) (fun _ => False) (s.read k) (s'.read k)) :
    Vaulted i p a b s' ∧ (¬ takes p.vaultA a.owner → tokens s p.vaultA ≤ tokens s' p.vaultA) ∧
      (¬ takes p.vaultB b.owner → tokens s p.vaultB ≤ tokens s' p.vaultB) := by
  obtain ⟨vaultA, leA⟩ := (fates p.vaultA).stands v.vaultA id
  obtain ⟨vaultB, leB⟩ := (fates p.vaultB).stands v.vaultB id
  exact ⟨⟨vaultA, vaultB, v.mints, v.silentA, v.silentB⟩, leA, leB⟩

end Vaulted

/-- Who pays into a vault does not pay out of it, since its owner has not signed. -/
theorem tokens_paid {source v c : Key} {amount : Amount} (pays : Transfers s source v c amount s')
    (stands : Stands s v held) (signed : i.Signed c) (silent : ¬ i.Signed held.owner) :
    tokens s v + amount.toNat ≤ tokens s' v := by
  have hne : source ≠ v := by
    rintro rfl
    exact silent (pays.owner_eq stands ▸ signed)
  exact Nat.le_of_eq (pays.tokens_destination hne).symm

/-- What a vault pays to itself stays there. -/
theorem tokens_drawn {v destination c : Key} {amount : Amount}
    (draws : Transfers s v destination c amount s') : tokens s v ≤ tokens s' v + amount.toNat := by
  by_cases heq : v = destination
  · rw [draws.same_of_eq heq]
    exact Nat.le_add_right _ _
  · obtain ⟨hle, hrest⟩ := draws.tokens_source heq
    rw [hrest]
    exact Nat.le_of_eq (Nat.sub_add_cancel hle).symm

/-! ## the instructions -/

/-- What a deposit earns on one side is no more than the share that the side adds. -/
theorem earned_le {paid supply reserve side liquidity : Amount} (le : liquidity ≤ side)
    (price : share paid supply reserve = .ok side) :
    liquidity.toNat * reserve.toNat ≤ paid.toNat * supply.toNat :=
  Nat.le_trans (Nat.mul_le_mul_right _ (UInt64.le_iff_toNat_le.1 le)) (share_mul_le price)

theorem min_le_sides (x y : Amount) : min x y ≤ x ∧ min x y ≤ y := by
  show (if x ≤ y then x else y) ≤ x ∧ (if x ≤ y then x else y) ≤ y
  split
  · rename_i h
    exact ⟨UInt64.le_refl _, h⟩
  · rename_i h
    exact ⟨UInt64.le_of_lt (UInt64.not_le.1 h), UInt64.le_refl _⟩

/-- A deposit is paid in on both sides. -/
theorem Deposited.paid {d : Deposit} (h : Deposited i d p s s') (v : Vaulted i p a b s) :
    tokens s p.vaultA + d.amountA.toNat ≤ tokens s' p.vaultA ∧
      tokens s p.vaultB + d.amountB.toNat ≤ tokens s' p.vaultB := by
  obtain ⟨signed, _, _, _, _, sets, paysA, paysB, mints⟩ := h
  -- nobody takes from the vaults in the name of the depositor, who is not their owner
  have silent : ∀ {k c : Key} {held : Holding}, ¬ i.Signed held.owner → ¬ (k = c ∧ held.owner = _) :=
    fun quiet ht => quiet (ht.2 ▸ signed)
  obtain ⟨v₁, leA₁, leB₁⟩ := v.step sets.fate
  obtain ⟨v₂, _, leB₂⟩ := v₁.step paysA.fate
  obtain ⟨v₃, leA₃, _⟩ := v₂.step paysB.fate
  obtain ⟨_, leA₄, leB₄⟩ := v₃.step mints.fate
  have leA₁ := leA₁ id
  have leB₁ := leB₁ id
  have paidA := tokens_paid paysA v₁.vaultA signed v.silentA
  have leB₂ := leB₂ (silent v.silentB)
  have leA₃ := leA₃ (silent v.silentA)
  have paidB := tokens_paid paysB v₂.vaultB signed v.silentB
  have leA₄ := leA₄ id
  have leB₄ := leB₄ id
  omega

/-- Where there is liquidity, what is minted is on neither side more than the share that it adds. -/
theorem Deposited.earned {d : Deposit} (h : Deposited i d p s s')
    (outstanding : 0 < Token.supply s p.liquidityMint) :
    ∃ minted, Token.supply s' p.liquidityMint = Token.supply s p.liquidityMint + minted ∧
      minted * tokens s p.vaultA ≤ d.amountA.toNat * Token.supply s p.liquidityMint ∧
      minted * tokens s p.vaultB ≤ d.amountB.toNat * Token.supply s p.liquidityMint := by
  obtain ⟨-, -, -, mint_at, worth, sets, paysA, paysB, mints, -, -⟩ := h
  rename_i m liquidity _ _ filled
  have hsupply : Token.supply s p.liquidityMint = m.supply.toNat := Token.issued_of_unpack mint_at
  have hpositive : m.supply ≠ 0 := by
    intro hzero
    rw [hsupply, hzero, UInt64.toNat_zero] at outstanding
    exact Nat.lt_irrefl _ outstanding
  obtain ⟨x, y, sideA, sideB, hx, hy, priceA, priceB, hliquidity⟩ :
      ∃ x y sideA sideB, _ ∧ _ ∧ _ ∧ _ ∧ _ := by rwa [Worth, if_neg hpositive] at worth
  have hmin := min_le_sides sideA sideB
  rw [← hliquidity] at hmin
  refine ⟨liquidity.toNat, ?_, ?_, ?_⟩
  · have hsame := ((sets.steady.trans paysA.steady).trans paysB.steady).supply p.liquidityMint
    rw [(mints.grows p.liquidityMint).2, if_pos rfl, hsame]
  · rw [hsupply, Token.tokens_of_unpack hx]
    exact earned_le hmin.1 priceA
  · rw [hsupply, Token.tokens_of_unpack hy]
    exact earned_le hmin.2 priceB

theorem Deposited.backs {d : Deposit} (h : Deposited i d p s s') (v : Vaulted i p a b s)
    (outstanding : 0 < Token.supply s p.liquidityMint) : (p.reserves s).Backs (p.reserves s') := by
  obtain ⟨paidA, paidB⟩ := h.paid v
  obtain ⟨minted, hminted, earnedA, earnedB⟩ := h.earned outstanding
  refine ⟨?_, ?_⟩
  · show tokens s p.vaultA * Token.supply s' p.liquidityMint ≤
      tokens s' p.vaultA * Token.supply s p.liquidityMint
    rw [hminted]
    exact backs_of_paid d.amountA.toNat paidA earnedA
  · show tokens s p.vaultB * Token.supply s' p.liquidityMint ≤
      tokens s' p.vaultB * Token.supply s p.liquidityMint
    rw [hminted]
    exact backs_of_paid d.amountB.toNat paidB earnedB

/-- What is burnt of the liquidity was there before. -/
theorem Withdrawn.supply_add {w : Withdrawal} (h : Withdrawn i w p s s') (mint : Key) :
    Token.supply s' mint + (if p.liquidityMint = mint then w.amount.toNat else 0) =
      Token.supply s mint := by
  obtain ⟨_, _, _, _, _, _, _, drawsA, drawsB, burns⟩ := h
  rw [(burns.shrinks mint).2]
  exact (drawsA.steady.trans drawsB.steady).supply mint

theorem Withdrawn.backs {w : Withdrawal} (h : Withdrawn i w p s s') (v : Vaulted i p a b s) :
    (p.reserves s).Backs (p.reserves s') := by
  have hadd := h.supply_add p.liquidityMint
  obtain ⟨signed, -, mint_at, vaultA, vaultB, priceA, priceB, drawsA, drawsB, burns, -⟩ := h
  rename_i m x y amountA amountB drawn both
  have hsupply : Token.supply s p.liquidityMint = m.supply.toNat := Token.issued_of_unpack mint_at
  have hburnt : Token.supply s' p.liquidityMint =
      Token.supply s p.liquidityMint - w.amount.toNat := by
    rw [if_pos rfl] at hadd
    exact Nat.eq_sub_of_add_eq hadd
  have silent : ∀ {k c : Key} {held : Holding}, ¬ i.Signed held.owner → ¬ (k = c ∧ held.owner = _) :=
    fun quiet ht => quiet (ht.2 ▸ signed)
  obtain ⟨v₁, _, leB₁⟩ := v.step drawsA.fate
  obtain ⟨v₂, leA₂, _⟩ := v₁.step drawsB.fate
  obtain ⟨_, leA₃, leB₃⟩ := v₂.step burns.fate
  have drawnA := tokens_drawn drawsA
  have leB₁ := leB₁ fun ht => v.ne ht.1.symm
  have leA₂ := leA₂ fun ht => v.ne ht.1
  have drawnB := tokens_drawn drawsB
  have leA₃ := leA₃ (silent v.silentA)
  have leB₃ := leB₃ (silent v.silentB)
  refine ⟨?_, ?_⟩
  · show tokens s p.vaultA * Token.supply s' p.liquidityMint ≤
      tokens s' p.vaultA * Token.supply s p.liquidityMint
    rw [hburnt]
    refine backs_of_drawn amountA.toNat (by omega) ?_
    rw [hsupply, Token.tokens_of_unpack vaultA]
    exact share_mul_le priceA
  · show tokens s p.vaultB * Token.supply s' p.liquidityMint ≤
      tokens s' p.vaultB * Token.supply s p.liquidityMint
    rw [hburnt]
    refine backs_of_drawn amountB.toNat (by omega) ?_
    rw [hsupply, Token.tokens_of_unpack vaultB]
    exact share_mul_le priceB

/-- A trade makes no liquidity, and the product of the reserves does not fall. -/
theorem Traded.grows {t : Trade} (h : Traded i t p s s') (v : Vaulted i p a b s) :
    (p.reserves s').supply = (p.reserves s).supply ∧
      (p.reserves s).a * (p.reserves s).b ≤ (p.reserves s').a * (p.reserves s').b := by
  obtain ⟨signed, -, vaultA, vaultB, filled, price, pays, yields, -, -⟩ := h
  rename_i x y amountB paid
  refine ⟨(pays.steady.trans yields.steady).supply _, ?_⟩
  obtain ⟨v₁, _, leB₁⟩ := v.step pays.fate
  obtain ⟨_, leA₂, _⟩ := v₁.step yields.fate
  have paidA := tokens_paid pays v.vaultA signed v.silentA
  have leB₁ := leB₁ fun ht => v.silentB (ht.2 ▸ signed)
  have leA₂ := leA₂ fun ht => v.ne ht.1
  have drawnB := tokens_drawn yields
  have hA := Token.tokens_of_unpack vaultA
  have hB := Token.tokens_of_unpack vaultB
  calc tokens s p.vaultA * tokens s p.vaultB = x.amount.toNat * y.amount.toNat := by rw [hA, hB]
    _ ≤ (x.amount.toNat + t.amountA.toNat) * (y.amount.toNat - amountB.toNat) :=
      mul_le_payout filled.1 price
    _ ≤ tokens s' p.vaultA * tokens s' p.vaultB := Nat.mul_le_mul (by omega) (by omega)

/-! ## what commits -/

theorem Pool.reserves_congr (same : ∀ k, s'.read k = s.read k) : p.reserves s' = p.reserves s := by
  simp only [Pool.reserves, tokens, Token.supply, same]

section

variable {l l' : Ledger} {f : Frame} {first last : Scene Ledger} {record : Key}

theorem pool_of_names {r : Route} {params : r.Params} {q : Pool}
    (commit : program.Commit l i l' r params f first last) (executed : recordOf? i = some record)
    (here : pool? l.store record = some p) (names : Names r.layout i l.store q) : q = p := by
  obtain ⟨record', hrecord, hpool⟩ := names
  cases (recordOf?_eq commit).symm.trans executed |>.symm.trans hrecord
  exact Except.ok.inj (hpool.symm.trans (poolIn_eq_some_iff.1 here).2)

variable (tokens : l.natives Token.program = some Token.native)
  (executed : recordOf? i = some record) (here : pool? l.store record = some p)

section

include tokens executed here

/-- A deposit that commits has taken its steps, with the pool on record, and the ledger holds what
they left. -/
theorem deposited_of_commit {d : Deposit}
    (commit : program.Commit l i l' depositRoute d f first last)
    (associated : l.natives Token.Associated.program = some Token.Associated.native) :
    ∃ now, Deposited i d p l.store now ∧ ∀ k, l'.store.read k = now.read k := by
  obtain ⟨q, now, names, deposited, drafts⟩ :=
    deposited_of_returns commit.drafts commit.shown tokens associated commit.returns
  obtain rfl := pool_of_names commit executed here names
  exact ⟨now, deposited, commit.settled now drafts.mirrors⟩

theorem traded_of_commit {t : Trade} (commit : program.Commit l i l' tradeRoute t f first last) :
    ∃ now, Traded i t p l.store now ∧ ∀ k, l'.store.read k = now.read k := by
  obtain ⟨q, now, names, traded, drafts⟩ :=
    traded_of_returns commit.drafts commit.shown commit.frame tokens commit.returns
  obtain rfl := pool_of_names commit executed here names
  exact ⟨now, traded, commit.settled now drafts.mirrors⟩

theorem withdrawn_of_commit {w : Withdrawal}
    (commit : program.Commit l i l' withdrawRoute w f first last) :
    ∃ now, Withdrawn i w p l.store now ∧ ∀ k, l'.store.read k = now.read k := by
  obtain ⟨q, now, names, withdrawn, drafts⟩ :=
    withdrawn_of_returns commit.drafts commit.shown commit.frame tokens commit.returns
  obtain rfl := pool_of_names commit executed here names
  exact ⟨now, withdrawn, commit.settled now drafts.mirrors⟩

end

variable (v : Vaulted i p a b l.store)

include tokens executed here v

theorem backs_of_deposit {d : Deposit}
    (commit : program.Commit l i l' depositRoute d f first last)
    (associated : l.natives Token.Associated.program = some Token.Associated.native)
    (outstanding : 0 < Token.supply l.store p.liquidityMint) :
    (p.reserves l.store).Backs (p.reserves l'.store) := by
  obtain ⟨now, deposited, same⟩ := deposited_of_commit tokens executed here commit associated
  rw [Pool.reserves_congr same]
  exact deposited.backs v outstanding

theorem backs_of_withdraw {w : Withdrawal}
    (commit : program.Commit l i l' withdrawRoute w f first last) :
    (p.reserves l.store).Backs (p.reserves l'.store) := by
  obtain ⟨now, withdrawn, same⟩ := withdrawn_of_commit tokens executed here commit
  rw [Pool.reserves_congr same]
  exact withdrawn.backs v

theorem grows_of_trade {t : Trade} (commit : program.Commit l i l' tradeRoute t f first last) :
    (p.reserves l'.store).supply = (p.reserves l.store).supply ∧
      (p.reserves l.store).a * (p.reserves l.store).b ≤
        (p.reserves l'.store).a * (p.reserves l'.store).b := by
  obtain ⟨now, traded, same⟩ := traded_of_commit tokens executed here commit
  rw [Pool.reserves_congr same]
  exact traded.grows v

end

theorem route?_deposit : program.route? depositLayout.discriminator = some depositRoute :=
  distinct.route?_eq (r := depositRoute) (by simp [program])

theorem route?_trade : program.route? tradeLayout.discriminator = some tradeRoute :=
  distinct.route?_eq (r := tradeRoute) (by simp [program])

theorem route?_withdraw : program.route? withdrawLayout.discriminator = some withdrawRoute :=
  distinct.route?_eq (r := withdrawRoute) (by simp [program])

/-- A deposit, a trade or a withdrawal that is executed with the record of a pool does not dilute its
liquidity: the product of the vaults, for each token of the liquidity squared, does not fall, and a
deposit or a withdrawal lowers neither side.  The accounts of the user may be any. -/
theorem liquidity_undiluted (l : Ledger) (s : Submission) (record : Key) (p : Pool) (a b : Holding)
    (installed : l.natives Token.program = some Token.native)
    (associated : l.natives Token.Associated.program = some Token.Associated.native)
    (here : pool? l.store record = some p)
    (vaultA : Holding.unpack (l.store.read p.vaultA).data = .ok a)
    (vaultB : Holding.unpack (l.store.read p.vaultB).data = .ok b) (mints : a.mint ≠ b.mint)
    (derivedA : Address.Derived key a.owner) (derivedB : Address.Derived key b.owner)
    (outstanding : 0 < Token.supply l.store p.liquidityMint)
    (executed : recordOf? s.instruction = some record)
    (kind : s.instruction.data.take 8 ∈
      [depositLayout.discriminator, tradeLayout.discriminator, withdrawLayout.discriminator])
    (unsigned : ∀ k, Address.Derived key k → s.instruction.Unsigned k) :
    let r := p.reserves l.store
    let r' := p.reserves (program.served l s).store
    r.a * r.b * (r'.supply * r'.supply) ≤ r'.a * r'.b * (r.supply * r.supply) ∧
      (s.instruction.data.take 8 ≠ tradeLayout.discriminator →
        r.a * r'.supply ≤ r'.a * r.supply ∧ r.b * r'.supply ≤ r'.b * r.supply) := by
  intro r r'
  have silent : ∀ {k}, Address.Derived key k → ¬ s.instruction.Signed k := by
    rintro k derived ⟨m, hm, signer, hkey⟩
    exact unsigned k derived m hm signer hkey
  have v : Vaulted s.instruction p a b l.store :=
    ⟨⟨a.amount, vaultA⟩, ⟨b.amount, vaultB⟩, mints, silent derivedA, silent derivedB⟩
  have backs_or_grows : r.Backs r' ∨ s.instruction.data.take 8 = tradeLayout.discriminator ∧
      r'.supply = r.supply ∧ r.a * r.b ≤ r'.a * r'.b := by
    rcases Program.served_cases (p := program) l s with
      ⟨_, hstore⟩ | ⟨_, route, params, f, first, last, commit⟩
    · have hsame : r' = r := congrArg p.reserves hstore
      rw [hsame]
      exact .inl ⟨Nat.le_refl _, Nat.le_refl _⟩
    simp only [List.mem_cons, List.not_mem_nil, or_false] at kind
    rcases kind with kind | kind | kind
    · obtain rfl : route = depositRoute := commit.route_unique (kind ▸ route?_deposit)
      exact .inl (backs_of_deposit installed executed here v commit associated outstanding)
    · obtain rfl : route = tradeRoute := commit.route_unique (kind ▸ route?_trade)
      exact .inr ⟨kind, grows_of_trade installed executed here v commit⟩
    · obtain rfl : route = withdrawRoute := commit.route_unique (kind ▸ route?_withdraw)
      exact .inl (backs_of_withdraw installed executed here v commit)
  rcases backs_or_grows with backs | ⟨traded, supply, product⟩
  · exact ⟨backs.product, fun _ => ⟨backs.a, backs.b⟩⟩
  · rw [supply]
    exact ⟨Nat.mul_le_mul_right _ product, fun other => absurd traded other⟩

/-- a pool whose vaults hold 100 and 50 tokens for a supply of 70 -/
def pond : Pool := ⟨.ofNat 2, .ofNat 12, .ofNat 13, .ofNat 22, .ofNat 23, .ofNat 14⟩

/-- a ledger with this pool, on which the creator holds 30 tokens of the liquidity -/
def stocked : Ledger :=
  let unset : Token.Clearable Key := ⟨false, .ofNat 0⟩
  let ofTokens (key : Nat) (data : Bytes) : Account :=
    { key := .ofNat key, lamports := 10000000, data, owner := Token.program }
  let mint (authority : Token.Clearable Key) (supply : Amount) : Bytes :=
    (⟨authority, supply, 0, true, unset⟩ : Token.Mint).pack
  let holding (mint : Nat) (owner : Key) (amount : Amount) : Bytes :=
    (Holding.opened (.ofNat mint) owner amount []).pack
  let record : Account :=
    { key := .ofNat 21, lamports := 10000000, data := pond.image, owner := key }
  [{ key := .ofNat 2, lamports := 1000000000 }, record, ofTokens 12 (mint unset 107),
    ofTokens 13 (mint unset 53), ofTokens 14 (mint ⟨true, liquidityAuthority⟩ 70),
    ofTokens 22 (holding 12 authority 100), ofTokens 23 (holding 13 authority 50),
    ofTokens 24 (holding 12 (.ofNat 2) 7), ofTokens 25 (holding 13 (.ofNat 2) 3),
    ofTokens 26 (holding 14 (.ofNat 2) 30)].foldl Ledger.addAccount Ledger.start.withTokens

theorem stocked_vaults :
    Holding.unpack (stocked.store.read pond.vaultA).data =
        .ok (.opened (.ofNat 12) authority 100 []) ∧
      Holding.unpack (stocked.store.read pond.vaultB).data =
        .ok (.opened (.ofNat 13) authority 50 []) := by
  have packed : (stocked.store.read pond.vaultA).data =
        (Holding.opened (.ofNat 12) authority 100 []).pack ∧
      (stocked.store.read pond.vaultB).data =
        (Holding.opened (.ofNat 13) authority 50 []).pack := by
    decide +kernel
  rw [packed.1, packed.2]
  exact ⟨Token.unpack_pack _ (by simp [Holding.opened]), Token.unpack_pack _ (by simp [Holding.opened])⟩

/-- the creator burns its liquidity -/
def drawing : Submission where
  instruction :=
    { program := key
      metas := [⟨.ofNat 2, true, true⟩, ⟨.ofNat 14, false, true⟩, ⟨.ofNat 24, false, true⟩,
        ⟨.ofNat 25, false, true⟩, ⟨.ofNat 26, false, true⟩, ⟨.ofNat 22, false, true⟩,
        ⟨.ofNat 23, false, true⟩, ⟨authority, false, false⟩, ⟨.ofNat 21, false, false⟩,
        ⟨Token.program, false, false⟩]
      data := withdrawRoute.data (⟨30, 255⟩ : Withdrawal) }
  height := 1
  callStack := []

theorem stocked_undiluted :
    let next := program.served stocked drawing
    program.committed? stocked drawing = some drawing.instruction ∧
      pond.reserves stocked.store = ⟨100, 50, 70⟩ ∧ pond.reserves next.store = ⟨58, 29, 40⟩ ∧
      100 * 50 * (40 * 40) ≤ 58 * 29 * (70 * 70) ∧ 100 * 40 ≤ 58 * 70 ∧ 50 * 40 ≤ 29 * 70 := by
  have run : program.committed? stocked drawing = some drawing.instruction ∧
      pond.reserves stocked.store = ⟨100, 50, 70⟩ ∧
      pond.reserves (program.served stocked drawing).store = ⟨58, 29, 40⟩ := by
    decide +kernel
  have derived : Address.Derived key authority := .of_find find_authority
  -- the creator's key is a point of the curve, so it is no address of the program
  have curve : Curve.onCurve (.ofNat 2) = true := by decide +kernel
  have signer : ∀ m ∈ drawing.instruction.metas, m.signer = true → m.key = .ofNat 2 := by
    decide +kernel
  have unsigned : ∀ k, Address.Derived key k → drawing.instruction.Unsigned k := by
    rintro _ derived m hm hsigner rfl
    rw [signer m hm hsigner] at derived
    exact Bool.false_ne_true (derived.onCurve.symm.trans curve)
  have h := liquidity_undiluted stocked drawing (.ofNat 21) pond _ _ rfl rfl (by decide +kernel)
    stocked_vaults.1 stocked_vaults.2 (by decide) derived derived (by decide +kernel) (by decide +kernel)
    (by decide +kernel) unsigned
  rw [run.2.1, run.2.2] at h
  exact ⟨run.1, run.2.1, run.2.2, h.1, h.2 (by decide +kernel)⟩

end AccountLedger.Swap
