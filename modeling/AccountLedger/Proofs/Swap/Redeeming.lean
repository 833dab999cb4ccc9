import AccountLedger.Proofs.Carried
import AccountLedger.Proofs.Swap.Backing
/-!
# Redeeming liquidity

A holder burns all of its liquidity at once and is paid its share of both vaults.  This goes through
if the accounts hold what they should, and the destinations have room for the payments.

* `Keeps.transfers`, `Keeps.burns`: what a call of the token program needs of the accounts that it
  changes, and what it leaves;
* `Pooled.redeems`: the calls of a withdrawal go through, one after the other, and leave a pool;
* `redeeming_commits`: so the withdrawal commits.
-/

namespace AccountLedger.Swap

open Logic (Returns)
open Token (Holding Mint MayTransfer MayBurn transferred burnt tokens)
open InnerCall (Carries writableKeys)

variable {s s' s'' : Store} {k k' mint mint' mint₁ mint₂ owner owner' record : Key}
  {n n' a b supply x y : Amount} {p : Pool} {j : Instruction}

/-! ## accounts of the token program -/

/-- an account that may be written, with so many tokens of a mint that belong to an owner -/
structure Keeps (s : Store) (k mint owner : Key) (n : Amount) : Prop where
  program : (s.read k).owner = Token.program
  modifiable : (s.read k).executable = false
  held : ∃ held, Holding.unpack (s.read k).data = .ok held ∧ held.mint = mint ∧ held.owner = owner ∧
    held.amount = n

/-- an account that may be written, with a mint of which so many tokens were made -/
structure Issues (s : Store) (k : Key) (n : Amount) : Prop where
  program : (s.read k).owner = Token.program
  modifiable : (s.read k).executable = false
  mint : ∃ m, Mint.unpack (s.read k).data = .ok m ∧ m.supply = n

namespace Keeps

theorem congr (keeps : Keeps s k mint owner n) (same : s'.read k = s.read k) :
    Keeps s' k mint owner n := by
  obtain ⟨program, modifiable, held⟩ := keeps
  exact ⟨same ▸ program, same ▸ modifiable, same ▸ held⟩

theorem of_pack {held : Holding} (data : (s.read k).data = held.pack)
    (initialized : held.state = .initialized) (program : (s.read k).owner = Token.program)
    (modifiable : (s.read k).executable = false) : Keeps s k held.mint held.owner held.amount := by
  refine ⟨program, modifiable, held, ?_, rfl, rfl, rfl⟩
  rw [data]
  exact Token.unpack_pack held (by rw [initialized]; decide)

theorem ne_of_mint (keeps : Keeps s k mint owner n) (other : Keeps s k' mint' owner' n')
    (differ : mint ≠ mint') : k ≠ k' := by
  rintro rfl
  obtain ⟨held, here, hmint, _⟩ := keeps.held
  obtain ⟨held', here', hmint', _⟩ := other.held
  cases here.symm.trans here'
  exact differ (hmint.symm.trans hmint')

theorem ne_of_issues (keeps : Keeps s k mint owner n) (issues : Issues s k' n') : k ≠ k' := by
  rintro rfl
  obtain ⟨held, here, _⟩ := keeps.held
  obtain ⟨m, here', _⟩ := issues.mint
  exact Token.not_holding_of_mint here' held here

theorem tokens_eq (keeps : Keeps s k mint owner n) : tokens s k = n.toNat := by
  obtain ⟨held, here, _, _, rfl⟩ := keeps.held
  exact Token.tokens_of_unpack here

/-- A holding that is put back with another amount. -/
theorem repacked {held : Holding} (keeps : Keeps s k mint owner n)
    (here : Holding.unpack (s.read k).data = .ok held) (amount : Amount)
    (read : s'.read k = { s.read k with data := { held with amount }.pack }) :
    Keeps s' k mint owner amount := by
  obtain ⟨program, modifiable, held', here', hmint, howner, _⟩ := keeps
  cases here.symm.trans here'
  rw [← hmint, ← howner]
  refine ⟨by rw [read]; exact program, by rw [read]; exact modifiable, { held with amount }, ?_, rfl,
    rfl, rfl⟩
  rw [read]
  exact Token.unpack_pack { held with amount } (Holding.unpack_eq_ok_iff.1 here).2

end Keeps

theorem Issues.congr (issues : Issues s k n) (same : s'.read k = s.read k) : Issues s' k n := by
  obtain ⟨program, modifiable, mint⟩ := issues
  exact ⟨same ▸ program, same ▸ modifiable, same ▸ mint⟩

theorem Issues.supply_eq (issues : Issues s k n) : Token.supply s k = n.toNat := by
  obtain ⟨m, here, rfl⟩ := issues.mint
  exact Token.issued_of_unpack here

/-! ## calls -/

/-- A call about the tokens of a mint that is carried out and leaves all balances as they are, and every
holding as one of its mint and its owner, with what it has of another mint. -/
structure Calls (j : Instruction) (mint : Key) (s s' : Store) : Prop where
  carries : Carries Token.native j s s'
  lamports : ∀ k, s'.lamports k = s.lamports k
  keeps : ∀ {k mint' owner n}, Keeps s k mint' owner n →
    ∃ n', Keeps s' k mint' owner n' ∧ (mint' ≠ mint → n' = n)

namespace Calls

theorem executable (calls : Calls j mint s s') :
    (s'.read k).executable = (s.read k).executable := (calls.carries.within.kind k).1

theorem other (calls : Calls j mint s s') (keeps : Keeps s k mint' owner n) (differ : mint' ≠ mint) :
    Keeps s' k mint' owner n := by
  obtain ⟨_, keeps, same⟩ := calls.keeps keeps
  exact same differ ▸ keeps

/-- the calls that are made here write their first two accounts -/
theorem beyond {c : Key} (calls : Calls j mint s s')
    (metas : j.metas = [⟨k, false, true⟩, ⟨k', false, true⟩, ⟨c, true, false⟩]) {k₁ : Key}
    (h : k₁ ≠ k) (h' : k₁ ≠ k') : s'.read k₁ = s.read k₁ := by
  refine calls.carries.within.beyond k₁ ?_
  simp [writableKeys, metas, h, h']

section

variable {c : Key} (calls : Calls j mint s s')
  (metas : j.metas = [⟨k, false, true⟩, ⟨k', false, true⟩, ⟨c, true, false⟩])

include calls metas

theorem issues {k₁ : Key} {n₁ : Amount} (issues : Issues s k₁ n₁) (keeps : Keeps s k mint₁ owner n)
    (keeps' : Keeps s k' mint₂ owner' n') : Issues s' k₁ n₁ :=
  issues.congr (calls.beyond metas (keeps.ne_of_issues issues).symm (keeps'.ne_of_issues issues).symm)

/-- The record of a pool is no account of the token program. -/
theorem pool (here : pool? s record = some p) (hk : (s.read k).owner = Token.program)
    (hk' : (s.read k').owner = Token.program) : pool? s' record = some p := by
  have foreign : ∀ {k₁ : Key}, (s.read k₁).owner = Token.program → record ≠ k₁ := by
    rintro _ howner rfl
    rw [(poolIn_eq_some_iff.1 here).1] at howner
    exact absurd howner (by decide)
  rw [pool?, calls.beyond metas (foreign hk) (foreign hk')]
  exact here

end

end Calls

theorem Keeps.transfers (giver : Keeps s k mint owner x) (taker : Keeps s k' mint owner' y)
    (ne : k ≠ k') (covered : n.toNat ≤ x.toNat) (fits : y.toNat + n.toNat < UInt64.size) :
    ∃ s', Calls (Token.transfer k k' owner n) mint s s' ∧ Keeps s' k mint owner (x - n) ∧
      Keeps s' k' mint owner' (y + n) := by
  obtain ⟨held, here, hmint, howner, rfl⟩ := giver.held
  obtain ⟨held', here', hmint', _, rfl⟩ := taker.held
  have may : MayTransfer s k k' owner [owner] n held held' :=
    ⟨here, here', List.mem_singleton_self _, howner, hmint.trans hmint'.symm, fun _ => covered,
      fun _ => fits⟩
  let sent := transferred s k k' n held held'
  have hgiver : sent.read k = { s.read k with data := { held with amount := held.amount - n }.pack } := by
    rw [Token.read_transferred, if_neg ne, if_pos rfl]
  have htaker : sent.read k' =
      { s.read k' with data := { held' with amount := held'.amount + n }.pack } := by
    rw [Token.read_transferred, if_neg ne, if_neg ne, if_pos rfl]
  refine ⟨sent, ⟨Token.carries_transfer may, Token.lamports_transferred s k k' n held held', ?_⟩,
    giver.repacked here _ hgiver, taker.repacked here' _ htaker⟩
  intro other mint₁ owner₁ n₁ keeps
  by_cases hk : k = other
  · subst hk
    exact ⟨_, keeps.repacked here _ hgiver, fun differ => absurd rfl (keeps.ne_of_mint giver differ)⟩
  by_cases hk' : k' = other
  · subst hk'
    exact ⟨_, keeps.repacked here' _ htaker, fun differ => absurd rfl (keeps.ne_of_mint taker differ)⟩
  · have same : sent.read other = s.read other := by
      rw [Token.read_transferred, if_neg ne, if_neg hk, if_neg hk']
    exact ⟨_, keeps.congr same, fun _ => rfl⟩

theorem Keeps.burns (giver : Keeps s k mint owner x) (issues : Issues s mint supply)
    (covered : n.toNat ≤ x.toNat) (outstanding : n.toNat ≤ supply.toNat) :
    ∃ s', Calls (Token.burn k mint owner n) mint s s' ∧ Issues s' mint (supply - n) := by
  have ne := giver.ne_of_issues issues
  obtain ⟨held, here, hmint, howner, rfl⟩ := giver.held
  obtain ⟨m, there, rfl⟩ := issues.mint
  have may : MayBurn s k mint owner [owner] n held m :=
    ⟨here, there, List.mem_singleton_self _, howner, hmint, covered, outstanding⟩
  let after := burnt s k mint n held m
  have hsource : after.read k = { s.read k with data := { held with amount := held.amount - n }.pack } := by
    rw [Token.read_burnt ne, if_pos rfl]
  have hmade : after.read mint = { s.read mint with data := { m with supply := m.supply - n }.pack } := by
    rw [Token.read_burnt ne, if_neg ne, if_pos rfl]
  refine ⟨after, ⟨Token.carries_burn may, Token.lamports_burnt s k mint n held m, ?_⟩, ?_⟩
  · intro other mint₁ owner₁ n₁ keeps
    by_cases hk : k = other
    · subst hk
      exact ⟨_, keeps.repacked here _ hsource, fun differ => absurd rfl (keeps.ne_of_mint giver differ)⟩
    · have same : after.read other = s.read other := by
        rw [Token.read_burnt ne, if_neg hk, if_neg (keeps.ne_of_issues issues).symm]
      exact ⟨_, keeps.congr same, fun _ => rfl⟩
  · refine ⟨by rw [hmade]; exact issues.program, by rw [hmade]; exact issues.modifiable,
      { m with supply := m.supply - n }, ?_, rfl⟩
    rw [hmade]
    exact Mint.unpack_eq_ok_iff.2 ⟨rfl, (Mint.unpack_eq_ok_iff.1 there).2⟩

/-! ## what a withdrawal needs -/

theorem share_of_le (outstanding : 0 < supply.toNat) (covered : n.toNat ≤ supply.toNat) (a : Amount) :
    ∃ x, share a n supply = .ok x ∧ x.toNat = a.toNat * n.toNat / supply.toNat ∧
      x.toNat ≤ a.toNat := by
  have hle : a.toNat * n.toNat / supply.toNat ≤ a.toNat :=
    Nat.div_le_of_le_mul (Nat.mul_comm a.toNat _ ▸ Nat.mul_le_mul_left _ covered)
  have hfits : a.toNat * n.toNat / supply.toNat < UInt64.size := Nat.lt_of_le_of_lt hle a.toNat_lt
  have hne : supply ≠ 0 := by
    rintro rfl
    exact Nat.lt_irrefl _ outstanding
  have hvalue : (UInt64.ofNat (a.toNat * n.toNat / supply.toNat)).toNat = _ :=
    UInt64.toNat_ofNat_of_lt' hfits
  refine ⟨_, ?_, hvalue, Nat.le_trans (Nat.le_of_eq hvalue) hle⟩
  rw [share, if_neg hne, exactly, Amount.ofNat?, if_pos hfits]

/-- the mints of a pool are different ones -/
structure Pool.Proper (p : Pool) : Prop where
  sides : p.mintA ≠ p.mintB
  sideA : p.mintA ≠ p.liquidityMint
  sideB : p.mintB ≠ p.liquidityMint

/-- a pool with these amounts in its vaults, which belong to their authority, and with this supply of
liquidity -/
structure Pooled (record : Key) (p : Pool) (a b supply : Amount) (s : Store) : Prop where
  here : pool? s record = some p
  vaultA : Keeps s p.vaultA p.mintA authority a
  vaultB : Keeps s p.vaultB p.mintB authority b
  mint : Issues s p.liquidityMint supply

/-- a holder of liquidity, and the accounts that it wants to be paid to -/
structure Holder where
  wallet : Key
  liquidity : Key
  destinationA : Key
  destinationB : Key
  amount : Amount

/-- The holder has its liquidity, and its destinations are holdings of the right mints and not the
vaults. -/
structure Holder.Ready (h : Holder) (p : Pool) (s : Store) : Prop where
  wallet : (s.read h.wallet).executable = false
  liquidity : Keeps s h.liquidity p.liquidityMint h.wallet h.amount
  destinationA : ∃ owner n, Keeps s h.destinationA p.mintA owner n
  destinationB : ∃ owner n, Keeps s h.destinationB p.mintB owner n
  apartA : h.destinationA ≠ p.vaultA
  apartB : h.destinationB ≠ p.vaultB
  positive : 0 < h.amount

/-- the destinations can take what the liquidity of the holder is worth -/
def Holder.Room (h : Holder) (p : Pool) (s : Store) : Prop :=
  tokens s h.destinationA + (p.reserves s).a * h.amount.toNat / (p.reserves s).supply < UInt64.size ∧
    tokens s h.destinationB + (p.reserves s).b * h.amount.toNat / (p.reserves s).supply < UInt64.size

instance (h : Holder) (p : Pool) (s : Store) : Decidable (h.Room p s) :=
  inferInstanceAs (Decidable (_ < _ ∧ _ < _))

/-- the reserves after so much of the liquidity was redeemed, with the shares rounded down -/
def Reserves.without (r : Reserves) (amount : Nat) : Reserves :=
  ⟨r.a - r.a * amount / r.supply, r.b - r.b * amount / r.supply, r.supply - amount⟩

/-- A redemption as it should be: there is liquidity to divide by, neither vault pays more than it
holds, and its share of both goes to the destinations of the holder. -/
structure Paid (p : Pool) (h : Holder) (s s' : Store) : Prop where
  outstanding : 0 < (p.reserves s).supply
  leA : (p.reserves s).a * h.amount.toNat / (p.reserves s).supply ≤ (p.reserves s).a
  leB : (p.reserves s).b * h.amount.toNat / (p.reserves s).supply ≤ (p.reserves s).b
  reserves : p.reserves s' = (p.reserves s).without h.amount.toNat
  paidA : tokens s' h.destinationA =
    tokens s h.destinationA + (p.reserves s).a * h.amount.toNat / (p.reserves s).supply
  paidB : tokens s' h.destinationB =
    tokens s h.destinationB + (p.reserves s).b * h.amount.toNat / (p.reserves s).supply

/-- the calls of a redemption, one after the other -/
inductive Redeems (p : Pool) (h : Holder) (x y : Amount) (s s' : Store) : Prop
  | intro {drawn both : Store}
    (drawsA : Calls (Token.transfer p.vaultA h.destinationA authority x) p.mintA s drawn)
    (drawsB : Calls (Token.transfer p.vaultB h.destinationB authority y) p.mintB drawn both)
    (burns : Calls (Token.burn h.liquidity p.liquidityMint h.wallet h.amount) p.liquidityMint both s')

namespace Redeems

variable {h : Holder}

theorem lamports (redeems : Redeems p h x y s s') (k : Key) : s'.lamports k = s.lamports k := by
  obtain ⟨drawsA, drawsB, burns⟩ := redeems
  rw [burns.lamports, drawsB.lamports, drawsA.lamports]

theorem executable (redeems : Redeems p h x y s s') (k : Key) :
    (s'.read k).executable = (s.read k).executable := by
  obtain ⟨drawsA, drawsB, burns⟩ := redeems
  rw [burns.executable, drawsB.executable, drawsA.executable]

theorem keeps (redeems : Redeems p h x y s s') (held : Keeps s k mint owner n) :
    ∃ n', Keeps s' k mint owner n' := by
  obtain ⟨drawsA, drawsB, burns⟩ := redeems
  obtain ⟨_, held, _⟩ := drawsA.keeps held
  obtain ⟨_, held, _⟩ := drawsB.keeps held
  obtain ⟨n', held, _⟩ := burns.keeps held
  exact ⟨n', held⟩

/-- The liquidity of the others is left alone. -/
theorem spared (redeems : Redeems p h x y s s') (proper : p.Proper)
    (issues : Issues s p.liquidityMint supply) (held : Keeps s k p.liquidityMint owner n)
    (other : k ≠ h.liquidity) : Keeps s' k p.liquidityMint owner n := by
  obtain ⟨drawsA, drawsB, burns⟩ := redeems
  have held₁ := drawsA.other held proper.sideA.symm
  have held₂ := drawsB.other held₁ proper.sideB.symm
  exact held₂.congr (burns.beyond rfl other (held.ne_of_issues issues))

end Redeems

/-- What a redemption leaves: a pool again, and the accounts of the other holders. -/
structure Redeemed (record : Key) (p : Pool) (h : Holder) (s s' : Store) : Prop where
  pool : ∃ a b supply, Pooled record p a b supply s'
  paid : Paid p h s s'
  executable : ∀ k, (s'.read k).executable = (s.read k).executable
  keeps : ∀ {k mint owner n}, Keeps s k mint owner n → ∃ n', Keeps s' k mint owner n'
  spared : ∀ {k owner n}, Keeps s k p.liquidityMint owner n → k ≠ h.liquidity →
    Keeps s' k p.liquidityMint owner n

namespace Redeemed

variable {h : Holder}

theorem congr (redeemed : Redeemed record p h s s') (same : ∀ k, s''.read k = s'.read k) :
    Redeemed record p h s s'' := by
  have htokens : ∀ k, tokens s'' k = tokens s' k := fun k => by rw [tokens, tokens, same]
  obtain ⟨⟨a, b, supply, pool⟩, paid, executable, keeps, spared⟩ := redeemed
  refine ⟨⟨a, b, supply, ?_⟩, ?_, ?_, ?_, ?_⟩
  · exact ⟨by rw [pool?, same]; exact pool.here, pool.vaultA.congr (same _), pool.vaultB.congr (same _),
      pool.mint.congr (same _)⟩
  · exact ⟨paid.outstanding, paid.leA, paid.leB, (Pool.reserves_congr same).trans paid.reserves,
      (htokens _).trans paid.paidA, (htokens _).trans paid.paidB⟩
  · exact fun k => (congrArg Account.executable (same k)).trans (executable k)
  · intro k mint owner n held
    obtain ⟨n', held⟩ := keeps held
    exact ⟨n', held.congr (same k)⟩
  · exact fun held other => (spared held other).congr (same _)

theorem ready {g : Holder} (redeemed : Redeemed record p h s s') (ready : g.Ready p s)
    (other : g.liquidity ≠ h.liquidity) : g.Ready p s' where
  wallet := (redeemed.executable _).trans ready.wallet
  liquidity := redeemed.spared ready.liquidity other
  destinationA := by
    obtain ⟨owner, _, held⟩ := ready.destinationA
    exact ⟨owner, redeemed.keeps held⟩
  destinationB := by
    obtain ⟨owner, _, held⟩ := ready.destinationB
    exact ⟨owner, redeemed.keeps held⟩
  apartA := ready.apartA
  apartB := ready.apartB
  positive := ready.positive

end Redeemed

namespace Pooled

variable {h : Holder}

theorem reserves (pool : Pooled record p a b supply s) :
    p.reserves s = ⟨a.toNat, b.toNat, supply.toNat⟩ := by
  rw [Pool.reserves, pool.vaultA.tokens_eq, pool.vaultB.tokens_eq, pool.mint.supply_eq]

theorem redeems (pool : Pooled record p a b supply s) (proper : p.Proper) (ready : h.Ready p s)
    (covered : h.amount.toNat ≤ supply.toNat) (room : h.Room p s) :
    ∃ x y s', share a h.amount supply = .ok x ∧ share b h.amount supply = .ok y ∧
      Redeems p h x y s s' ∧ Redeemed record p h s s' := by
  have outstanding : 0 < supply.toNat :=
    Nat.lt_of_lt_of_le (UInt64.lt_iff_toNat_lt.1 ready.positive) covered
  obtain ⟨x, priceA, hx, lexA⟩ := share_of_le outstanding covered a
  obtain ⟨y, priceB, hy, leyB⟩ := share_of_le outstanding covered b
  obtain ⟨_, n, takerA⟩ := ready.destinationA
  obtain ⟨_, n', takerB⟩ := ready.destinationB
  obtain ⟨roomA, roomB⟩ : n.toNat + x.toNat < UInt64.size ∧ n'.toNat + y.toNat < UInt64.size := by
    rw [hx, hy, ← takerA.tokens_eq, ← takerB.tokens_eq]
    have := room
    rwa [Holder.Room, pool.reserves] at this
  obtain ⟨drawn, drawsA, vaultA, paidA⟩ :=
    pool.vaultA.transfers takerA (Ne.symm ready.apartA) lexA roomA
  have vaultB := drawsA.other pool.vaultB proper.sides.symm
  have takerB' := drawsA.other takerB proper.sides.symm
  obtain ⟨both, drawsB, vaultB', paidB⟩ := vaultB.transfers takerB' (Ne.symm ready.apartB) leyB roomB
  have liquidity := drawsB.other (drawsA.other ready.liquidity proper.sideA.symm) proper.sideB.symm
  have issues := drawsB.issues rfl (drawsA.issues rfl pool.mint pool.vaultA takerA) vaultB takerB'
  obtain ⟨s', burns, mint⟩ := liquidity.burns issues (Nat.le_refl _) covered
  have redeems : Redeems p h x y s s' := ⟨drawsA, drawsB, burns⟩
  have here := drawsA.pool rfl pool.here pool.vaultA.program takerA.program
  have left : Pooled record p (a - x) (b - y) (supply - h.amount) s' :=
    ⟨burns.pool rfl (drawsB.pool rfl here vaultB.program takerB'.program) liquidity.program
        issues.program,
      burns.other (drawsB.other vaultA proper.sides) proper.sideA, burns.other vaultB' proper.sideB, mint⟩
  have paid : Paid p h s s' := by
    constructor <;> simp only [pool.reserves, left.reserves, Reserves.without]
    · exact outstanding
    · exact hx ▸ lexA
    · exact hy ▸ leyB
    · rw [Token.toNat_sub_of_covered lexA, Token.toNat_sub_of_covered leyB,
        Token.toNat_sub_of_covered covered, hx, hy]
    · rw [(burns.other (drawsB.other paidA proper.sides) proper.sideA).tokens_eq, takerA.tokens_eq,
        Token.toNat_add_of_fits roomA, hx]
    · rw [(burns.other paidB proper.sideB).tokens_eq, takerB.tokens_eq,
        Token.toNat_add_of_fits roomB, hy]
  exact ⟨x, y, s', priceA, priceB, redeems, ⟨_, _, _, left⟩, paid, redeems.executable, redeems.keeps,
    redeems.spared proper pool.mint⟩

end Pooled

/-! ## the instruction -/

/-- the accounts that a redemption may write -/
def Holder.written (h : Holder) (p : Pool) : List Key :=
  [h.wallet, p.liquidityMint, h.destinationA, h.destinationB, h.liquidity, p.vaultA, p.vaultB]

/-- The instruction with which a holder redeems all of its liquidity.  The authority of the vaults and
the record are writable where they are among the accounts that are written, since no key may be named
twice with different writability. -/
def Holder.redeeming (h : Holder) (p : Pool) (record : Key) : Instruction where
  program := key
  metas := [⟨h.wallet, true, true⟩, ⟨p.liquidityMint, false, true⟩, ⟨h.destinationA, false, true⟩,
    ⟨h.destinationB, false, true⟩, ⟨h.liquidity, false, true⟩, ⟨p.vaultA, false, true⟩,
    ⟨p.vaultB, false, true⟩, ⟨authority, false, (h.written p).contains authority⟩,
    ⟨record, false, (h.written p).contains record⟩, ⟨Token.program, false, false⟩]
  data := withdrawRoute.data (⟨h.amount, 255⟩ : Withdrawal)

section

variable {h : Holder} {l : Ledger}

theorem writes_redeeming (other : Token.program ∉ h.written p) :
    (h.redeeming p record).Writes (h.written p) := by
  intro m hm
  simp only [Holder.redeeming, List.mem_cons, List.not_mem_nil, or_false] at hm
  rcases hm with rfl | rfl | rfl | rfl | rfl | rfl | rfl | rfl | rfl | rfl
  · simp [Holder.written]
  · simp [Holder.written]
  · simp [Holder.written]
  · simp [Holder.written]
  · simp [Holder.written]
  · simp [Holder.written]
  · simp [Holder.written]
  · exact List.contains_iff_mem
  · exact List.contains_iff_mem
  · simpa using other

/-- who signs a call of a redemption, with which seeds: the authority of the vaults, or the holder -/
inductive Speaks (h : Holder) : List SignerSeeds → List Key → Key → Prop
  | vaults : Speaks h [⟨[vaultSeed], 255⟩] [authority] authority
  | wallet : Speaks h [] [] h.wallet

namespace Speaks

variable {seeds : List SignerSeeds} {derived : List Key} {c : Key}

theorem few (speaks : Speaks h seeds derived c) : seeds.length ≤ 1 := by
  cases speaks with
  | vaults => exact Nat.le_refl 1
  | wallet => exact Nat.zero_le 1

theorem derives (speaks : Speaks h seeds derived c) :
    seeds.map (·.derive program.key) = derived.map .ok := by
  cases speaks with
  | vaults => exact congrArg (fun derived => [derived]) (Address.create_of_find find_authority)
  | wallet => rfl

theorem asked (speaks : Speaks h seeds derived c) : ∀ key ∈ derived, c = key := by
  cases speaks with
  | vaults => simp
  | wallet => simp

theorem named (speaks : Speaks h seeds derived c) :
    ∃ g ∈ (h.redeeming p record).metas, g.key = c := by
  cases speaks with
  | vaults => simp [Holder.redeeming]
  | wallet => simp [Holder.redeeming]

/-- The holder signs at its first position, whatever other position it may hold. -/
theorem voiced (speaks : Speaks h seeds derived c) :
    c ∈ derived ∨ (h.redeeming p record).FirstSigns c := by
  cases speaks with
  | vaults => exact .inl (List.mem_singleton_self _)
  | wallet => exact .inr ⟨⟨h.wallet, true, true⟩, by simp [Holder.redeeming], rfl⟩

end Speaks

/-- A call of the token program that changes what may be written goes through. -/
theorem invokes_redeeming {now now' : Store} {scene : Scene Ledger} {seeds : List SignerSeeds}
    {derived : List Key} {code : UInt8} {c : Key} (other : Token.program ∉ h.written p)
    (level : scene.Level l withdrawLayout (h.redeeming p record) now)
    (executable : (now.read Token.program).executable = true)
    (tokens : l.natives Token.program = some Token.native) (calls : Calls j mint now now')
    (form : j = ⟨Token.program, [⟨k, false, true⟩, ⟨k', false, true⟩, ⟨c, true, false⟩],
      code :: Codec.amount.write n⟩)
    (hk : k ∈ h.written p) (hk' : k' ∈ h.written p) (speaks : Speaks h seeds derived c) :
    ∃ last, Returns Ledger.host program.topFrame scene (Logic.invokeInstruction j seeds) () last ∧
      last.Level l withdrawLayout (h.redeeming p record) now' := by
  subst form
  let call : Instruction := ⟨Token.program, [⟨k, false, true⟩, ⟨k', false, true⟩, ⟨c, true, false⟩],
    code :: Codec.amount.write n⟩
  have present : ∀ key ∈ h.written p, ∃ g ∈ (h.redeeming p record).metas, g.key = key := by
    simp [Holder.written, Holder.redeeming]
  have installed : ∃ m ∈ (h.redeeming p record).metas, m.key = call.program :=
    ⟨⟨Token.program, false, false⟩, by simp [Holder.redeeming], rfl⟩
  have data : call.data.length ≤ 9 := by simp [call, Codec.amount, Codec.iso, Codec.fixed]
  have hands : (h.redeeming p record).HandsOn call derived :=
    Instruction.handsOn_of_written (writes_redeeming other) present installed rfl hk hk'
      speaks.named speaks.voiced speaks.asked
  have admits : program.topFrame.Admits call seeds derived :=
    Program.admits_of_small rfl (by decide : Token.program ≠ key) data (Nat.le_refl 3) speaks.few
      speaks.derives
  exact level.invokes hands admits executable tokens calls.carries

/-- Business logic moves tokens if its call returns. -/
theorem returns_move {f : Frame} {layout : Layout} {i : Instruction} {now : Store} {c : Key}
    {scene last : Scene Ledger} {source destination : String} {signer : Nat} {seeds : List SignerSeeds}
    (drafts : scene.Drafts l layout i now) (hk : layout.keyOf? i source = some k)
    (hk' : layout.keyOf? i destination = some k') (hc : i.key? signer = some c)
    (h : Returns Ledger.host f scene (Logic.invokeInstruction (Token.transfer k k' c n) seeds) () last) :
    Returns Ledger.host f scene (move source destination signer n seeds) () last := by
  obtain ⟨sourceAt, hsource, hk⟩ := Option.bind_eq_some_iff.1 hk
  obtain ⟨destinationAt, hdestination, hk'⟩ := Option.bind_eq_some_iff.1 hk'
  simp only [move, Token.Call.transfer, Logic.returns_bind_iff, Logic.returns_positionOf_iff,
    drafts.seated.positionOf_eq_ok_iff, drafts.returns_keyAt_iff, and_assoc, exists_eq_left]
  exact ⟨sourceAt, hsource, destinationAt, hdestination, k, hk, k', hk', c, hc, h⟩

theorem modifiable_of_written (pool : Pooled record p a b supply s) (ready : h.Ready p s) :
    ∀ k ∈ h.written p, (s.read k).executable = false := by
  obtain ⟨_, _, takerA⟩ := ready.destinationA
  obtain ⟨_, _, takerB⟩ := ready.destinationB
  simp only [Holder.written, List.forall_mem_cons]
  exact ⟨ready.wallet, pool.mint.modifiable, takerA.modifiable, takerB.modifiable,
    ready.liquidity.modifiable, pool.vaultA.modifiable, pool.vaultB.modifiable, nofun⟩

variable (modifiable : ∀ k ∈ h.written p, (l.store.read k).executable = false)
  (installed : (l.store.read Token.program).executable = true)

include modifiable installed

theorem accepts_redeeming (here : pool? l.store record = some p) :
    program.Accepts l (h.redeeming p record) 1 withdrawRoute (⟨h.amount, 255⟩ : Withdrawal) := by
  have other := Store.not_written_of_installed modifiable installed
  have hdata : (h.redeeming p record).data.length = 17 := by
    show (withdrawLayout.discriminator ++ Withdrawal.codec.write ⟨h.amount, 255⟩).length = 17
    rw [List.length_append, Layout.length_discriminator]
    rfl
  have met : ∀ {name : String} {access : Access} {m : Meta},
      (access.signer = true → m.signer = true) → m.writable = true → m.key ∈ h.written p →
        (Spec.account name access).Met key l.store m :=
    fun signs writable hk => ⟨signs, fun _ => ⟨writable, modifiable _ hk⟩, nofun, nofun⟩
  refine ⟨rfl, route?_withdraw, rfl, ?_, ?_, by decide, Nat.le_refl _,
    (writes_redeeming other).consistent, ?_⟩
  · rw [hdata]
    decide
  · show 10 ≤ program.limits.accounts
    decide
  · intro position spec m hspec hm
    -- one case for each position of the layout
    rcases position with _ | _ | _ | _ | _ | _ | _ | _ | _ | _ | position
    · cases hspec; cases hm
      exact met (fun _ => rfl) rfl (by simp [Holder.written])
    · cases hspec; cases hm
      exact met nofun rfl (by simp [Holder.written])
    · cases hspec; cases hm
      exact met nofun rfl (by simp [Holder.written])
    · cases hspec; cases hm
      exact met nofun rfl (by simp [Holder.written])
    · cases hspec; cases hm
      exact met nofun rfl (by simp [Holder.written])
    · cases hspec; cases hm
      exact met nofun rfl (by simp [Holder.written])
    · cases hspec; cases hm
      exact met nofun rfl (by simp [Holder.written])
    · cases hspec; cases hm
      exact ⟨nofun, nofun, nofun, nofun⟩
    · cases hspec; cases hm
      refine ⟨nofun, nofun, nofun, ?_⟩
      intro tag htag
      cases htag
      obtain ⟨howner, hdecode⟩ := poolIn_eq_some_iff.1 here
      exact ⟨howner, Tag.fits_of_decode hdecode⟩
    · cases hspec; cases hm
      exact ⟨nofun, nofun, fun _ => installed, nofun⟩
    · cases hspec

theorem returns_redeeming (tokens : l.natives Token.program = some Token.native)
    (pool : Pooled record p a b supply l.store) (ready : h.Ready p l.store)
    (priceA : share a h.amount supply = .ok x) (priceB : share b h.amount supply = .ok y)
    (redeems : Redeems p h x y l.store s') :
    ∃ last, Returns Ledger.host program.topFrame
        (program.opened l (h.redeeming p record) withdrawLayout) (withdraw ⟨h.amount, 255⟩) () last ∧
      last.Level l withdrawLayout (h.redeeming p record) s' := by
  have other := Store.not_written_of_installed modifiable installed
  have level : (program.opened l (h.redeeming p record) withdrawLayout).Level l withdrawLayout
      (h.redeeming p record) l.store := Program.level_opened (r := withdrawRoute) (Nat.le_refl 10)
  obtain ⟨drawsA, drawsB, burns⟩ := redeems
  rename_i drawn both
  obtain ⟨first, hA, level₁⟩ := invokes_redeeming other level installed tokens drawsA rfl
    (by simp [Holder.written]) (by simp [Holder.written]) .vaults
  obtain ⟨second, hB, level₂⟩ := invokes_redeeming other level₁ (drawsA.executable.trans installed)
    tokens drawsB rfl (by simp [Holder.written]) (by simp [Holder.written]) .vaults
  obtain ⟨last, hburn, level₃⟩ := invokes_redeeming other level₂
    (drawsB.executable.trans (drawsA.executable.trans installed)) tokens burns rfl
    (by simp [Holder.written]) (by simp [Holder.written]) .wallet
  refine ⟨last, ?_, level₃⟩
  obtain ⟨held, held_at, held_mint, _, held_amount⟩ := ready.liquidity.held
  obtain ⟨holdingA, a_at, _, _, rfl⟩ := pool.vaultA.held
  obtain ⟨holdingB, b_at, _, _, rfl⟩ := pool.vaultB.held
  obtain ⟨m, m_at, rfl⟩ := pool.mint.mint
  simp only [withdraw, Logic.returns_bind_iff, Logic.returns_require_iff, requireLiquidityMint,
    level.seated.returns_record_iff level.shown, returns_requireVaults_iff level.seated,
    returns_requireRecorded_iff level.seated, returns_checkHeld_iff level.seated level.shown,
    level.seated.returns_mintOf_iff level.shown, level.seated.returns_holdingOf_iff level.shown,
    returns_priced_iff, Logic.returns_positionOf_iff, level.seated.positionOf_eq_ok_iff, and_assoc,
    exists_and_left, exists_eq_left, exists_unit, decide_eq_true_eq]
  obtain ⟨owner, decodes⟩ := poolIn_eq_some_iff.1 pool.here
  refine ⟨ready.positive, p, ⟨record, rfl, rfl, decodes⟩, rfl, rfl, rfl,
    ⟨held, ⟨h.liquidity, rfl, ready.liquidity.program, held_at⟩, held_mint,
      UInt64.le_of_eq held_amount.symm⟩,
    m, ⟨p.liquidityMint, rfl, pool.mint.program, m_at⟩, holdingA,
    ⟨p.vaultA, rfl, pool.vaultA.program, a_at⟩, holdingB, ⟨p.vaultB, rfl, pool.vaultB.program, b_at⟩,
    x, priceA, y, priceB, 0, rfl, 7, rfl, first, returns_move level.toDrafts rfl rfl rfl hA, second,
    returns_move level₁.toDrafts rfl rfl rfl hB, ?_⟩
  simp only [Token.Call.burn, Logic.returns_bind_iff, level₂.seated.positionOf_eq_ok_iff,
    level₂.returns_keyAt_iff, and_assoc, exists_eq_left]
  exact ⟨1, rfl, 4, rfl, h.liquidity, rfl, p.liquidityMint, rfl, h.wallet, rfl, hburn⟩

end

/-- the submission in which a holder redeems all of its liquidity -/
def Holder.submission (h : Holder) (p : Pool) (record : Key) : Submission :=
  ⟨h.redeeming p record, 1, []⟩

theorem redeeming_commits {l : Ledger} {h : Holder}
    (tokens : l.natives Token.program = some Token.native)
    (installed : (l.store.read Token.program).executable = true) (proper : p.Proper)
    (pool : Pooled record p a b supply l.store) (ready : h.Ready p l.store)
    (covered : h.amount.toNat ≤ supply.toNat) (room : h.Room p l.store) :
    let s := h.submission p record
    program.committed? l s = some s.instruction ∧
      Redeemed record p h l.store (program.served l s).store := by
  intro s
  obtain ⟨x, y, now, priceA, priceB, redeems, redeemed⟩ := pool.redeems proper ready covered room
  have modifiable := modifiable_of_written pool ready
  obtain ⟨last, returns, level⟩ :=
    returns_redeeming modifiable installed tokens pool ready priceA priceB redeems
  have accepts := accepts_redeeming modifiable installed pool.here
  have other := Store.not_written_of_installed modifiable installed
  have unfrozen : ∀ m ∈ s.instruction.metas, m.writable = true →
      (l.store.read m.key).executable = false := fun m hm hw =>
    modifiable _ ((writes_redeeming other m hm).1 hw)
  obtain ⟨receipt, l', h, hread⟩ := Program.commits accepts returns level unfrozen
    fun keys _ _ => Amount.total_congr fun k _ => (redeems.lamports k).symm
  obtain ⟨hcommitted, hserved⟩ := Program.committed?_of_serve (s := s) h
  exact ⟨hcommitted, redeemed.congr fun k => by rw [hserved, hread]⟩

end AccountLedger.Swap
