import AccountLedger.Proofs.Swap.Lasting
import AccountLedger.Proofs.Swap.Priced
/-!
# Depositing and withdrawing at once

Liquidity that is withdrawn right after the deposit that it was minted for pays out no more than was
paid in, on neither side: the deposit is rounded down against the reserves before it, and the
withdrawal against those that it has left.  The liquidity must not end up in a vault: it may be of the
mint of a vault and is paid out again then, to whoever signs for the vaults.

* `drawn_le_paid`: two prices that are rounded down;
* `Deposited.le_paid`, `Deposited.elsewhere`: what a deposit adds to the vaults;
* `round_trip_gains_nothing`: what the withdrawal pays out;
* `round_trip_through_vault`: what it does where the liquidity is minted to a vault.
-/

namespace AccountLedger.Swap

open Token (Holding Posts tokens)

variable {l : Ledger} {i : Instruction} {p : Pool} {a b : Holding} {s s' : Store}

/-! ## the deposit -/

/-- The share that was minted for a payment is worth no more than the payment, against any reserve
that has grown by no more than that. -/
theorem drawn_le_paid {reserve after paid minted supply : Nat} (added : after ≤ reserve + paid)
    (earned : minted * reserve ≤ paid * supply) : after * minted / (supply + minted) ≤ paid := by
  refine Nat.div_le_of_le_mul ?_
  calc after * minted ≤ (reserve + paid) * minted := Nat.mul_le_mul_right _ added
    _ = minted * reserve + paid * minted := by rw [Nat.add_mul, Nat.mul_comm reserve]
    _ ≤ paid * supply + paid * minted := Nat.add_le_add_right earned _
    _ = (supply + minted) * paid := by rw [← Nat.mul_add, Nat.mul_comm]

/-- A deposit adds nothing to the vaults but the payments, if the liquidity goes elsewhere. -/
theorem Deposited.le_paid {d : Deposit} (h : Deposited i d p s s') (apart : p.vaultA ≠ p.vaultB)
    (elsewhere : ∀ v ∈ p.vaults, depositLayout.keyOf? i "token_liquidity" ≠ some v) :
    tokens s' p.vaultA ≤ tokens s p.vaultA + d.amountA.toNat ∧
      tokens s' p.vaultB ≤ tokens s p.vaultB + d.amountB.toNat := by
  obtain @⟨_, receiver, _, _, _, _, _, _, _, _, -, -, -, -, -, sets, paysA, paysB, mints, -, names⟩ := h
  have given : depositLayout.keyOf? i "token_liquidity" = some receiver :=
    names ("token_liquidity", receiver) (by simp)
  have off : ∀ v ∈ p.vaults, receiver ≠ v := fun v hv heq => elsewhere v hv (heq ▸ given)
  have posts := ((sets.posts.trans paysA.posts).trans paysB.posts).trans mints.posts
  have hereA := posts p.vaultA
  have hereB := posts p.vaultB
  simp only [List.nil_append, List.append_nil, List.cons_append, Token.posted_cons, Token.posted_nil,
    if_neg apart, if_neg apart.symm, if_neg (off _ (mem_vaultA p)), if_neg (off _ (mem_vaultB p)),
    if_true] at hereA hereB
  exact ⟨by omega, by omega⟩

/-- The liquidity goes to a holding of the depositor, and so to no vault of others. -/
theorem Deposited.elsewhere {d : Deposit} (h : Deposited i d p s s') (v : Vaulted i p a b s) :
    ∀ v ∈ p.vaults, depositLayout.keyOf? i "token_liquidity" ≠ some v := by
  obtain @⟨depositor, receiver, _, _, _, _, _, _, _, _, signed, -, -, -, -, sets, -, -, -, -, names⟩ := h
  have given : depositLayout.keyOf? i "token_liquidity" = some receiver :=
    names ("token_liquidity", receiver) (by simp)
  have off : ∀ {k : Key} {held : Holding}, Token.Stands s k held → ¬ i.Signed held.owner →
      receiver ≠ k := by
    rintro _ held ⟨amount, here⟩ silent rfl
    have owner := sets.owner_eq here
    exact silent ((show held.owner = depositor from owner) ▸ signed)
  intro k hk hgiven
  have heq : receiver = k := Option.some.inj (given.symm.trans hgiven)
  rcases List.mem_pair.1 hk with rfl | rfl
  · exact off v.vaultA v.silentA heq
  · exact off v.vaultB v.silentB heq

/-! ## the withdrawal -/

/-- what liquidity is worth on both sides -/
def Reserves.value (r : Reserves) (liquidity : Nat) : Nat × Nat :=
  (r.a * liquidity / r.supply, r.b * liquidity / r.supply)

/-- The amounts are paid out of the vaults and the liquidity is burnt, whichever accounts are named
for it. -/
def Withdrawal.Pays (w : Withdrawal) (i : Instruction) (p : Pool) (paid : Nat × Nat) (s s' : Store) :
    Prop :=
  ∃ destinationA destinationB held,
    withdrawLayout.Gives i [("token_a", destinationA), ("token_b", destinationB),
      ("token_liquidity", held)] ∧
    Posts [(p.vaultA, paid.1), (p.vaultB, paid.2), (held, w.amount.toNat)]
      [(destinationA, paid.1), (destinationB, paid.2)] s s'

theorem Withdrawal.Pays.congr {w : Withdrawal} {paid : Nat × Nat} {s'' : Store}
    (same : ∀ k, s''.read k = s'.read k) (h : w.Pays i p paid s s') : w.Pays i p paid s s'' := by
  obtain ⟨destinationA, destinationB, held, names, posts⟩ := h
  exact ⟨destinationA, destinationB, held, names, posts.congr same⟩

theorem Withdrawn.pays {w : Withdrawal} (h : Withdrawn i w p s s') :
    w.Pays i p ((p.reserves s).value w.amount.toNat) s s' := by
  obtain @⟨_, destinationA, destinationB, held, _, m, x, y, _, _, _, _, -, -, mint_at, vaultA, vaultB,
    priceA, priceB, drawsA, drawsB, burns, names⟩ := h
  have supply_eq : (p.reserves s).supply = m.supply.toNat := Token.issued_of_unpack mint_at
  have reserveA : (p.reserves s).a = x.amount.toNat := Token.tokens_of_unpack vaultA
  have reserveB : (p.reserves s).b = y.amount.toNat := Token.tokens_of_unpack vaultB
  refine ⟨destinationA, destinationB, held, fun e he => names e (List.mem_cons_of_mem _ he), ?_⟩
  rw [Reserves.value, supply_eq, reserveA, reserveB, ← share_eq_ok priceA, ← share_eq_ok priceB]
  exact (drawsA.posts.trans drawsB.posts).trans burns.posts

/-! ## both -/

/-- A withdrawal of just what a deposit has minted, from the reserves that the deposit has left, is
worth no more than was paid in. -/
theorem Deposited.value_le {d : Deposit} (h : Deposited i d p s s') (apart : p.vaultA ≠ p.vaultB)
    (elsewhere : ∀ v ∈ p.vaults, depositLayout.keyOf? i "token_liquidity" ≠ some v)
    (outstanding : 0 < Token.supply s p.liquidityMint) {minted : Nat}
    (issued : Token.supply s' p.liquidityMint = Token.supply s p.liquidityMint + minted) :
    ((p.reserves s').value minted).1 ≤ d.amountA.toNat ∧
      ((p.reserves s').value minted).2 ≤ d.amountB.toNat := by
  obtain ⟨addedA, addedB⟩ := h.le_paid apart elsewhere
  obtain ⟨minted', issued', earnedA, earnedB⟩ := h.earned outstanding
  obtain rfl : minted' = minted := Nat.add_left_cancel (issued'.symm.trans issued)
  have supply_eq : (p.reserves s').supply = Token.supply s p.liquidityMint + minted' := issued
  rw [Reserves.value, supply_eq]
  exact ⟨drawn_le_paid addedA earnedA, drawn_le_paid addedB earnedB⟩

/-- A deposit with a pool commits, and right after it a withdrawal of what it has minted. -/
structure RoundTrip (l : Ledger) (record : Key) (p : Pool) (s s' : Submission) (d : Deposit)
    (w : Withdrawal) : Prop where
  executed : recordOf? s.instruction = some record
  deposits : s.instruction.data = depositRoute.data d
  commits : program.committed? l s = some s.instruction
  executed' : recordOf? s'.instruction = some record
  withdraws : s'.instruction.data = withdrawRoute.data w
  commits' : program.committed? (program.served l s) s' = some s'.instruction
  minted : Token.supply (program.served l s).store p.liquidityMint =
    Token.supply l.store p.liquidityMint + w.amount.toNat

/-- What was minted for a deposit and is withdrawn right after it pays out no more of either token than
was paid in, whichever accounts it is paid to, if it was not minted to a vault.  It never is where the
owners of the vaults do not sign. -/
theorem round_trip_gains_nothing (l : Ledger) (record : Key) (p : Pool) (a b : Holding)
    (s s' : Submission) (d : Deposit) (w : Withdrawal)
    (installed : l.natives Token.program = some Token.native)
    (associated : l.natives Token.Associated.program = some Token.Associated.native)
    (here : pool? l.store record = some p)
    (vaultA : Holding.unpack (l.store.read p.vaultA).data = .ok a)
    (vaultB : Holding.unpack (l.store.read p.vaultB).data = .ok b) (mints : a.mint ≠ b.mint)
    (outstanding : 0 < Token.supply l.store p.liquidityMint) (trip : RoundTrip l record p s s' d w)
    (elsewhere : (∀ v ∈ p.vaults,
        depositLayout.keyOf? s.instruction "token_liquidity" ≠ some v) ∨
      ¬ s.instruction.Signed a.owner ∧ ¬ s.instruction.Signed b.owner) :
    let mid := program.served l s
    let paid := (p.reserves mid.store).value w.amount.toNat
    w.Pays s'.instruction p paid mid.store (program.served mid s').store ∧
      paid.1 ≤ d.amountA.toNat ∧ paid.2 ≤ d.amountB.toNat := by
  intro mid paid
  obtain ⟨f, first, last, commit⟩ :=
    Program.commit_of_data (r := depositRoute) trip.commits route?_deposit trip.deposits
  obtain ⟨now, deposited, same⟩ := deposited_of_commit installed trip.executed here commit associated
  -- the deposit leaves the record of the pool, which the withdrawal reads
  have lasting : Lasting [] Token.Associated.SetApart l.store now := deposited.lasting
  have there : pool? mid.store record = some p := by
    rw [pool?, same]
    exact (lasting record).record p here
  have natives : mid.natives Token.program = some Token.native :=
    (congrFun (Program.natives_served l s) _).trans installed
  obtain ⟨f', first', last', commit'⟩ :=
    Program.commit_of_data (r := withdrawRoute) trip.commits' route?_withdraw trip.withdraws
  obtain ⟨now', withdrawn, same'⟩ := withdrawn_of_commit natives trip.executed' there commit'
  have apart : p.vaultA ≠ p.vaultB := Token.OfMint.ne ⟨a, vaultA, rfl⟩ ⟨b, vaultB, rfl⟩ mints
  have elsewhere : ∀ v ∈ p.vaults,
      depositLayout.keyOf? s.instruction "token_liquidity" ≠ some v := by
    rcases elsewhere with elsewhere | ⟨silentA, silentB⟩
    · exact elsewhere
    · exact deposited.elsewhere
        ⟨⟨a.amount, vaultA⟩, ⟨b.amount, vaultB⟩, mints, silentA, silentB⟩
  have reserves : p.reserves mid.store = p.reserves now := Pool.reserves_congr same
  refine ⟨withdrawn.pays.congr same', ?_⟩
  have issued := (congrArg Reserves.supply reserves).symm.trans trip.minted
  have worth := deposited.value_le apart elsewhere outstanding issued
  rwa [← reserves] at worth

/-- the creator withdraws what it was given for its six and three tokens -/
def reclaiming : Submission where
  instruction :=
    { program := key
      metas := [⟨.ofNat 2, true, true⟩, ⟨.ofNat 14, false, true⟩, ⟨.ofNat 24, false, true⟩,
        ⟨.ofNat 25, false, true⟩,
        ⟨.ofNat 0x581c1b9611d196cccbe9afe2b728f675b89e310a57cf78dcf9d4bef66a447a3d, false, true⟩,
        ⟨.ofNat 22, false, true⟩, ⟨.ofNat 23, false, true⟩, ⟨authority, false, false⟩,
        ⟨.ofNat 21, false, false⟩, ⟨Token.program, false, false⟩]
      data := withdrawRoute.data (⟨4, 255⟩ : Withdrawal) }
  height := 1
  callStack := []

theorem stocked_round_trip :
    let mid := program.served stocked adding
    (⟨4, 255⟩ : Withdrawal).Pays reclaiming.instruction pond (5, 2) mid.store
        (program.served mid reclaiming).store ∧ 5 ≤ 6 ∧ 2 ≤ 3 := by
  intro mid
  have run : program.committed? stocked adding = some adding.instruction ∧
      program.committed? mid reclaiming = some reclaiming.instruction ∧
      Token.supply stocked.store pond.liquidityMint = 70 ∧
      Token.supply mid.store pond.liquidityMint = 74 ∧
      (pond.reserves mid.store).value 4 = (5, 2) := by
    decide +kernel
  obtain ⟨commits, commits', issued, minted, value⟩ := run
  have trip : RoundTrip stocked (.ofNat 21) pond adding reclaiming ⟨6, 3, 255⟩ ⟨4, 255⟩ :=
    ⟨by decide +kernel, rfl, commits, by decide +kernel, rfl, commits', by rw [minted, issued]; rfl⟩
  have h : (⟨4, 255⟩ : Withdrawal).Pays reclaiming.instruction pond
        ((pond.reserves mid.store).value 4) mid.store (program.served mid reclaiming).store ∧
      ((pond.reserves mid.store).value 4).1 ≤ 6 ∧ ((pond.reserves mid.store).value 4).2 ≤ 3 :=
    round_trip_gains_nothing stocked (.ofNat 21) pond _ _ adding reclaiming ⟨6, 3, 255⟩ ⟨4, 255⟩
      rfl rfl (by decide +kernel)
      stocked_vaults.1 stocked_vaults.2 (by decide)
      (by rw [issued]; decide) trip (.inl (by decide))
  rwa [value] at h

/-- a pool whose liquidity is of the mint of one of its vaults, which is the associated holding of
their owner -/
def loop : Pool :=
  ⟨.ofNat 2, .ofNat 12, .ofNat 13,
    .ofNat 0x1671304c2ab910b0528a8c7c26fa45e62458a1738b81c0d632b1e748d1e0a581, .ofNat 23, .ofNat 12⟩

/-- a ledger with this pool, on which the owner of the vaults holds the other tokens -/
def looped : Ledger :=
  let unset : Token.Clearable Key := ⟨false, .ofNat 0⟩
  let ofTokens (key : Key) (data : Bytes) : Account :=
    { key, lamports := 10000000, data, owner := Token.program }
  let mint (authority : Token.Clearable Key) (supply : Amount) : Bytes :=
    (⟨authority, supply, 0, true, unset⟩ : Token.Mint).pack
  let holding (mint : Nat) (owner : Key) (amount : Amount) : Bytes :=
    (Holding.opened (.ofNat mint) owner amount []).pack
  let record : Account :=
    { key := .ofNat 21, lamports := 10000000, data := loop.image, owner := key }
  [{ key := authority, lamports := 1000000000 }, record,
    ofTokens (.ofNat 12) (mint ⟨true, liquidityAuthority⟩ 1000),
    ofTokens (.ofNat 13) (mint unset 200), ofTokens loop.vaultA (holding 12 authority 100),
    ofTokens loop.vaultB (holding 13 authority 100), ofTokens (.ofNat 24) (holding 12 authority 900),
    ofTokens (.ofNat 25) (holding 13 authority 100), ofTokens (.ofNat 26) (holding 12 (.ofNat 2) 0),
    ofTokens (.ofNat 27) (holding 13 (.ofNat 2) 0)].foldl Ledger.addAccount Ledger.start.withTokens

/-- the owner of the vaults adds ten tokens to both, and has the liquidity minted to the first -/
def looping : Submission where
  instruction :=
    { program := key
      metas := [⟨authority, true, true⟩, ⟨.ofNat 12, false, true⟩, ⟨liquidityAuthority, false, false⟩,
        ⟨.ofNat 24, false, true⟩, ⟨.ofNat 25, false, true⟩, ⟨loop.vaultA, false, true⟩,
        ⟨loop.vaultA, false, true⟩, ⟨loop.vaultB, false, true⟩, ⟨.ofNat 21, false, false⟩,
        ⟨.system, false, false⟩, ⟨Token.program, false, false⟩,
        ⟨Token.Associated.program, false, false⟩]
      data := depositRoute.data (⟨10, 10, 255⟩ : Deposit) }
  height := 1
  callStack := []

/-- it withdraws as much liquidity, to accounts outside the pool -/
def leaving : Submission where
  instruction :=
    { program := key
      metas := [⟨authority, true, true⟩, ⟨.ofNat 12, false, true⟩, ⟨.ofNat 26, false, true⟩,
        ⟨.ofNat 27, false, true⟩, ⟨.ofNat 24, false, true⟩, ⟨loop.vaultA, false, true⟩,
        ⟨loop.vaultB, false, true⟩, ⟨authority, true, true⟩, ⟨.ofNat 21, false, false⟩,
        ⟨Token.program, false, false⟩]
      data := withdrawRoute.data (⟨100, 255⟩ : Withdrawal) }
  height := 1
  callStack := []

/-- The liquidity that was minted to the vault is paid out again: nineteen tokens for ten. -/
theorem round_trip_through_vault :
    let mid := program.served looped looping
    let last := program.served mid leaving
    RoundTrip looped (.ofNat 21) loop looping leaving ⟨10, 10, 255⟩ ⟨100, 255⟩ ∧
      pool? looped.store (.ofNat 21) = some loop ∧ Address.Derived key authority ∧
      Holding.unpack (looped.store.read loop.vaultA).data =
        .ok (.opened (.ofNat 12) authority 100 []) ∧
      Holding.unpack (looped.store.read loop.vaultB).data =
        .ok (.opened (.ofNat 13) authority 100 []) ∧
      Token.supply looped.store loop.liquidityMint = 1000 ∧
      depositLayout.Gives looping.instruction [("depositor", authority)] ∧
      withdrawLayout.Gives leaving.instruction [("depositor", authority), ("token_a", .ofNat 26),
        ("token_b", .ofNat 27)] ∧ .ofNat 26 ∉ loop.vaults ∧ .ofNat 27 ∉ loop.vaults ∧
      tokens last.store (.ofNat 26) = tokens mid.store (.ofNat 26) + 19 ∧ 10 < 19 := by
  have run : program.committed? looped looping = some looping.instruction ∧
      program.committed? (program.served looped looping) leaving = some leaving.instruction ∧
      Token.supply looped.store loop.liquidityMint = 1000 ∧
      Token.supply (program.served looped looping).store loop.liquidityMint = 1100 ∧
      tokens (program.served (program.served looped looping) leaving).store (.ofNat 26) =
        tokens (program.served looped looping).store (.ofNat 26) + 19 := by
    decide +kernel
  have packed : (looped.store.read loop.vaultA).data =
        (Holding.opened (.ofNat 12) authority 100 []).pack ∧
      (looped.store.read loop.vaultB).data =
        (Holding.opened (.ofNat 13) authority 100 []).pack := by
    decide +kernel
  obtain ⟨commits, commits', issued, minted, paid⟩ := run
  have trip : RoundTrip looped (.ofNat 21) loop looping leaving ⟨10, 10, 255⟩ ⟨100, 255⟩ :=
    ⟨by decide +kernel, rfl, commits, by decide +kernel, rfl, commits', by rw [minted, issued]; rfl⟩
  refine ⟨trip, by decide +kernel, .of_find find_authority, ?_, ?_, issued, ?_, ?_, by decide, by decide,
    paid, by decide⟩
  · rw [packed.1]
    exact Token.unpack_pack _ (by simp [Holding.opened])
  · rw [packed.2]
    exact Token.unpack_pack _ (by simp [Holding.opened])
  · simp only [Layout.gives_cons, Layout.gives_nil, and_true]
    decide
  · simp only [Layout.gives_cons, Layout.gives_nil, and_true]
    decide

end AccountLedger.Swap
