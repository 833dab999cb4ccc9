import AccountLedger.Proofs.Swap.Prices
import AccountLedger.Proofs.Token.Moved
/-!
# What the instructions of a pool move

An instruction that commits with a pool moves what it is priced at, to the token, and nothing else in
the ledger.  The accounts that it names hold tokens of three mints, so those of different mints are
different; that none of them is a vault is what the user has to see to.

* `Reserves.worth`, `Reserves.payment`: the prices, over the naturals;
* `Deposit.Moves`, `Trade.Moves`, `Withdrawal.Moves`: what each instruction has moved;
* `moves_at_price`: an instruction that commits has.
-/

namespace AccountLedger.Swap

open Token (Holding Moved OfMint Posts tokens)

variable {l l' : Ledger} {i : Instruction} {f : Frame} {first last : Scene Ledger} {s s' s'' : Store}
  {p : Pool}

/-! ## what is moved -/

/-- the liquidity that both sides of a deposit are worth -/
def Reserves.worth (r : Reserves) (x y : Nat) : Nat :=
  if r.supply = 0 then Nat.sqrt (x * y) else min (x * r.supply / r.a) (y * r.supply / r.b)

/-- what a trader is paid: all of the reserve but what keeps the product of both, rounded up -/
def Reserves.payment (r : Reserves) (x : Nat) : Nat := r.b - (r.a * r.b) ⌈/⌉ (r.a + x)

/-- The supply of one mint changes, and of no other. -/
def Issued (mint : Key) (burnt made : Nat) (s s' : Store) : Prop :=
  ∀ other, Token.supply s' other + (if mint = other then burnt else 0) =
    Token.supply s other + (if mint = other then made else 0)

theorem Issued.congr {mint : Key} {burnt made : Nat} (same : ∀ k, s''.read k = s'.read k)
    (h : Issued mint burnt made s s') : Issued mint burnt made s s'' := by
  intro other
  rw [Token.supply, same]
  exact h other

/-- Both sides of a deposit go into the vaults, and what they are worth is minted to the associated
holding of the depositor. -/
def Deposit.Moves (d : Deposit) (i : Instruction) (p : Pool) (s s' : Store) : Prop :=
  ∃ depositor sourceA sourceB receiver,
    depositLayout.Gives i [("depositor", depositor), ("token_a", sourceA), ("token_b", sourceB),
      ("token_liquidity", receiver)] ∧
    Token.Associated.address depositor p.liquidityMint = .ok receiver ∧
    let x := d.amountA.toNat
    let y := d.amountB.toNat
    let liquidity := (p.reserves s).worth x y
    0 < liquidity ∧
      Moved [(sourceA, x), (sourceB, y)] [(p.vaultA, x), (p.vaultB, y), (receiver, liquidity)] s s' ∧
      Issued p.liquidityMint 0 liquidity s s'

/-- What is traded goes into one vault, and the payment comes out of the other. -/
def Trade.Moves (t : Trade) (i : Instruction) (p : Pool) (s s' : Store) : Prop :=
  ∃ source destination,
    tradeLayout.Gives i [("token_a", source), ("token_b", destination)] ∧
    let x := t.amountA.toNat
    let payment := (p.reserves s).payment x
    0 < payment ∧ t.expectedB.toNat ≤ payment ∧
      Moved [(source, x), (p.vaultB, payment)] [(p.vaultA, x), (destination, payment)] s s' ∧
      Issued p.liquidityMint 0 0 s s'

/-- The liquidity is burnt, and its share of both vaults, rounded down, comes out of them. -/
def Withdrawal.Moves (w : Withdrawal) (i : Instruction) (p : Pool) (s s' : Store) : Prop :=
  ∃ destinationA destinationB held,
    withdrawLayout.Gives i [("token_a", destinationA), ("token_b", destinationB),
      ("token_liquidity", held)] ∧
    let r := p.reserves s
    let m := w.amount.toNat
    Moved [(p.vaultA, r.a * m / r.supply), (p.vaultB, r.b * m / r.supply), (held, m)]
        [(destinationA, r.a * m / r.supply), (destinationB, r.b * m / r.supply)] s s' ∧
      Issued p.liquidityMint m 0 s s'

/-! ## accounts of different mints -/

/-- The vaults of a pool hold tokens of its mints, and these and that of the liquidity are
different. -/
structure Sorted (p : Pool) (s : Store) : Prop where
  vaultA : OfMint p.mintA s p.vaultA
  vaultB : OfMint p.mintB s p.vaultB
  mints : [p.mintA, p.mintB, p.liquidityMint].Nodup

theorem Sorted.step {takes : Key → Key → Prop} (sorted : Sorted p s)
    (fates : ∀ k, Token.Fate (takes k) (fun _ => False) (s.read k) (s'.read k)) : Sorted p s' :=
  ⟨sorted.vaultA.step (fates _), sorted.vaultB.step (fates _), sorted.mints⟩

/-- Two accounts of one mint and two of the other are four, where none of them is a vault. -/
theorem Sorted.nodup {a b : Key} (sorted : Sorted p s) (ofA : OfMint p.mintA s a)
    (ofB : OfMint p.mintB s b) (apartA : a ≠ p.vaultA) (apartB : b ≠ p.vaultB) :
    [a, b, p.vaultA, p.vaultB].Nodup := by
  have differ : p.mintA ≠ p.mintB := fun heq => by simpa [heq] using sorted.mints
  simp only [List.nodup_cons, List.mem_cons, List.not_mem_nil, or_false, not_or, List.nodup_nil,
    and_true, not_false_eq_true]
  exact ⟨⟨ofA.ne ofB differ, apartA, ofA.ne sorted.vaultB differ⟩,
    ⟨ofB.ne sorted.vaultA differ.symm, apartB⟩, sorted.vaultA.ne sorted.vaultB differ⟩

/-- An account of the liquidity is none of them. -/
theorem Sorted.nodup_cons {a b c : Key} (sorted : Sorted p s) (ofA : OfMint p.mintA s a)
    (ofB : OfMint p.mintB s b) (ofC : OfMint p.liquidityMint s c) (apartA : a ≠ p.vaultA)
    (apartB : b ≠ p.vaultB) : [c, a, b, p.vaultA, p.vaultB].Nodup := by
  have hA : p.liquidityMint ≠ p.mintA := fun heq => by simpa [heq] using sorted.mints
  have hB : p.liquidityMint ≠ p.mintB := fun heq => by simpa [heq] using sorted.mints
  refine List.nodup_cons.2 ⟨?_, sorted.nodup ofA ofB apartA apartB⟩
  simp only [List.mem_cons, List.not_mem_nil, or_false, not_or]
  exact ⟨ofC.ne ofA hA, ofC.ne ofB hB, ofC.ne sorted.vaultA hA, ofC.ne sorted.vaultB hB⟩

/-- the token accounts that an instruction names as the user's -/
def holdingsOf (i : Instruction) : List Key :=
  match program.route? (i.data.take 8) with
  | none => []
  | some r => ["token_a", "token_b", "token_liquidity"].filterMap (r.layout.keyOf? i)

theorem ne_vault {r : Route} {name : String} {k v : Key}
    (route : program.route? (i.data.take 8) = some r)
    (outside : ∀ v ∈ p.vaults, v ∉ holdingsOf i) (hv : v ∈ p.vaults)
    (hname : name ∈ ["token_a", "token_b", "token_liquidity"])
    (given : r.layout.keyOf? i name = some k) : k ≠ v := by
  rintro rfl
  refine outside k hv ?_
  rw [holdingsOf, route]
  exact List.mem_filterMap.2 ⟨name, hname, given⟩

/-! ## the instructions -/

theorem Worth.toNat_eq {d : Deposit} {m : Token.Mint} {liquidity : Amount}
    (worth : Worth d p s m.supply liquidity)
    (mint_at : Token.Mint.unpack (s.read p.liquidityMint).data = .ok m) :
    liquidity.toNat = (p.reserves s).worth d.amountA.toNat d.amountB.toNat := by
  have supply_eq : (p.reserves s).supply = m.supply.toNat := Token.issued_of_unpack mint_at
  unfold Worth at worth
  unfold Reserves.worth
  rw [supply_eq]
  by_cases hzero : m.supply = 0
  · rw [if_pos hzero] at worth
    rw [if_pos (by rw [hzero]; rfl), worth, toNat_firstLiquidity]
  · rw [if_neg hzero] at worth
    obtain ⟨a, b, sideA, sideB, ha, hb, priceA, priceB, rfl⟩ := worth
    have reserveA : (p.reserves s).a = a.amount.toNat := Token.tokens_of_unpack ha
    have reserveB : (p.reserves s).b = b.amount.toNat := Token.tokens_of_unpack hb
    have issued : m.supply.toNat ≠ 0 := fun h => hzero (UInt64.toNat_inj.1 h)
    rw [if_neg issued, toNat_min, share_eq_ok priceA, share_eq_ok priceB, reserveA, reserveB]

section

variable (sorted : Sorted p s) (outside : ∀ v ∈ p.vaults, v ∉ holdingsOf i)
  (same : ∀ k, s''.read k = s'.read k)
include sorted outside same

theorem Deposited.at_price {d : Deposit} (h : Deposited i d p s s')
    (route : program.route? (i.data.take 8) = some depositRoute) : d.Moves i p s s'' := by
  obtain @⟨depositor, receiver, sourceA, sourceB, minter, m, liquidity, opened, paid, filled, -, -,
    address, mint_at, worth, sets, paysA, paysB, mints, earned, names⟩ := h
  have apartA : sourceA ≠ p.vaultA :=
    ne_vault route outside (mem_vaultA p) (by simp) (names ("token_a", sourceA) (by simp))
  have apartB : sourceB ≠ p.vaultB :=
    ne_vault route outside (mem_vaultB p) (by simp) (names ("token_b", sourceB) (by simp))
  have sortedO := sorted.step sets.fate
  have sortedP := sortedO.step paysA.fate
  have ofA := ((paysA.ofMint_source sortedO.vaultA).step (paysA.fate _)).step (paysB.fate _)
  have ofB := (paysB.ofMint_source sortedP.vaultB).step (paysB.fate _)
  have distinct := (sortedP.step paysB.fate).nodup_cons ofA ofB mints.ofMint apartA apartB
  have posts := ((sets.posts.trans paysA.posts).trans paysB.posts).trans mints.posts
  have steady := (sets.steady.trans paysA.steady).trans paysB.steady
  refine ⟨depositor, sourceA, sourceB, receiver, names, address, ?_⟩
  dsimp only
  rw [← worth.toNat_eq mint_at]
  refine ⟨UInt64.lt_iff_toNat_lt.1 earned, (posts.moved ?_).congr same,
    Issued.congr same fun other => ?_⟩
  · show [sourceA, sourceB, p.vaultA, p.vaultB, receiver].Nodup
    grind
  · rw [(mints.grows other).2, steady.supply other, ite_self, Nat.add_zero]

theorem Traded.at_price {t : Trade} (h : Traded i t p s s')
    (route : program.route? (i.data.take 8) = some tradeRoute) : t.Moves i p s s'' := by
  obtain @⟨trader, source, destination, holder, a, b, amountB, paid, -, -, vaultA, vaultB, -, price,
    pays, yields, ⟨earned, expected⟩, names⟩ := h
  have apartA : source ≠ p.vaultA :=
    ne_vault route outside (mem_vaultA p) (by simp) (names ("token_a", source) (by simp))
  have apartB : destination ≠ p.vaultB :=
    ne_vault route outside (mem_vaultB p) (by simp) (names ("token_b", destination) (by simp))
  have sortedP := sorted.step pays.fate
  have ofA := (pays.ofMint_source sorted.vaultA).step (pays.fate _)
  have ofB := yields.ofMint_destination sortedP.vaultB
  have distinct := sortedP.nodup ofA ofB apartA apartB
  have payment_eq : amountB.toNat = (p.reserves s).payment t.amountA.toNat := by
    rw [payout_eq_ok price, ← Token.tokens_of_unpack vaultA, ← Token.tokens_of_unpack vaultB]
    rfl
  refine ⟨source, destination, fun e he => names e (List.mem_cons_of_mem _ he), ?_⟩
  dsimp only
  rw [← payment_eq]
  refine ⟨UInt64.lt_iff_toNat_lt.1 earned, UInt64.le_iff_toNat_le.1 expected,
    ((pays.posts.trans yields.posts).moved ?_).congr same, Issued.congr same fun other => ?_⟩
  · show [source, p.vaultB, p.vaultA, destination].Nodup
    grind
  · rw [(pays.steady.trans yields.steady).supply other]

theorem Withdrawn.at_price {w : Withdrawal} (h : Withdrawn i w p s s')
    (route : program.route? (i.data.take 8) = some withdrawRoute) : w.Moves i p s s'' := by
  obtain @⟨depositor, destinationA, destinationB, held, holder, m, a, b, amountA, amountB, drawn, both,
    -, -, mint_at, vaultA, vaultB, priceA, priceB, drawsA, drawsB, burns, names⟩ := h
  have apartA : destinationA ≠ p.vaultA :=
    ne_vault route outside (mem_vaultA p) (by simp) (names ("token_a", destinationA) (by simp))
  have apartB : destinationB ≠ p.vaultB :=
    ne_vault route outside (mem_vaultB p) (by simp) (names ("token_b", destinationB) (by simp))
  have sortedD := sorted.step drawsA.fate
  have ofA := ((drawsA.ofMint_destination sorted.vaultA).step (drawsA.fate _)).step (drawsB.fate _)
  have ofB := (drawsB.ofMint_destination sortedD.vaultB).step (drawsB.fate _)
  have distinct := (sortedD.step drawsB.fate).nodup_cons ofA ofB burns.ofMint apartA apartB
  have posts := (drawsA.posts.trans drawsB.posts).trans burns.posts
  have supply_eq : (p.reserves s).supply = m.supply.toNat := Token.issued_of_unpack mint_at
  have reserveA : (p.reserves s).a = a.amount.toNat := Token.tokens_of_unpack vaultA
  have reserveB : (p.reserves s).b = b.amount.toNat := Token.tokens_of_unpack vaultB
  refine ⟨destinationA, destinationB, held, fun e he => names e (List.mem_cons_of_mem _ he), ?_⟩
  dsimp only
  rw [supply_eq, reserveA, reserveB, ← share_eq_ok priceA, ← share_eq_ok priceB]
  refine ⟨(posts.moved ?_).congr same, Issued.congr same fun other => ?_⟩
  · show [p.vaultA, p.vaultB, held, destinationA, destinationB].Nodup
    grind
  · rw [(burns.shrinks other).2, (drawsA.steady.trans drawsB.steady).supply other, ite_self,
      Nat.add_zero]

end

/-- An instruction that commits with a pool moves what it is priced at, and no other tokens, and no
other mint changes.  The user's token accounts may be any but the vaults. -/
theorem moves_at_price (l : Ledger) (s : Submission) (record : Key) (p : Pool)
    (installed : l.natives Token.program = some Token.native)
    (associated : l.natives Token.Associated.program = some Token.Associated.native)
    (here : pool? l.store record = some p) (sorted : Sorted p l.store)
    (executed : recordOf? s.instruction = some record)
    (commits : program.committed? l s = some s.instruction)
    (outside : ∀ v ∈ p.vaults, v ∉ holdingsOf s.instruction) :
    let next := (program.served l s).store
    (∀ d : Deposit, s.instruction.data = depositRoute.data d →
        d.Moves s.instruction p l.store next) ∧
      (∀ t : Trade, s.instruction.data = tradeRoute.data t →
        t.Moves s.instruction p l.store next) ∧
      (∀ w : Withdrawal, s.instruction.data = withdrawRoute.data w →
        w.Moves s.instruction p l.store next) := by
  refine ⟨fun d written => ?_, fun t written => ?_, fun w written => ?_⟩
  · obtain ⟨f, first, last, commit⟩ :=
      Program.commit_of_data (r := depositRoute) commits route?_deposit written
    obtain ⟨now, deposited, same⟩ := deposited_of_commit installed executed here commit associated
    exact deposited.at_price sorted outside same commit.route
  · obtain ⟨f, first, last, commit⟩ :=
      Program.commit_of_data (r := tradeRoute) commits route?_trade written
    obtain ⟨now, traded, same⟩ := traded_of_commit installed executed here commit
    exact traded.at_price sorted outside same commit.route
  · obtain ⟨f, first, last, commit⟩ :=
      Program.commit_of_data (r := withdrawRoute) commits route?_withdraw written
    obtain ⟨now, withdrawn, same⟩ := withdrawn_of_commit installed executed here commit
    exact withdrawn.at_price sorted outside same commit.route

/-- the creator adds six tokens to one vault and three to the other -/
def adding : Submission where
  instruction :=
    { program := key
      metas := [⟨.ofNat 2, true, true⟩, ⟨.ofNat 14, false, true⟩, ⟨liquidityAuthority, false, false⟩,
        ⟨.ofNat 24, false, true⟩, ⟨.ofNat 25, false, true⟩,
        ⟨.ofNat 0x581c1b9611d196cccbe9afe2b728f675b89e310a57cf78dcf9d4bef66a447a3d, false, true⟩,
        ⟨.ofNat 22, false, true⟩, ⟨.ofNat 23, false, true⟩, ⟨.ofNat 21, false, false⟩,
        ⟨.system, false, false⟩, ⟨Token.program, false, false⟩,
        ⟨Token.Associated.program, false, false⟩]
      data := depositRoute.data (⟨6, 3, 255⟩ : Deposit) }
  height := 1
  callStack := []

/-- the creator buys for five tokens -/
def buying : Submission where
  instruction :=
    { program := key
      metas := [⟨.ofNat 2, true, true⟩, ⟨.ofNat 24, false, true⟩, ⟨.ofNat 25, false, true⟩,
        ⟨.ofNat 22, false, true⟩, ⟨.ofNat 23, false, true⟩, ⟨authority, false, false⟩,
        ⟨.ofNat 21, false, false⟩, ⟨Token.program, false, false⟩]
      data := tradeRoute.data (⟨5, 2, 255⟩ : Trade) }
  height := 1
  callStack := []

theorem stocked_at_price :
    pond.reserves stocked.store = ⟨100, 50, 70⟩ ∧
      (⟨6, 3, 255⟩ : Deposit).Moves adding.instruction pond stocked.store
        (program.served stocked adding).store ∧
      (⟨5, 2, 255⟩ : Trade).Moves buying.instruction pond stocked.store
        (program.served stocked buying).store ∧
      (⟨30, 255⟩ : Withdrawal).Moves drawing.instruction pond stocked.store
        (program.served stocked drawing).store := by
  have run : ∀ s ∈ [adding, buying, drawing],
      program.committed? stocked s = some s.instruction ∧
        recordOf? s.instruction = some (.ofNat 21) ∧
        ∀ v ∈ pond.vaults, v ∉ holdingsOf s.instruction := by
    decide +kernel
  have reserves : pond.reserves stocked.store = ⟨100, 50, 70⟩ := by decide +kernel
  have sorted : Sorted pond stocked.store :=
    ⟨⟨_, stocked_vaults.1, rfl⟩, ⟨_, stocked_vaults.2, rfl⟩, by decide⟩
  have moves : ∀ s ∈ [adding, buying, drawing], _ := fun s hs =>
    moves_at_price stocked s (.ofNat 21) pond rfl rfl (by decide +kernel) sorted (run s hs).2.1
      (run s hs).1 (run s hs).2.2
  exact ⟨reserves, (moves adding (by simp)).1 _ rfl, (moves buying (by simp)).2.1 _ rfl,
    (moves drawing (by simp)).2.2 _ rfl⟩

end AccountLedger.Swap
