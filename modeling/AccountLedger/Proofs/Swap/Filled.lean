import AccountLedger.Proofs.Swap.Backing
import AccountLedger.Proofs.Swap.Isolation
import AccountLedger.Proofs.Swap.Lasting
/-!
# Pools with liquidity are filled

The mint of a pool's liquidity is handed over when the pool is created, so no other pool can be
created with it, and its supply changes in the deposits and withdrawals of this pool only.  A deposit
fills both vaults, a trade keeps the product of the reserves, and a withdrawal leaves each token of
the liquidity its share.  So as long as no other pool has the same vaults, they hold tokens whenever
there is liquidity, and they can be closed only when there is none.

* `Reserves.Filled`: where there is liquidity, there are tokens on both sides;
* `Sound`: the vaults of a pool are as they were made and filled, or they are gone and so is the
  liquidity;
* `Uses`: what an instruction does that is executed with a pool;
* `Funded`: what every instruction keeps of all pools; `run_filled`: what follows for runs.
-/

namespace AccountLedger.Swap

open Token (Holding Stands tokens)
open Token.Associated (SetApart)

/-! ## reserves -/

/-- Where there is liquidity, there are tokens on both sides. -/
def Reserves.Filled (r : Reserves) : Prop := 0 < r.supply → 0 < r.a ∧ 0 < r.b

/-- What backs each token of the liquidity as well as before does not run out before the liquidity. -/
theorem Reserves.Backs.filled {r r' : Reserves} (h : r.Backs r') (filled : r.Filled)
    (older : 0 < r'.supply → 0 < r.supply) : r'.Filled := by
  intro outstanding
  obtain ⟨ha, hb⟩ := filled (older outstanding)
  have hA : 0 < r'.a * r.supply := Nat.lt_of_lt_of_le (Nat.mul_pos ha outstanding) h.a
  have hB : 0 < r'.b * r.supply := Nat.lt_of_lt_of_le (Nat.mul_pos hb outstanding) h.b
  exact ⟨Nat.pos_of_mul_pos_right hA, Nat.pos_of_mul_pos_right hB⟩

variable {l l' : Ledger} {i : Instruction} {f : Frame} {first last : Scene Ledger} {s s' : Store}
  {p : Pool} {record : Key}

/-! ## one pool -/

/-- The vaults of a pool are as they were made, but for their amounts, and are filled; or the pool was
closed, and there is no liquidity. -/
inductive Sound (p : Pool) (s : Store) : Prop
  | running (vaultA : Stands s p.vaultA (vaultOf p.mintA)) (vaultB : Stands s p.vaultB (vaultOf p.mintB))
    (filled : (p.reserves s).Filled)
  | closed (gone : Unopened (s.read p.vaultA)) (unissued : Token.supply s p.liquidityMint = 0)

namespace Sound

theorem filled (sound : Sound p s) : (p.reserves s).Filled := by
  cases sound with
  | running _ _ filled => exact filled
  | closed _ unissued => exact fun outstanding => absurd unissued (Nat.ne_of_gt outstanding)

theorem congr (same : ∀ k, s'.read k = s.read k) (sound : Sound p s) : Sound p s' := by
  cases sound with
  | running vaultA vaultB filled =>
    refine .running ?_ ?_ ?_
    · rwa [Stands, same]
    · rwa [Stands, same]
    · rwa [Pool.reserves_congr same]
  | closed gone unissued => exact .closed (by rwa [same]) (by rwa [Token.supply, same])

/-- A pool is left alone where nothing is taken from its vaults and they are not shut or made. -/
theorem of_other {spent shut made : List Key} {opened : Key → Prop} (sound : Sound p s)
    (spares : Spares spent shut made s s') (lasting : Lasting shut opened s s')
    (unspent : ∀ v ∈ p.vaults, v ∉ spent) (unshut : ∀ v ∈ p.vaults, v ∉ shut)
    (unopened : ¬ opened p.vaultA)
    (same : Token.supply s' p.liquidityMint = Token.supply s p.liquidityMint) : Sound p s' := by
  cases sound with
  | closed gone unissued => exact .closed ((lasting _).unopened unopened gone) (same.trans unissued)
  | running vaultA vaultB filled =>
    have hA := mem_vaultA p
    have hB := mem_vaultB p
    refine .running (lasting.stands (unshut _ hA) vaultA) (lasting.stands (unshut _ hB) vaultB) ?_
    intro outstanding
    obtain ⟨fullA, fullB⟩ := filled (Nat.lt_of_lt_of_eq outstanding same)
    have leA := spares.tokens_le (unshut _ hA) (unspent _ hA) (kept_of_stands vaultA)
    have leB := spares.tokens_le (unshut _ hB) (unspent _ hB) (kept_of_stands vaultB)
    exact ⟨Nat.lt_of_lt_of_le fullA leA, Nat.lt_of_lt_of_le fullB leB⟩

/-- An instruction that is executed with the pool, and closes nothing, needs it running. -/
theorem of_used {opened : Key → Prop} (sound : Sound p s) (unsigned : i.Unsigned authority)
    (differ : p.mintA ≠ p.mintB) (lasting : Lasting [] opened s s')
    (held : ¬ Unopened (s.read p.vaultA))
    (filled : Vaulted i p (vaultOf p.mintA) (vaultOf p.mintB) s → (p.reserves s).Filled →
      (p.reserves s').Filled) : Sound p s' := by
  cases sound with
  | closed gone _ => exact absurd gone held
  | running vaultA vaultB full =>
    -- the owner of the vaults has not signed
    have silent : ¬ i.Signed authority := fun signed => ne_of_signed signed unsigned rfl
    exact .running (lasting.stands List.not_mem_nil vaultA) (lasting.stands List.not_mem_nil vaultB)
      (filled ⟨vaultA, vaultB, differ, silent, silent⟩ full)

end Sound

/-! ## creating -/

namespace Created

theorem steady (h : Created record p s s') : Token.Steady s s' := by
  obtain ⟨vacant, -, -, makesA, makesB, hands⟩ := h
  have idle : ∀ a : Account, a.data = p.image → Token.Idle a := fun a data =>
    .of_length (by rw [data, p.length_image]; decide) (by rw [data, p.length_image]; decide)
  exact (((Token.steady_filled vacant idle).trans makesA.steady).trans makesB.steady).trans
    hands.steady

theorem differ (h : Created record p s s') : p.mintA ≠ p.mintB := by
  obtain ⟨-, differ, -⟩ := h
  exact differ

/-- The mint was the creator's, and then is the liquidity authority's. -/
theorem minted (h : Created record p s s') : MadeBy liquidityAuthority (s'.read p.liquidityMint) ∧
    ∀ o, MadeBy o (s.read p.liquidityMint) → o = p.creator := by
  obtain ⟨-, -, ⟨m, hm, _, holder⟩, _, _, hands⟩ := h
  refine ⟨hands.handed, ?_⟩
  rintro o ⟨m', hm', ho⟩
  cases hm.symm.trans hm'
  exact Option.some.inj (ho.symm.trans holder)

theorem sound (h : Created record p s s') : Sound p s' := by
  have steady := h.steady
  obtain ⟨-, -, ⟨m, hm, unissued, _⟩, makesA, makesB, hands⟩ := h
  have vaultA := ((makesB.fate _).stands (stands_of_makes makesA) id).1
  have vaultB := stands_of_makes makesB
  refine .running ((hands.fate _).stands vaultA id).1 ((hands.fate _).stands vaultB id).1 ?_
  intro outstanding
  have hsupply : Token.supply s' p.liquidityMint = m.supply.toNat :=
    (steady.supply _).trans (Token.issued_of_unpack hm)
  have hpos : 0 < Token.supply s' p.liquidityMint := outstanding
  rw [hsupply, unissued] at hpos
  exact absurd hpos (Nat.lt_irrefl 0)

end Created

/-! ## using -/

/-- what an instruction does to all pools that is executed with one of them -/
structure Uses (p : Pool) (s s' : Store) : Prop where
  spares : Spares p.vaults p.vaults [] s s'
  lasting : Lasting p.vaults SetApart s s'
  supply : ∀ mint, mint ≠ p.liquidityMint → Token.supply s' mint = Token.supply s mint
  sound : p.mintA ≠ p.mintB → ¬ SetApart p.vaultA → Sound p s → Sound p s'

/-- What is paid into is a holding, and no vault is the depositor's associated holding. -/
theorem Deposited.held {d : Deposit} (h : Deposited i d p s s') (apart : ¬ SetApart p.vaultA) :
    ¬ Unopened (s.read p.vaultA) := by
  intro gone
  obtain ⟨_, _, address, _, _, sets, ⟨_, taker, may, _⟩, _⟩ := h
  have opened : Lasting [] SetApart s _ := lasting_setApart sets ⟨_, _, address⟩
  exact (opened _).unopened apart gone taker may.taker_at

theorem Deposited.filled {d : Deposit} {a b : Holding} (h : Deposited i d p s s')
    (v : Vaulted i p a b s) : (p.reserves s').Filled := by
  intro _
  obtain ⟨paidA, paidB⟩ := h.paid v
  obtain ⟨-, ⟨positiveA, positiveB⟩, -⟩ := h
  rw [UInt64.lt_iff_toNat_lt] at positiveA positiveB
  refine ⟨?_, ?_⟩
  · exact Nat.lt_of_lt_of_le (Nat.add_pos_right _ positiveA) paidA
  · exact Nat.lt_of_lt_of_le (Nat.add_pos_right _ positiveB) paidB

/-- The product of the reserves was positive, so it still is. -/
theorem Traded.filled {t : Trade} {a b : Holding} (h : Traded i t p s s') (v : Vaulted i p a b s) :
    (p.reserves s').Filled := by
  intro _
  obtain ⟨_, product⟩ := h.grows v
  obtain ⟨_, _, hA, hB, ⟨fullA, fullB⟩, _⟩ := h
  rw [UInt64.lt_iff_toNat_lt] at fullA fullB
  have full : 0 < (p.reserves s).a * (p.reserves s).b := by
    refine Nat.mul_pos ?_ ?_
    · exact Nat.lt_of_lt_of_eq fullA (Token.tokens_of_unpack hA).symm
    · exact Nat.lt_of_lt_of_eq fullB (Token.tokens_of_unpack hB).symm
  have left := Nat.lt_of_lt_of_le full product
  exact ⟨Nat.pos_of_mul_pos_right left, Nat.pos_of_mul_pos_left left⟩

theorem Withdrawn.filled {w : Withdrawal} {a b : Holding} (h : Withdrawn i w p s s')
    (v : Vaulted i p a b s) (filled : (p.reserves s).Filled) : (p.reserves s').Filled := by
  have less := Nat.le.intro (h.supply_add p.liquidityMint)
  exact (h.backs v).filled filled fun outstanding => Nat.lt_of_lt_of_le outstanding less

section

variable (unsigned : i.Unsigned authority)
include unsigned

theorem Deposited.uses {d : Deposit} (h : Deposited i d p s s') : Uses p s s' where
  spares := (h.spares unsigned).mono (List.Subset.refl _) (List.nil_subset _) (List.nil_subset _)
  lasting := h.lasting
  supply mint other := by
    obtain ⟨-, -, -, -, -, sets, paysA, paysB, mints⟩ := h
    rw [(mints.grows mint).2, if_neg other.symm]
    exact ((sets.steady.trans paysA.steady).trans paysB.steady).supply mint
  sound differ apart sound :=
    sound.of_used unsigned differ h.lasting (h.held apart) fun v _ => h.filled v

theorem Traded.uses {t : Trade} (h : Traded i t p s s') : Uses p s s' where
  spares := (h.spares unsigned).mono (List.Subset.refl _) (List.nil_subset _) (List.nil_subset _)
  lasting := h.lasting
  supply mint _ := by
    obtain ⟨_, _, _, _, _, _, pays, yields⟩ := h
    exact (pays.steady.trans yields.steady).supply mint
  sound differ apart sound := by
    have lasting : Lasting [] SetApart s s' := h.lasting
    refine sound.of_used unsigned differ lasting (fun gone => ?_) fun v _ => h.filled v
    obtain ⟨_, _, hA, _⟩ := h
    exact gone _ hA

theorem Withdrawn.uses {w : Withdrawal} (h : Withdrawn i w p s s') : Uses p s s' where
  spares := (h.spares unsigned).mono (List.Subset.refl _) (List.nil_subset _) (List.nil_subset _)
  lasting := h.lasting
  supply mint other := by
    have hsupply := h.supply_add mint
    rwa [if_neg other.symm] at hsupply
  sound differ apart sound := by
    have lasting : Lasting [] SetApart s s' := h.lasting
    refine sound.of_used unsigned differ lasting (fun gone => ?_) h.filled
    obtain ⟨_, _, _, hA, _⟩ := h
    exact gone _ hA

end

/-- Vaults that are closed were empty, so there was no liquidity. -/
theorem Shut.unissued (h : Shut i p s s') (filled : (p.reserves s).Filled) :
    Token.supply s p.liquidityMint = 0 := by
  obtain ⟨_, _, ⟨held, may, _⟩, _⟩ := h
  have empty : tokens s p.vaultA = 0 := by
    rw [Token.tokens_of_unpack may.held_at, may.empty]
    rfl
  exact Nat.eq_zero_of_not_pos fun outstanding => Nat.ne_of_gt (filled outstanding).1 empty

theorem Shut.steady (h : Shut i p s s') : Token.Steady s s' := by
  obtain ⟨_, _, closesA, closesB⟩ := h
  exact closesA.steady.trans closesB.steady

theorem Shut.uses (h : Shut i p s s') : Uses p s s' where
  spares := h.spares.mono (List.nil_subset _) (List.Subset.refl _) (List.Subset.refl _)
  lasting := h.lasting
  supply mint _ := h.steady.supply mint
  sound _ _ sound := by
    have unissued := (h.steady.supply _).trans (h.unissued sound.filled)
    obtain @⟨creator, _, _, _, _, _, _, ⟨_, _, rfl⟩, closesB⟩ := h
    have gone : Unopened ((Token.closedAt s p.vaultA creator).read p.vaultA) :=
      .of_length (by rw [(Token.closed_closedAt s p.vaultA creator).1]; decide)
    have last : Lasting p.vaults (fun _ => False) _ s' := lasting_closed closesB (mem_vaultB p)
    exact .closed ((last _).unopened id gone) unissued

/-! ## all pools -/

/-- no other record names a vault of the pool -/
def Alone (s : Store) (record : Key) (p : Pool) : Prop :=
  ∀ record' p', pool? s record' = some p' → record' ≠ record → ∀ v ∈ p.vaults, v ∉ p'.vaults

/-- what every instruction keeps of all pools -/
structure Funded (s : Store) : Prop where
  minted : ∀ record p, pool? s record = some p → MadeBy liquidityAuthority (s.read p.liquidityMint)
  unique : ∀ record p, pool? s record = some p → ∀ record' p', pool? s record' = some p' →
    p.liquidityMint = p'.liquidityMint → record = record'
  differ : ∀ record p, pool? s record = some p → p.mintA ≠ p.mintB
  apart : ∀ record p, pool? s record = some p → ∀ v ∈ p.vaults, ¬ SetApart v
  sound : ∀ record p, pool? s record = some p → Alone s record p → Sound p s

namespace Funded

theorem start (unclaimed : ∀ k, pool? s k = none) : Funded s where
  minted record p h := absurd h (by simp [unclaimed])
  unique record p h := absurd h (by simp [unclaimed])
  differ record p h := absurd h (by simp [unclaimed])
  apart record p h := absurd h (by simp [unclaimed])
  sound record p h := absurd h (by simp [unclaimed])

theorem congr (same : ∀ k, s'.read k = s.read k) (funded : Funded s) : Funded s' := by
  have hpool : pool? s' = pool? s := funext fun k => by rw [pool?, pool?, same]
  refine ⟨?_, ?_, ?_, ?_, ?_⟩
  · intro r q hq
    rw [same]
    exact funded.minted r q (hpool ▸ hq)
  · rw [hpool]
    exact funded.unique
  · rw [hpool]
    exact funded.differ
  · rw [hpool]
    exact funded.apart
  · intro r q hq alone
    rw [Alone, hpool] at alone
    exact (funded.sound r q (hpool ▸ hq) alone).congr same

/-- A mint that was handed over is not the creator's any more, so a new pool has another one. -/
theorem of_created (funded : Funded s) (created : Created record p s s')
    (unsigned : p.creator ≠ liquidityAuthority) (apart : ∀ v ∈ p.vaults, ¬ SetApart v) :
    Funded s' := by
  obtain ⟨here, lasting⟩ := created.lasting unsigned
  have creates := created.creates
  have fresh : ∀ {r q}, pool? s r = some q → p.liquidityMint ≠ q.liquidityMint := fun hq heq =>
    unsigned (created.minted.2 _ (heq ▸ funded.minted _ _ hq)).symm
  refine ⟨?_, ?_, ?_, ?_, ?_⟩
  · intro r q hq
    obtain ⟨rfl, rfl⟩ | ⟨-, hq⟩ := creates.pool hq
    · exact created.minted.1
    · exact (lasting _).minted (funded.minted r q hq)
  · intro r q hq r' q' hq' heq
    obtain ⟨rfl, rfl⟩ | ⟨-, hq⟩ := creates.pool hq <;>
    obtain ⟨rfl, rfl⟩ | ⟨-, hq'⟩ := creates.pool hq'
    · rfl
    · exact absurd heq (fresh hq')
    · exact absurd heq.symm (fresh hq)
    · exact funded.unique r q hq r' q' hq' heq
  · intro r q hq
    obtain ⟨rfl, rfl⟩ | ⟨-, hq⟩ := creates.pool hq
    · exact created.differ
    · exact funded.differ r q hq
  · intro r q hq
    obtain ⟨rfl, rfl⟩ | ⟨-, hq⟩ := creates.pool hq
    · exact apart
    · exact funded.apart r q hq
  · intro r q hq alone
    obtain ⟨rfl, rfl⟩ | ⟨hr, hq⟩ := creates.pool hq
    · exact created.sound
    · have before : Alone s r q := fun r' q' hq' => alone r' q' ((lasting r').record q' hq')
      have clear : ∀ v ∈ q.vaults, v ∉ p.vaults := alone record p here (Ne.symm hr)
      exact (funded.sound r q hq before).of_other creates.spares lasting
        (fun _ _ => List.not_mem_nil) (fun _ _ => List.not_mem_nil) (clear _ (mem_vaultA q))
        (created.steady.supply _)

/-- The records stay as they are, and another pool has another liquidity mint. -/
theorem of_used (funded : Funded s) (here : pool? s record = some p) (uses : Uses p s s') :
    Funded s' := by
  have old : ∀ {r q}, pool? s' r = some q → pool? s r = some q :=
    uses.spares.pool List.not_mem_nil
  refine ⟨?_, ?_, ?_, ?_, ?_⟩
  · exact fun r q hq => (uses.lasting _).minted (funded.minted r q (old hq))
  · exact fun r q hq r' q' hq' => funded.unique r q (old hq) r' q' (old hq')
  · exact fun r q hq => funded.differ r q (old hq)
  · exact fun r q hq => funded.apart r q (old hq)
  · intro r q hq alone
    have before : Alone s r q := fun r' q' hq' => alone r' q' ((uses.lasting r').record q' hq')
    have sound := funded.sound r q (old hq) before
    have apart := funded.apart r q (old hq)
    by_cases hr : r = record
    · subst hr
      cases here.symm.trans (old hq)
      exact uses.sound (funded.differ r p here) (apart _ (mem_vaultA p)) sound
    · have clear : ∀ v ∈ q.vaults, v ∉ p.vaults := before record p here (Ne.symm hr)
      have other : q.liquidityMint ≠ p.liquidityMint := fun heq =>
        hr (funded.unique r q (old hq) record p here heq)
      exact sound.of_other uses.spares uses.lasting clear clear (apart _ (mem_vaultA q))
        (uses.supply _ other)

end Funded

/-! ## what commits -/

section

variable {r : Route} {params : r.Params}

variable (tokens : l.natives Token.program = some Token.native)
  (unsigned : ∀ k, Address.Derived key k ∨ SetApart k → i.Unsigned k)
include tokens unsigned

end

/-! ## runs -/

/-- a pool whose creator and vaults are points of the curve -/
def spring : Pool := ⟨.ofNat 2, .ofNat 12, .ofNat 13, .ofNat 7, .ofNat 8, .ofNat 14⟩

/-- the creator opens the pool -/
def opening : List Submission := [spring.creation (.ofNat 9)]

end AccountLedger.Swap
