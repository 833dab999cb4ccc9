import AccountLedger.Proofs.Swap.Redeeming
/-!
# Liquidity is redeemable in full

The holders of all the liquidity of a pool redeem it, one after the other.  Every share is rounded down
against the reserves that the earlier ones have left, so a later holder gets what is lost by an earlier
one, and the last holder burns the whole supply and gets all that is left.

* `Claimed.left`: a redemption leaves the others with a claim to all that is left;
* `redeemable_in_full`: all redemptions go through, in any order, and leave nothing.
-/

namespace AccountLedger.Swap

open Token (Holding Mint tokens)

variable {l : Ledger} {record : Key} {p : Pool} {a b supply : Amount} {h : Holder}
  {holders : List Holder} {s s' : Store}

/-- The last of the liquidity is worth all that is left. -/
theorem Reserves.without_all {r : Reserves} (outstanding : 0 < r.supply) :
    r.without r.supply = ⟨0, 0, 0⟩ := by
  rw [without, Nat.mul_div_cancel _ outstanding, Nat.mul_div_cancel _ outstanding, Nat.sub_self,
    Nat.sub_self, Nat.sub_self]

/-- Holders of as much liquidity as there is, and nothing in the vaults if there is none. -/
structure Claimed (holders : List Holder) (r : Reserves) : Prop where
  whole : Amount.total (·.amount) holders = r.supply
  backed : r.supply = 0 → r = ⟨0, 0, 0⟩

theorem Claimed.left (claimed : Claimed (h :: holders) (p.reserves s)) (paid : Paid p h s s') :
    Claimed holders (p.reserves s') := by
  have whole := claimed.whole
  rw [Amount.total_cons] at whole
  rw [paid.reserves]
  refine ⟨?_, fun none => ?_⟩
  · show _ = (p.reserves s).supply - h.amount.toNat
    omega
  · have all : h.amount.toNat = (p.reserves s).supply := by
      have none : (p.reserves s).supply - h.amount.toNat = 0 := none
      omega
    rw [all]
    exact Reserves.without_all paid.outstanding

/-- the ledger after some holders have redeemed their liquidity, in this order -/
def afterRedeeming (record : Key) (p : Pool) (holders : List Holder) (l : Ledger) : Ledger :=
  holders.foldl (fun here h => program.served here (h.submission p record)) l

theorem afterRedeeming_cons (holders : List Holder) (l : Ledger) :
    afterRedeeming record p (h :: holders) l =
      afterRedeeming record p holders (program.served l (h.submission p record)) :=
  List.foldl_cons ..

/-- A run of redemptions, from any reserves that the holders have a claim to. -/
theorem run_redeems (proper : p.Proper) (tokens : l.natives Token.program = some Token.native)
    (installed : (l.store.read Token.program).executable = true)
    (pool : ∃ a b supply, Pooled record p a b supply l.store)
    (ready : ∀ h ∈ holders, h.Ready p l.store) (apart : (holders.map (·.liquidity)).Nodup)
    (claimed : Claimed holders (p.reserves l.store))
    (room : ∀ front h rest, holders = front ++ h :: rest →
      h.Room p (afterRedeeming record p front l).store) :
    let run := holders.map (·.submission p record)
    program.committed l run = run.map (·.instruction) ∧
      (∀ front h rest, holders = front ++ h :: rest →
        let here := afterRedeeming record p front l
        Paid p h here.store (program.served here (h.submission p record)).store) ∧
      p.reserves (afterRedeeming record p holders l).store = ⟨0, 0, 0⟩ := by
  induction holders generalizing l with
  | nil => exact ⟨rfl, by simp, claimed.backed claimed.whole.symm⟩
  | cons h rest ih =>
    obtain ⟨a, b, supply, pool⟩ := pool
    obtain ⟨fresh, apart⟩ := List.nodup_cons.1 apart
    obtain ⟨here, ready⟩ := List.forall_mem_cons.1 ready
    have covered : h.amount.toNat ≤ supply.toNat := by
      have whole := claimed.whole
      rw [pool.reserves, Amount.total_cons] at whole
      exact Nat.le.intro whole
    obtain ⟨commits, redeemed⟩ :=
      redeeming_commits tokens installed proper pool here covered (room [] h rest rfl)
    have others : ∀ g ∈ rest, g.Ready p (program.served l (h.submission p record)).store :=
      fun g hg => redeemed.ready (ready g hg) fun heq => fresh (List.mem_map.2 ⟨g, hg, heq⟩)
    have natives := (congrFun (Program.natives_served (p := program) l (h.submission p record)) _).trans
      tokens
    have room' : ∀ front g rest', rest = front ++ g :: rest' → g.Room p
        (afterRedeeming record p front (program.served l (h.submission p record))).store := by
      intro front g rest' heq
      rw [← afterRedeeming_cons]
      exact room (h :: front) g rest' (congrArg (h :: ·) heq)
    obtain ⟨committed, paid, reserves⟩ := ih natives ((redeemed.executable _).trans installed)
      redeemed.pool others apart (claimed.left redeemed.paid) room'
    refine ⟨?_, ?_, ?_⟩
    · show (program.committed? l _).toList ++ program.committed _ _ = _
      rw [commits, committed]
      rfl
    · rintro (_ | ⟨first, front⟩) g rest' heq
      · cases heq
        exact redeemed.paid
      · cases heq
        rw [afterRedeeming_cons]
        exact paid front g rest' rfl
    · rw [afterRedeeming_cons]
      exact reserves

/-- The holders of all the liquidity of a pool redeem it in any order, each with one withdrawal of all
that it holds.  Every withdrawal commits and pays its share of what is there, and after the last one
both vaults are empty and there is no liquidity any more. -/
theorem redeemable_in_full (l : Ledger) (record : Key) (p : Pool) (a b supply : Amount)
    (holders : List Holder) (tokens : l.natives Token.program = some Token.native)
    (installed : (l.store.read Token.program).executable = true) (proper : p.Proper)
    (pool : Pooled record p a b supply l.store) (outstanding : 0 < supply)
    (ready : ∀ h ∈ holders, h.Ready p l.store) (apart : (holders.map (·.liquidity)).Nodup)
    (whole : Amount.total (·.amount) holders = supply.toNat)
    (room : ∀ front h rest, holders = front ++ h :: rest →
      h.Room p (afterRedeeming record p front l).store) :
    let run := holders.map (·.submission p record)
    program.committed l run = run.map (·.instruction) ∧
      (∀ front h rest, holders = front ++ h :: rest →
        let here := afterRedeeming record p front l
        Paid p h here.store (program.served here (h.submission p record)).store) ∧
      p.reserves (afterRedeeming record p holders l).store = ⟨0, 0, 0⟩ := by
  have claimed : Claimed holders (p.reserves l.store) := by
    rw [pool.reserves]
    refine ⟨whole, fun none => ?_⟩
    exact absurd none (Nat.ne_of_gt (UInt64.lt_iff_toNat_lt.1 outstanding))
  exact run_redeems proper tokens installed ⟨a, b, supply, pool⟩ ready apart claimed room

/-- holdings for the pond: the account, its mint, its owner and its tokens -/
def shares : List (Nat × Nat × Key × Amount) :=
  [(22, 12, authority, 100), (23, 13, authority, 50), (24, 12, .ofNat 2, 7), (25, 13, .ofNat 2, 3),
    (26, 14, .ofNat 2, 30), (27, 14, .ofNat 3, 40), (28, 12, .ofNat 3, 0), (29, 13, .ofNat 3, 0)]

/-- the data of a holding that was never used before -/
def dataOf (x : Nat × Nat × Key × Amount) : Bytes :=
  (Holding.opened (.ofNat x.2.1) x.2.2.1 x.2.2.2 []).pack

/-- the ledger with the pond on which two wallets hold all the liquidity -/
def shared : Ledger :=
  shares.foldl (fun l x => l.addAccount
      { key := .ofNat x.1, lamports := 10000000, data := dataOf x, owner := Token.program })
    (stocked.addAccount { key := .ofNat 3, lamports := 1000000000 })

def partners : List Holder :=
  [⟨.ofNat 2, .ofNat 26, .ofNat 24, .ofNat 25, 30⟩, ⟨.ofNat 3, .ofNat 27, .ofNat 28, .ofNat 29, 40⟩]

/-- The first holder gets 42 and 21 tokens, and the other one the 58 and 29 that are left. -/
theorem shared_redeemed :
    let last := afterRedeeming (.ofNat 21) pond partners shared
    program.committed shared (partners.map (·.submission pond (.ofNat 21))) =
        partners.map (·.redeeming pond (.ofNat 21)) ∧
      pond.reserves last.store = ⟨0, 0, 0⟩ := by
  have facts : ∀ x ∈ shares, (shared.store.read (.ofNat x.1)).data = dataOf x ∧
      (shared.store.read (.ofNat x.1)).owner = Token.program ∧
      (shared.store.read (.ofNat x.1)).executable = false := by
    decide +kernel
  have keeps : ∀ x ∈ shares, Keeps shared.store (.ofNat x.1) (.ofNat x.2.1) x.2.2.1 x.2.2.2 :=
    fun x hx => .of_pack (facts x hx).1 rfl (facts x hx).2.1 (facts x hx).2.2
  have mint : (shared.store.read (.ofNat 14)).data =
        (⟨⟨true, liquidityAuthority⟩, 70, 0, true, ⟨false, .ofNat 0⟩⟩ : Mint).pack ∧
      (shared.store.read (.ofNat 14)).owner = Token.program ∧
      (shared.store.read (.ofNat 14)).executable = false := by
    decide +kernel
  have pool : Pooled (.ofNat 21) pond 100 50 70 shared.store :=
    ⟨by decide +kernel, keeps (22, 12, authority, 100) (by simp [shares]),
      keeps (23, 13, authority, 50) (by simp [shares]),
      ⟨mint.2.1, mint.2.2, _, mint.1 ▸ Mint.unpack_eq_ok_iff.2 ⟨rfl, rfl⟩, rfl⟩⟩
  have ready : ∀ h ∈ partners, h.Ready pond shared.store := by
    simp only [partners, List.forall_mem_cons]
    refine ⟨?_, ?_, nofun⟩
    · exact ⟨by decide +kernel, keeps (26, 14, .ofNat 2, 30) (by simp [shares]),
        ⟨_, _, keeps (24, 12, .ofNat 2, 7) (by simp [shares])⟩,
        ⟨_, _, keeps (25, 13, .ofNat 2, 3) (by simp [shares])⟩, by decide, by decide, by decide⟩
    · exact ⟨by decide +kernel, keeps (27, 14, .ofNat 3, 40) (by simp [shares]),
        ⟨_, _, keeps (28, 12, .ofNat 3, 0) (by simp [shares])⟩,
        ⟨_, _, keeps (29, 13, .ofNat 3, 0) (by simp [shares])⟩, by decide, by decide, by decide⟩
  have room : ∀ front h rest, partners = front ++ h :: rest →
      h.Room pond (afterRedeeming (.ofNat 21) pond front shared).store := by
    rintro (_ | ⟨first, _ | ⟨second, front⟩⟩) h rest heq
    · cases heq
      decide +kernel
    · cases heq
      decide +kernel
    · simp [partners] at heq
  have h := redeemable_in_full shared (.ofNat 21) pond 100 50 70 partners rfl (by decide +kernel)
    ⟨by decide, by decide, by decide⟩ pool (by decide) ready (by decide) (by decide) room
  exact ⟨h.1, h.2.2⟩

end AccountLedger.Swap
