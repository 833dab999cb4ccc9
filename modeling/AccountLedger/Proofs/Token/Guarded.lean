import AccountLedger.Proofs.Performed
/-!
# What no native program does without the owner

A holding is guarded by its owner: no native program of the ledger takes tokens out of it, gives it
to another owner or shuts it unless the owner signed.  This is said of any instruction and of any
slots, since a program may call another with whatever it likes.

* `Guarded.unpacked`: what a guarded account may turn into and still be guarded;
* `native_guards`, `Associated.native_guards`, `SystemProgram.native_guards`: the three programs.
-/

namespace AccountLedger

namespace Token

/-- the account is an open holding of the owner with at least so many tokens -/
structure Guarded (owner : Key) (least : Nat) (a : Account) : Prop where
  claimed : a.owner = program
  held : ∃ h, Holding.unpack a.data = .ok h ∧ h.owner = owner ∧ least ≤ h.amount.toNat

namespace Guarded

variable {owner : Key} {least : Nat} {a b : Account} {h : Holding}

theorem of_same (guarded : Guarded owner least a) (data : b.data = a.data)
    (claimed : b.owner = a.owner) : Guarded owner least b where
  claimed := claimed.trans guarded.claimed
  held := by
    rw [data]
    exact guarded.held

theorem unpacked (guarded : Guarded owner least a) (here : Holding.unpack a.data = .ok h) :
    h.owner = owner ∧ least ≤ h.amount.toNat := by
  obtain ⟨g, hg, howner, hleast⟩ := guarded.held
  rw [here] at hg
  cases hg
  exact ⟨howner, hleast⟩

/-- the same account with another holding in it -/
theorem repacked {h' : Holding} (guarded : Guarded owner least a)
    (here : Holding.unpack a.data = .ok h) (state : h'.state = h.state)
    (kept : h'.owner = h.owner) (grown : h.amount.toNat ≤ h'.amount.toNat)
    (claimed : b.owner = a.owner) (data : b.data = h'.pack) : Guarded owner least b where
  claimed := claimed.trans guarded.claimed
  held := by
    obtain ⟨howner, hleast⟩ := guarded.unpacked here
    have hopen : h'.state ≠ .uninitialized := state ▸ (Holding.unpack_eq_ok_iff.1 here).2
    exact ⟨h', data ▸ unpack_pack h' hopen, kept.trans howner, Nat.le_trans hleast grown⟩

theorem not_of_mint {m : Mint} (here : Mint.unpack a.data = .ok m) : ¬ Guarded owner least a := by
  intro guarded
  obtain ⟨g, hg, _⟩ := guarded.held
  exact not_holding_of_mint here g hg

theorem not_of_vacant (vacant : a.isVacant = true) : ¬ Guarded owner least a := by
  intro guarded
  obtain ⟨g, hg, _⟩ := guarded.held
  exact not_holding_of_vacant vacant g hg

theorem not_of_system (claimed : a.owner = .system) : ¬ Guarded owner least a := by
  intro guarded
  have hsame : Key.system = program := claimed.symm.trans guarded.claimed
  exact absurd hsame (by decide)

end Guarded

end Token

/-! ## slots -/

namespace Slots

open Token (Guarded Holding Mint)

variable {n : Nat} {owner : Key} {least : Nat} {before now after : Slots n} {p q : Fin n}
  {a : Account}

/-- Every slot stays under its key, and guarded if it was. -/
def Keeps (owner : Key) (least : Nat) (before after : Slots n) : Prop :=
  ∀ p, (after.get p).key = (before.get p).key ∧
    (Guarded owner least (before.get p) → Guarded owner least (after.get p))

namespace Keeps

theorem refl (before : Slots n) : before.Keeps owner least before :=
  fun _ => ⟨rfl, id⟩

theorem trans (h : before.Keeps owner least now) (h' : now.Keeps owner least after) :
    before.Keeps owner least after :=
  fun p => ⟨(h' p).1.trans (h p).1, fun guarded => (h' p).2 ((h p).2 guarded)⟩

theorem put (key : a.key = (before.get p).key)
    (guards : Guarded owner least (before.get p) → Guarded owner least a) :
    before.Keeps owner least (before.put p a) := by
  intro q
  rw [get_put]
  split
  · rename_i hpq
    rw [← hpq]
    exact ⟨key, guards⟩
  · exact ⟨rfl, id⟩

/-- a slot that was not guarded, with any account of its key -/
theorem put_free (key : a.key = (before.get p).key)
    (free : ¬ Guarded owner least (before.get p)) : before.Keeps owner least (before.put p a) :=
  put key fun guarded => absurd guarded free

theorem moved (before : Slots n) (p q : Fin n) (amount : Amount) :
    before.Keeps owner least (before.moved p q amount) := by
  intro r
  rw [get_moved]
  exact ⟨rfl, fun guarded => guarded.of_same rfl rfl⟩

/-- Lamports go from one slot to another, and then a slot that is not guarded is changed. -/
theorem moved_put (before : Slots n) (p q r : Fin n) (amount : Amount)
    (key : a.key = ((before.moved p q amount).get r).key)
    (free : ¬ Guarded owner least (before.get r)) :
    before.Keeps owner least ((before.moved p q amount).put r a) := by
  refine (moved before p q amount).trans (put_free key ?_)
  rw [get_moved]
  exact fun guarded => free (guarded.of_same rfl rfl)

theorem putData {h h' : Holding} (here : Holding.unpack (before.get p).data = .ok h)
    (state : h'.state = h.state) (kept : h'.owner = h.owner)
    (grown : h.amount.toNat ≤ h'.amount.toNat) :
    before.Keeps owner least (Token.putData before p h'.pack) :=
  put rfl fun guarded => guarded.repacked here state kept grown rfl rfl

theorem putData_free {data : Bytes} (free : ¬ Guarded owner least (before.get p)) :
    before.Keeps owner least (Token.putData before p data) :=
  put_free rfl free

end Keeps

end Slots

/-- A native program keeps what is guarded by an owner that did not sign. -/
def Native.Guards (program : Native) : Prop :=
  ∀ (calls : List Request) (i : Instruction) {n : Nat} (accounts after : Slots n)
    (signers : List Key) (owner : Key) (least : Nat), 0 < least → owner ∉ signers →
      program calls i accounts signers = .done after → accounts.Keeps owner least after

/-! ## the token program -/

namespace Token

variable {n : Nat} {i : Instruction} {accounts after : Slots n} {signers : List Key}
  {owner : Key} {least : Nat} {amount : Amount}

/-- An amount that was added to a balance without overflow leaves it no smaller. -/
theorem le_of_credited {balance sum : Amount} (h : credited balance amount = .ok sum) :
    balance.toNat ≤ sum.toNat := by
  obtain ⟨hfits, rfl⟩ := credited_eq_ok_iff.1 h
  have hsum : (balance + amount).toNat = balance.toNat + amount.toNat :=
    (UInt64.toNat_add _ _).trans (Nat.mod_eq_of_lt hfits)
  omega

/-- Whoever holds tokens that are taken has signed, so the holding is not guarded. -/
theorem Guarded.not_of_authority {a : Account} {h : Holding} {authority : Key}
    (unsigned : owner ∉ signers) (here : Holding.unpack a.data = .ok h)
    (granted : requireAuthority (some h.owner) authority signers = .ok ()) :
    ¬ Guarded owner least a := by
  intro guarded
  obtain ⟨hsigned, howner⟩ := requireAuthority_eq_ok_iff.1 granted
  rw [← Option.some.inj howner, (guarded.unpacked here).1] at hsigned
  exact unsigned hsigned

theorem performOpen_keeps {wallet : Key} (h : performOpen i accounts wallet = .done after) :
    accounts.Keeps owner least after := by
  obtain ⟨⟨p, mintKey⟩, hchecks, hdone⟩ := Reply.afterChecks_eq_done_iff.1 h
  simp only [bind_eq_ok_iff, throw_or_eq_ok_iff, pure_eq_ok_iff, Prod.mk.injEq] at hchecks
  obtain ⟨p', _, _, _, mint, _, m, _, _, hunopened, rfl, rfl⟩ := hchecks
  have free : ¬ Guarded owner least (accounts.get p') := by
    intro guarded
    obtain ⟨g, hg, _⟩ := guarded.held
    rw [hg] at hunopened
    exact hunopened rfl
  dsimp only at hdone
  split at hdone
  · cases hdone
  · obtain rfl := Reply.done_inj.1 hdone
    exact .putData_free free

theorem performTransfer_keeps (unsigned : owner ∉ signers)
    (h : performTransfer i accounts signers amount = .ok after) :
    accounts.Keeps owner least after := by
  simp only [performTransfer, bind_eq_ok_iff, exists_unit, throw_or_eq_ok_iff] at h
  obtain ⟨source, _, destination, _, authority, _, giver, hgiver, taker, htaker, hauthority, _, h⟩ := h
  split at h
  · cases pure_eq_ok_iff.1 h
    exact .refl accounts
  · rename_i hne
    simp only [bind_eq_ok_iff, pure_eq_ok_iff] at h
    obtain ⟨rest, _, sum, hsum, rfl⟩ := h
    have free : ¬ Guarded owner least
        ((putData accounts destination { taker with amount := sum }.pack).get source) := by
      rw [putData, Slots.get_put, if_neg (Ne.symm hne)]
      exact Guarded.not_of_authority unsigned hgiver hauthority
    have hpaid : accounts.Keeps owner least
        (putData accounts destination { taker with amount := sum }.pack) :=
      .putData htaker rfl rfl (le_of_credited hsum)
    exact hpaid.trans (.putData_free free)

theorem performMint_keeps (h : performMint i accounts signers amount = .ok after) :
    accounts.Keeps owner least after := by
  simp only [performMint, bind_eq_ok_iff, exists_unit, throw_or_eq_ok_iff, pure_eq_ok_iff] at h
  obtain ⟨mintKey, _, mint, _, destination, _, authority, _, m, hm, taker, htaker, _, _, supply, _,
    sum, hsum, rfl⟩ := h
  have hne : mint ≠ destination := by
    rintro rfl
    exact not_holding_of_mint hm taker htaker
  have htaker' : Holding.unpack
      ((putData accounts mint { m with supply }.pack).get destination).data = .ok taker := by
    rw [putData, Slots.get_put, if_neg hne]
    exact htaker
  exact (Slots.Keeps.putData_free (Guarded.not_of_mint hm)).trans
    (.putData htaker' rfl rfl (le_of_credited hsum))

theorem performBurn_keeps (unsigned : owner ∉ signers)
    (h : performBurn i accounts signers amount = .ok after) :
    accounts.Keeps owner least after := by
  simp only [performBurn, bind_eq_ok_iff, exists_unit, throw_or_eq_ok_iff, pure_eq_ok_iff] at h
  obtain ⟨source, _, mintKey, _, mint, _, authority, _, giver, hgiver, m, hm, hauthority, _, rest, _,
    supply, _, rfl⟩ := h
  have hne : source ≠ mint := by
    rintro rfl
    exact not_holding_of_mint hm giver hgiver
  have free : ¬ Guarded owner least
      ((putData accounts source { giver with amount := rest }.pack).get mint) := by
    rw [putData, Slots.get_put, if_neg hne]
    exact Guarded.not_of_mint hm
  exact (Slots.Keeps.putData_free (Guarded.not_of_authority unsigned hgiver hauthority)).trans
    (.putData_free free)

theorem performSetAuthority_keeps {kind : AuthorityKind} {successor : Option Key}
    (unsigned : owner ∉ signers)
    (h : performSetAuthority i accounts signers kind successor = .ok after) :
    accounts.Keeps owner least after := by
  simp only [performSetAuthority, bind_eq_ok_iff] at h
  obtain ⟨target, _, authority, _, h⟩ := h
  split at h
  · simp only [bind_eq_ok_iff, pure_eq_ok_iff] at h
    obtain ⟨m, hm, m', _, rfl⟩ := h
    exact .putData_free (Guarded.not_of_mint hm)
  · simp only [bind_eq_ok_iff, pure_eq_ok_iff] at h
    obtain ⟨held, hheld, held', hheld', rfl⟩ := h
    cases kind with
    | mintTokens => cases hheld'
    | freezeAccount => cases hheld'
    | accountOwner =>
      simp only [Holding.handOn, bind_eq_ok_iff, exists_unit] at hheld'
      exact .putData_free (Guarded.not_of_authority unsigned hheld hheld'.1)
    | closeAccount =>
      simp only [Holding.handOn, bind_eq_ok_iff, exists_unit, pure_eq_ok_iff] at hheld'
      obtain ⟨_, rfl⟩ := hheld'
      exact .putData hheld rfl rfl (Nat.le_refl _)

/-- Only a holding without tokens is closed. -/
theorem PassesClose.free {p q : Fin n} (passes : PassesClose i accounts signers p q)
    (some_left : 0 < least) : ¬ Guarded owner least (accounts.get p) := by
  intro guarded
  obtain ⟨held, here, _, _, empty⟩ := passes.closable
  have hleast := (guarded.unpacked here).2
  rw [empty, UInt64.toNat_zero] at hleast
  omega

theorem performClose_keeps (some_left : 0 < least)
    (h : performClose i accounts signers = .done after) : accounts.Keeps owner least after := by
  rcases performClose_cases i accounts signers with ⟨e, he⟩ | ⟨p, q, passes⟩
  · cases he.symm.trans h
  · rw [performClose_of_passes passes] at h
    split at h
    · obtain rfl := Reply.done_inj.1 h
      exact .moved_put accounts p q p _ rfl (passes.free some_left)
    · cases h

theorem native_guards : Native.Guards native := by
  intro calls i n accounts after signers owner least some_left unsigned h
  unfold native at h
  split at h
  · rename_i command _
    cases command with
    | openHolding wallet => exact performOpen_keeps h
    | transfer amount => exact performTransfer_keeps unsigned (Reply.ofChanged_eq_done_iff.1 h)
    | setAuthority kind successor =>
      exact performSetAuthority_keeps unsigned (Reply.ofChanged_eq_done_iff.1 h)
    | mintTo amount => exact performMint_keeps (Reply.ofChanged_eq_done_iff.1 h)
    | burn amount => exact performBurn_keeps unsigned (Reply.ofChanged_eq_done_iff.1 h)
    | close => exact performClose_keeps some_left h
    | other name => cases h
  · cases h

theorem Associated.native_guards : Native.Guards Associated.native := by
  intro calls i n accounts after signers owner least _ _ h
  cases performed_of_done h with
  | accepted => exact .refl accounts
  | @opened p q _ _ _ vacant _ => exact .moved_put accounts p q q _ rfl (Guarded.not_of_vacant vacant)

end Token

/-! ## the System Program -/

theorem SystemProgram.native_guards : Native.Guards native := by
  intro calls i n accounts after signers owner least _ _ h
  cases performed_of_done h with
  | @created p q _ _ _ _ passes _ =>
    exact .moved_put accounts p q q _ rfl (Token.Guarded.not_of_vacant passes.vacant)
  | @transferred p q amount _ _ _ => exact .moved accounts p q amount
  | assigned _ _ unclaimed => exact .put_free rfl (Token.Guarded.not_of_system unclaimed)
  | allocated _ _ unclaimed _ => exact .put_free rfl (Token.Guarded.not_of_system unclaimed)

end AccountLedger
