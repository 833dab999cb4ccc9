import AccountLedger.Proofs.Committed
import AccountLedger.Proofs.Token.Fates
import AccountLedger.Swap.Program
/-!
# What the token program leaves of the vaults

All pools have one vault authority, so what keeps their vaults apart is which holdings a call of the
token program may take from.  `Spares` says of two stores which holdings of the authority may have
lost tokens, which may be gone, and where a pool may have come into being.

* `Spared.of_fate`: what a step of the token program spares of an account;
* `spares_transferred`, `spares_closed`, `spares_burnt`: what each call spares;
* `Spares.trans`: what a sequence of calls spares.
-/

namespace AccountLedger.Swap

open Token (Fate Holding Mint not_holding_of_mint tokens)

/-- the authority that owns all vaults -/
def authority : Key := .ofNat 0x96d2c0c87c74aeb04e326260daabe7c13536f798b2580fabcd2f511b35d6f204

/-- the authority that mints the liquidity of all pools -/
def liquidityAuthority : Key :=
  .ofNat 0xe8ba70c7fa6fe1d10ac4d62b4c18e268fa7e62cd85e9a2910856ed18e4f6ccea

theorem find_authority : (Address.find key [vaultSeed]).toOption = some (authority, 255) := by
  decide +kernel

theorem find_liquidityAuthority :
    (Address.find key [liquiditySeed]).toOption = some (liquidityAuthority, 255) := by
  decide +kernel

/-! ## pools and vaults in a store -/

def Pool.vaults (p : Pool) : List Key := [p.vaultA, p.vaultB]

/-- the pool that an account of the program holds -/
def poolIn (a : Account) : Option Pool :=
  if a.owner = key then (Record.decode a.data).toOption else none

def pool? (s : Store) (k : Key) : Option Pool := poolIn (s.read k)

/-- the account is a holding of the vault authority -/
def Kept (a : Account) : Prop :=
  ∃ held, Holding.unpack a.data = .ok held ∧ held.owner = authority

theorem poolIn_eq_some_iff {a : Account} {p : Pool} :
    poolIn a = some p ↔ a.owner = key ∧ Record.decode a.data = .ok p := by
  unfold poolIn
  by_cases h : a.owner = key
  · rw [if_pos h]
    cases Record.decode (α := Pool) a.data <;> simp [Except.toOption, h]
  · simp [h]

/-- The record of a pool is longer than a holding or a mint. -/
theorem length_of_pool {a : Account} {p : Pool} (h : poolIn a = some p) : 192 < a.data.length := by
  obtain ⟨_, h⟩ := poolIn_eq_some_iff.1 h
  unfold Record.decode Tag.decode at h
  split at h
  · cases h
  · rename_i hcheck
    split at h
    · rename_i p' rest hread
      have hwrite := congrArg List.length (Record.codec.write_of_read _ _ _ hread)
      have hlength : (Record.codec.write p').length = 192 := by
        simp [Record.codec, Codec.iso, Codec.pair, Codec.key, Codec.fixed, Key.length_bytes]
      rw [List.length_append, hlength, List.length_drop] at hwrite
      omega
    · cases h

/-! ## one account -/

/-- What happened to an account: a holding of the authority is still one, unless the account may be
shut, and lost nothing, unless it may be spent from; and no pool came into being, unless one may be
made. -/
structure Spared (spent shut made : Prop) (a a' : Account) : Prop where
  held : ¬ shut → ∀ held, Holding.unpack a.data = .ok held → held.owner = authority →
    ∃ held', Holding.unpack a'.data = .ok held' ∧ held'.owner = authority ∧
      (¬ spent → held.amount.toNat ≤ held'.amount.toNat)
  pool : ¬ made → ∀ p, poolIn a' = some p → poolIn a = some p

namespace Spared

variable {spent shut made : Prop} {a a' a'' : Account}

theorem of_same (data : a'.data = a.data) (owner : a'.owner = a.owner) :
    Spared spent shut made a a' where
  held _ held hheld howner := ⟨held, data ▸ hheld, howner, fun _ => Nat.le_refl _⟩
  pool _ p hp := by
    rw [poolIn_eq_some_iff, data, owner] at hp
    exact poolIn_eq_some_iff.2 hp

theorem trans (h : Spared spent shut made a a') (h' : Spared spent shut made a' a'') :
    Spared spent shut made a a'' where
  held hshut held hheld howner := by
    obtain ⟨held', hheld', howner', hle⟩ := h.held hshut held hheld howner
    obtain ⟨held'', hheld'', howner'', hle'⟩ := h'.held hshut held' hheld' howner'
    exact ⟨held'', hheld'', howner'', fun hspent => Nat.le_trans (hle hspent) (hle' hspent)⟩
  pool hmade p hp := h.pool hmade p (h'.pool hmade p hp)

theorem mono {spent' shut' made' : Prop} (h : Spared spent shut made a a')
    (hspent : spent → spent') (hshut : shut → shut') (hmade : made → made') :
    Spared spent' shut' made' a a' where
  held hk held hheld howner := by
    obtain ⟨held', hheld', howner', hle⟩ := h.held (mt hshut hk) held hheld howner
    exact ⟨held', hheld', howner', fun hk' => hle (mt hspent hk')⟩
  pool hk := h.pool (mt hmade hk)

theorem no_pool {q : Prop} {p : Pool} (short : a'.data.length ≤ Holding.size)
    (h : poolIn a' = some p) : q :=
  absurd (Nat.lt_of_lt_of_le (length_of_pool h) short) (by decide)

theorem of_other (other : ∀ held, Holding.unpack a.data ≠ .ok held)
    (unclaimed : ¬ made → ∀ p, poolIn a' ≠ some p) : Spared spent shut made a a' where
  held _ held hheld := absurd hheld (other held)
  pool hmade p hp := absurd hp (unclaimed hmade p)

/-- What a step of the token program makes of an account is no pool. -/
theorem of_fate {takes closes : Key → Prop} (fate : Fate takes closes a a')
    (spends : takes authority → spent) (shuts : ∀ o, closes o → shut) :
    Spared spent shut made a a' := by
  cases fate with
  | kept data owner => exact .of_same data owner
  | @repacked held amount here data _ lost =>
    refine ⟨fun _ other hother howner => ?_, fun _ p => no_pool ?_⟩
    · cases here.symm.trans hother
      refine ⟨{ held with amount }, ?_, howner, fun unspent => ?_⟩
      · rw [data]
        exact Token.unpack_pack { held with amount } (Holding.unpack_eq_ok_iff.1 here).2
      · exact Nat.le_of_not_lt fun hlt => unspent (spends (howner ▸ lost hlt))
    · exact Nat.le_of_eq ((congrArg List.length data).trans (Holding.length_pack _))
  | remade here data =>
    refine of_other (not_holding_of_mint here) fun _ p => no_pool ?_
    rw [data, Mint.length_pack]
    decide
  | shut _ _ closer data =>
    refine ⟨fun kept => absurd (shuts _ closer) kept, fun _ p => no_pool ?_⟩
    rw [data]
    exact Nat.zero_le _
  | opened vacant data =>
    refine of_other (Token.not_holding_of_vacant vacant) fun _ p => no_pool ?_
    exact Nat.le_of_eq ((congrArg List.length data).trans (Holding.length_pack _))

end Spared

/-! ## all accounts -/

/-- what happened to all accounts: where tokens may have been spent, where a holding may have been
shut, and where a pool may have been made -/
def Spares (spent shut made : List Key) (s s' : Store) : Prop :=
  ∀ k, Spared (k ∈ spent) (k ∈ shut) (k ∈ made) (s.read k) (s'.read k)

variable {spent shut made : List Key} {s s' s'' : Store} {a b c : Key} {amount : Amount}

namespace Spares

theorem trans (h : Spares spent shut made s s') (h' : Spares spent shut made s' s'') :
    Spares spent shut made s s'' := fun k => (h k).trans (h' k)

theorem mono {spent' shut' made' : List Key} (h : Spares spent shut made s s')
    (hspent : spent ⊆ spent') (hshut : shut ⊆ shut') (hmade : made ⊆ made') :
    Spares spent' shut' made' s s' := fun k => (h k).mono (@hspent k) (@hshut k) (@hmade k)

theorem congr (same : ∀ k, s''.read k = s'.read k) (h : Spares spent shut made s s') :
    Spares spent shut made s s'' := fun k => (same k).symm ▸ h k

theorem kept (h : Spares spent shut made s s') {k : Key} (hk : k ∉ shut) (kept : Kept (s.read k)) :
    Kept (s'.read k) := by
  obtain ⟨held, hheld, howner⟩ := kept
  obtain ⟨held', hheld', howner', _⟩ := (h k).held hk held hheld howner
  exact ⟨held', hheld', howner'⟩

theorem tokens_le (h : Spares spent shut made s s') {k : Key} (hk : k ∉ shut) (unspent : k ∉ spent)
    (kept : Kept (s.read k)) : tokens s k ≤ tokens s' k := by
  obtain ⟨held, hheld, howner⟩ := kept
  obtain ⟨held', hheld', _, hle⟩ := (h k).held hk held hheld howner
  rw [Token.tokens_of_unpack hheld, Token.tokens_of_unpack hheld']
  exact hle unspent

theorem pool (h : Spares spent shut made s s') {k : Key} (hk : k ∉ made) {p : Pool}
    (hp : pool? s' k = some p) : pool? s k = some p :=
  (h k).pool hk p hp

end Spares

/-! ## calls -/

theorem spares_of_fates {takes closes : Key → Key → Prop}
    (fates : ∀ k, Fate (takes k) (closes k) (s.read k) (s'.read k))
    (spends : ∀ k, takes k authority → k ∈ spent) (shuts : ∀ k o, closes k o → k ∈ shut) :
    Spares spent shut made s s' := fun k =>
  .of_fate (fates k) (spends k) (shuts k)

/-- What takes from nobody and closes nothing spares all vaults. -/
theorem spares_of_quiet
    (fates : ∀ k, Fate (fun _ => False) (fun _ => False) (s.read k) (s'.read k)) :
    Spares spent shut made s s' :=
  spares_of_fates fates nofun nofun

/-- A transfer takes from its source, and only with the signature of the owner. -/
theorem spares_transferred (h : Token.Transfers s a b c amount s')
    (allowed : a ∈ spent ∨ c ≠ authority) : Spares spent shut made s s' :=
  spares_of_fates h.fate (fun _ ht => ht.1 ▸ allowed.resolve_right fun hne => hne ht.2.symm) nofun

theorem spares_closed (h : Token.Closes s a b c s') (allowed : a ∈ shut) :
    Spares spent shut made s s' :=
  spares_of_fates h.fate nofun fun _ _ hc => hc.1 ▸ allowed

/-- Tokens that are burnt are lost with the signature of their owner. -/
theorem spares_burnt (h : Token.Burns s a b c amount s') (unsigned : c ≠ authority) :
    Spares spent shut made s s' :=
  spares_of_fates h.fate (fun _ ht => absurd ht.2.symm unsigned) nofun

theorem spares_recorded {rent : Amount} {space : Nat} {data : Bytes} {owner : Key}
    (vacant : (s.read b).isVacant = true) (allowed : b ∈ made) :
    Spares spent shut made s ((s.made a b rent space owner).putData b data) := by
  intro k
  rw [Store.read_filled]
  by_cases hb : b = k
  · rw [if_pos hb]
    exact .of_other (Token.not_holding_of_vacant (hb ▸ vacant)) fun hmade =>
      absurd (hb ▸ allowed) hmade
  · rw [if_neg hb]
    have paid : Fate (fun _ => False) (fun _ => False) (s.read k) _ :=
      .paid s a ((s.read a).lamports - rent) k
    exact .of_fate paid nofun nofun

end AccountLedger.Swap
