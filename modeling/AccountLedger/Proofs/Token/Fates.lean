import AccountLedger.Proofs.Instructions
/-!
# What becomes of one account

A step of the token program is a change of a few accounts.  What the step was does not matter to an
account that asks what can have become of it: it was paid at most, its amount is another one, or it
was closed or made.

* `Fate`: what can have become of an account, by those who may take tokens and close holdings;
* `Deed`: the same, with those who may hand a mint on, and with where a holding may be opened;
* `Transfers.deed`, `Closes.deed` and the like: what a step does to every account;
* `Transfers.fate`, `Closes.fate` and the like: what has become of it;
* `Stands`: a holding is there, with any amount; `Fate.stands`, `Fate.le`: it stays, and loses nothing
  without its owner;
* `Transfers.tokens_eq` and the like: the amounts after a step.
-/

namespace AccountLedger.Token

variable {s s' : Store} {a a' : Account} {held : Holding} {amount : Amount}
  {source destination authority payer mint holding owner wallet target : Key}

/-- What can have become of an account, where the owners of whom `takes` holds may have lost tokens,
and those of whom `closes` holds may have closed holdings. -/
inductive Fate (takes closes : Key → Prop) (a a' : Account) : Prop
  | kept (data : a'.data = a.data) (owner : a'.owner = a.owner)
  | repacked {held : Holding} {amount : Amount} (here : Holding.unpack a.data = .ok held)
    (data : a'.data = { held with amount }.pack) (owner : a'.owner = a.owner)
    (spent : amount.toNat < held.amount.toNat → takes held.owner)
  | remade {m m' : Mint} (here : Mint.unpack a.data = .ok m) (data : a'.data = m'.pack)
    (initialized : m'.initialized = m.initialized) (owner : a'.owner = a.owner)
  | shut {held : Holding} (here : Holding.unpack a.data = .ok held) (empty : held.amount = 0)
    (closer : closes held.closer) (data : a'.data = []) (owner : a'.owner = .system)
  | opened {held : Holding} (vacant : a.isVacant = true) (data : a'.data = held.pack)
    (owner : a'.owner = program)

namespace Fate

variable {takes closes : Key → Prop}

theorem mono {takes' closes' : Key → Prop} (fate : Fate takes closes a a')
    (htakes : ∀ o, takes o → takes' o) (hcloses : ∀ o, closes o → closes' o) :
    Fate takes' closes' a a' := by
  cases fate with
  | kept data owner => exact .kept data owner
  | repacked here data owner spent => exact .repacked here data owner fun h => htakes _ (spent h)
  | remade here data initialized owner => exact .remade here data initialized owner
  | shut here empty closer data owner => exact .shut here empty (hcloses _ closer) data owner
  | opened vacant data owner => exact .opened vacant data owner

end Fate

/-- What a step has done to an account.  A mint that is put back has the authority that it had, unless
that one is of those of whom `hands` holds; and a holding is opened only where `opens` says so. -/
inductive Deed (takes closes hands : Key → Prop) (opens : Prop) (a a' : Account) : Prop
  | kept (data : a'.data = a.data) (owner : a'.owner = a.owner)
  | repacked {held : Holding} {amount : Amount} (here : Holding.unpack a.data = .ok held)
    (data : a'.data = { held with amount }.pack) (owner : a'.owner = a.owner)
    (spent : amount.toNat < held.amount.toNat → takes held.owner)
  | remade {m m' : Mint} (here : Mint.unpack a.data = .ok m) (data : a'.data = m'.pack)
    (initialized : m'.initialized = m.initialized) (owner : a'.owner = a.owner)
    (handed : m'.authority = m.authority ∨ ∃ o, m.authority.get? = some o ∧ hands o)
  | shut {held : Holding} (here : Holding.unpack a.data = .ok held) (empty : held.amount = 0)
    (closer : closes held.closer) (data : a'.data = []) (owner : a'.owner = .system)
  | opened {held : Holding} (allowed : opens) (vacant : a.isVacant = true) (data : a'.data = held.pack)
    (owner : a'.owner = program)

namespace Deed

variable {takes closes hands : Key → Prop} {opens : Prop}

theorem fate (deed : Deed takes closes hands opens a a') : Fate takes closes a a' := by
  cases deed with
  | kept data owner => exact .kept data owner
  | repacked here data owner spent => exact .repacked here data owner spent
  | remade here data initialized owner => exact .remade here data initialized owner
  | shut here empty closer data owner => exact .shut here empty closer data owner
  | opened _ vacant data owner => exact .opened vacant data owner

/-- The account of one key changes in its balance. -/
theorem paid (s : Store) (key : Key) (lamports : Amount) (k : Key) :
    Deed takes closes hands opens (s.read k)
      (if key = k then { s.read key with lamports } else s.read k) := by
  split
  · rename_i h
    rw [h]
    exact .kept rfl rfl
  · exact .kept rfl rfl

end Deed

/-- The account of one key changes in its balance. -/
theorem Fate.paid {takes closes : Key → Prop} (s : Store) (key : Key) (lamports : Amount) (k : Key) :
    Fate takes closes (s.read k) (if key = k then { s.read key with lamports } else s.read k) := by
  have deed : Deed takes closes (fun _ => False) False (s.read k) _ := .paid s key lamports k
  exact deed.fate

/-! ## the steps -/

theorem le_toNat_add {amount more : Amount} (fits : amount.toNat + more.toNat < UInt64.size) :
    amount.toNat ≤ (amount + more).toNat := by
  rw [UInt64.toNat_add, Nat.mod_eq_of_lt fits]
  exact Nat.le_add_right _ _

/-- A transfer takes from its source, in the name of the owner. -/
theorem Transfers.deed (h : Transfers s source destination authority amount s') (k : Key) :
    Deed (fun o => k = source ∧ o = authority) (fun _ => False) (fun _ => False) False (s.read k)
      (s'.read k) := by
  obtain ⟨giver, taker, may, rfl⟩ := h
  rw [read_transferred]
  by_cases hsd : source = destination
  · rw [if_pos hsd]
    exact .kept rfl rfl
  rw [if_neg hsd]
  by_cases hs : source = k
  · subst hs
    rw [if_pos rfl]
    exact .repacked may.giver_at rfl rfl fun _ => ⟨rfl, may.owner⟩
  rw [if_neg hs]
  by_cases hd : destination = k
  · subst hd
    rw [if_pos rfl]
    exact .repacked may.taker_at rfl rfl fun h =>
      absurd (le_toNat_add (may.fits hsd)) (Nat.not_le_of_lt h)
  · rw [if_neg hd]
    exact .kept rfl rfl

/-- A holding is closed in the name of who may close it. -/
theorem Closes.deed (h : Closes s holding destination authority s') (k : Key) :
    Deed (fun _ => False) (fun o => k = holding ∧ o = authority) (fun _ => False) False (s.read k)
      (s'.read k) := by
  obtain ⟨held, may, rfl⟩ := h
  by_cases hk : holding = k
  · subst hk
    obtain ⟨hdata, howner⟩ := closed_closedAt s holding destination
    exact .shut may.held_at may.empty ⟨rfl, may.closer⟩ hdata howner
  · rw [read_closedAt hk]
    split
    · exact .kept rfl rfl
    · exact .kept rfl rfl

/-- Tokens that are made go to a holding, and the mint is none. -/
theorem Mints.deed (h : Mints s mint destination authority amount s') (k : Key) :
    Deed (fun _ => False) (fun _ => False) (fun _ => False) False (s.read k) (s'.read k) := by
  obtain ⟨m, taker, may, rfl⟩ := h
  have hne : mint ≠ destination := by
    rintro rfl
    exact not_holding_of_mint may.mint_at taker may.taker_at
  rw [Store.read_putData, Store.read_putData, if_neg hne, Store.read_putData]
  by_cases hd : destination = k
  · subst hd
    rw [if_pos rfl]
    exact .repacked may.taker_at rfl rfl fun h => absurd (le_toNat_add may.fits) (Nat.not_le_of_lt h)
  rw [if_neg hd]
  by_cases hm : mint = k
  · subst hm
    rw [if_pos rfl]
    exact .remade may.mint_at rfl rfl rfl (.inl rfl)
  · rw [if_neg hm]
    exact .kept rfl rfl

/-- Tokens are burnt in the name of their owner. -/
theorem Burns.deed (h : Burns s source mint authority amount s') (k : Key) :
    Deed (fun o => k = source ∧ o = authority) (fun _ => False) (fun _ => False) False (s.read k)
      (s'.read k) := by
  obtain ⟨giver, m, may, rfl⟩ := h
  have hne : source ≠ mint := by
    rintro rfl
    exact not_holding_of_mint may.mint_at giver may.giver_at
  rw [Store.read_putData, Store.read_putData, if_neg hne, Store.read_putData]
  by_cases hm : mint = k
  · subst hm
    rw [if_pos rfl]
    exact .remade may.mint_at rfl rfl rfl (.inl rfl)
  rw [if_neg hm]
  by_cases hs : source = k
  · subst hs
    rw [if_pos rfl]
    exact .repacked may.giver_at rfl rfl fun _ => ⟨rfl, may.owner⟩
  · rw [if_neg hs]
    exact .kept rfl rfl

/-- Nobody mints from a holding, so what is handed on with the right to mint is a mint. -/
theorem HandsOver.of_mint {successor : Option Key}
    (h : HandsOver s target authority .mintTokens successor s') :
    ∃ m, Mint.unpack (s.read target).data = .ok m ∧ m.authority.get? = some authority ∧
      s' = s.putData target { m with authority := m.authority.set successor }.pack := by
  obtain ⟨data, handed, rfl⟩ := h
  unfold HandedOn at handed
  split at handed
  · obtain ⟨m, m', hm, hon, rfl⟩ := handed
    simp only [Mint.handOn, bind_eq_ok_iff, exists_unit, pure_eq_ok_iff] at hon
    obtain ⟨holds, rfl⟩ := hon
    exact ⟨m, hm, (requireAuthority_eq_ok_iff.1 holds).2, rfl⟩
  · obtain ⟨held, held', _, hon, _⟩ := handed
    cases hon

theorem HandsOver.deed {successor : Option Key}
    (h : HandsOver s target authority .mintTokens successor s') (k : Key) :
    Deed (fun _ => False) (fun _ => False) (fun o => k = target ∧ o = authority) False (s.read k)
      (s'.read k) := by
  obtain ⟨m, hm, holder, rfl⟩ := h.of_mint
  rw [Store.read_putData]
  by_cases hk : target = k
  · subst hk
    rw [if_pos rfl]
    exact .remade hm rfl rfl rfl (.inr ⟨authority, holder, rfl, rfl⟩)
  · rw [if_neg hk]
    exact .kept rfl rfl

/-- Who was handed the right to mint has it. -/
theorem HandsOver.handed {o : Key} (h : HandsOver s target authority .mintTokens (some o) s') :
    ∃ m, Mint.unpack (s'.read target).data = .ok m ∧ m.authority.get? = some o := by
  obtain ⟨m, hm, _, rfl⟩ := h.of_mint
  refine ⟨{ m with authority := m.authority.set (some o) }, ?_, Clearable.get?_set _ _⟩
  rw [Store.read_putData, if_pos rfl]
  exact Mint.unpack_eq_ok_iff.2 ⟨rfl, (Mint.unpack_eq_ok_iff.1 hm).2⟩

theorem Makes.deed (h : Makes s payer holding mint owner s') (k : Key) :
    Deed (fun _ => False) (fun _ => False) (fun _ => False) (k = holding) (s.read k) (s'.read k) := by
  obtain ⟨vacant, rent, rfl⟩ := h
  rw [read_opened]
  by_cases hk : holding = k
  · subst hk
    rw [if_pos rfl]
    exact .opened rfl vacant rfl rfl
  · rw [if_neg hk]
    exact .paid s payer _ k

theorem Associated.Opened.deed (h : Opened s payer holding wallet mint s') (k : Key) :
    Deed (fun _ => False) (fun _ => False) (fun _ => False) (k = holding) (s.read k) (s'.read k) := by
  rcases h with ⟨rfl, _⟩ | ⟨vacant, rent, _, rfl⟩
  · exact .kept rfl rfl
  rw [Store.read_insert]
  show Deed _ _ _ _ _ (if ((s.putLamports payer _).read holding).key = k then _ else _)
  rw [Store.key_read]
  by_cases hk : holding = k
  · subst hk
    rw [if_pos rfl]
    exact .opened rfl vacant rfl rfl
  · rw [if_neg hk, Store.read_putLamports]
    exact .paid s payer _ k

theorem Transfers.fate (h : Transfers s source destination authority amount s') (k : Key) :
    Fate (fun o => k = source ∧ o = authority) (fun _ => False) (s.read k) (s'.read k) :=
  (h.deed k).fate

theorem Closes.fate (h : Closes s holding destination authority s') (k : Key) :
    Fate (fun _ => False) (fun o => k = holding ∧ o = authority) (s.read k) (s'.read k) :=
  (h.deed k).fate

theorem Mints.fate (h : Mints s mint destination authority amount s') (k : Key) :
    Fate (fun _ => False) (fun _ => False) (s.read k) (s'.read k) :=
  (h.deed k).fate

theorem Burns.fate (h : Burns s source mint authority amount s') (k : Key) :
    Fate (fun o => k = source ∧ o = authority) (fun _ => False) (s.read k) (s'.read k) :=
  (h.deed k).fate

theorem HandsOver.fate {successor : Option Key}
    (h : HandsOver s target authority .mintTokens successor s') (k : Key) :
    Fate (fun _ => False) (fun _ => False) (s.read k) (s'.read k) :=
  (h.deed k).fate

theorem Makes.fate (h : Makes s payer holding mint owner s') (k : Key) :
    Fate (fun _ => False) (fun _ => False) (s.read k) (s'.read k) :=
  (h.deed k).fate

theorem Associated.Opened.fate (h : Opened s payer holding wallet mint s') (k : Key) :
    Fate (fun _ => False) (fun _ => False) (s.read k) (s'.read k) :=
  (h.deed k).fate

/-! ## holdings that stay -/

/-- The account is the holding, with some amount. -/
def Stands (s : Store) (k : Key) (held : Holding) : Prop :=
  ∃ amount, Holding.unpack (s.read k).data = .ok { held with amount }

theorem Stands.of_unpack {k : Key} (h : Holding.unpack (s.read k).data = .ok held) : Stands s k held :=
  ⟨held.amount, h⟩

/-- A holding that stands is known but for its amount, which is what the account holds. -/
theorem Stands.unpack_eq {k : Key} (h : Stands s k held) :
    ∃ amount, Holding.unpack (s.read k).data = .ok { held with amount } ∧
      tokens s k = amount.toNat := by
  obtain ⟨amount, h⟩ := h
  exact ⟨amount, h, tokens_of_unpack h⟩

namespace Fate

variable {takes closes : Key → Prop} {k : Key}

/-- A holding stays, unless it was closed, and loses nothing, unless its owner was taken from. -/
theorem stands (fate : Fate takes closes (s.read k) (s'.read k)) (h : Stands s k held)
    (shut : ¬ closes held.closer) :
    Stands s' k held ∧ (¬ takes held.owner → tokens s k ≤ tokens s' k) := by
  obtain ⟨amount, here⟩ := h
  cases fate with
  | kept data _ =>
    have here' : Holding.unpack (s'.read k).data = .ok { held with amount } := data ▸ here
    exact ⟨⟨amount, here'⟩, fun _ =>
      Nat.le_of_eq ((tokens_of_unpack here).trans (tokens_of_unpack here').symm)⟩
  | @repacked _ amount' there data _ spent =>
    cases here.symm.trans there
    have here' : Holding.unpack (s'.read k).data = .ok { held with amount := amount' } := by
      rw [data]
      exact unpack_pack { held with amount := amount' } (Holding.unpack_eq_ok_iff.1 here).2
    refine ⟨⟨amount', here'⟩, fun unspent => ?_⟩
    rw [tokens_of_unpack here, tokens_of_unpack here']
    exact Nat.le_of_not_lt fun hlt => unspent (spent hlt)
  | remade there => exact absurd here (not_holding_of_mint there _)
  | shut there _ closer =>
    cases here.symm.trans there
    exact absurd closer shut
  | opened vacant => exact absurd here (not_holding_of_vacant vacant _)

theorem owner_of_stands (fate : Fate takes closes (s.read k) (s'.read k)) (h : Stands s k held)
    (shut : ¬ closes held.closer) : (s'.read k).owner = (s.read k).owner := by
  obtain ⟨amount, here⟩ := h
  cases fate with
  | kept _ owner => exact owner
  | repacked _ _ owner => exact owner
  | remade _ _ _ owner => exact owner
  | shut there _ closer =>
    cases here.symm.trans there
    exact absurd closer shut
  | opened vacant => exact absurd here (not_holding_of_vacant vacant _)

/-- What is neither a mint nor a holding stays as it is, but for its balance. -/
theorem same (fate : Fate takes closes a a') (occupied : a.isVacant = false)
    (noHolding : ∀ held, Holding.unpack a.data ≠ .ok held) (noMint : ∀ m, Mint.unpack a.data ≠ .ok m) :
    a'.data = a.data ∧ a'.owner = a.owner := by
  cases fate with
  | kept data owner => exact ⟨data, owner⟩
  | repacked there => exact absurd there (noHolding _)
  | remade there => exact absurd there (noMint _)
  | shut there => exact absurd there (noHolding _)
  | opened vacant => rw [occupied] at vacant; cases vacant

end Fate

/-! ## amounts -/

theorem toNat_add_of_fits {x y : Amount} (h : x.toNat + y.toNat < UInt64.size) :
    (x + y).toNat = x.toNat + y.toNat :=
  (UInt64.toNat_add x y).trans (Nat.mod_eq_of_lt h)

theorem toNat_sub_of_covered {x y : Amount} (h : y.toNat ≤ x.toNat) :
    (x - y).toNat = x.toNat - y.toNat :=
  UInt64.toNat_sub_of_le x y (UInt64.le_iff_toNat_le.2 h)

namespace Transfers

variable (h : Transfers s source destination authority amount s')
include h

theorem same_of_eq (heq : source = destination) : s' = s := by
  obtain ⟨_, _, _, rfl⟩ := h
  rw [transferred, if_pos heq]

/-- The holding that gives is the authority's. -/
theorem owner_eq (here : Stands s source held) : held.owner = authority := by
  obtain ⟨giver, _, may, _⟩ := h
  obtain ⟨_, here⟩ := here
  have hown := may.owner
  cases may.giver_at.symm.trans here
  exact hown

theorem tokens_destination (hne : source ≠ destination) :
    tokens s' destination = tokens s destination + amount.toNat := by
  obtain ⟨giver, taker, may, rfl⟩ := h
  have there : Holding.unpack ((transferred s source destination amount giver taker).read
      destination).data = .ok { taker with amount := taker.amount + amount } := by
    rw [read_transferred, if_neg hne, if_neg hne, if_pos rfl]
    exact unpack_pack { taker with amount := taker.amount + amount }
      (Holding.unpack_eq_ok_iff.1 may.taker_at).2
  rw [tokens_of_unpack may.taker_at, tokens_of_unpack there]
  exact toNat_add_of_fits (may.fits hne)

theorem tokens_source (hne : source ≠ destination) :
    amount.toNat ≤ tokens s source ∧ tokens s' source = tokens s source - amount.toNat := by
  obtain ⟨giver, taker, may, rfl⟩ := h
  have here : Holding.unpack ((transferred s source destination amount giver taker).read
      source).data = .ok { giver with amount := giver.amount - amount } := by
    rw [read_transferred, if_neg hne, if_pos rfl]
    exact unpack_pack { giver with amount := giver.amount - amount }
      (Holding.unpack_eq_ok_iff.1 may.giver_at).2
  rw [tokens_of_unpack may.giver_at, tokens_of_unpack here]
  exact ⟨may.covered hne, toNat_sub_of_covered (may.covered hne)⟩

end Transfers

end AccountLedger.Token
