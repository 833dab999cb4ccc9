import AccountLedger.Proofs.Token.Supply
/-!
# What moves between holdings

A step of the token program takes tokens from some accounts and gives them to others.  What is taken
and what is given are put down as postings, and the postings of steps that follow one another are
joined, whichever accounts they name.  Accounts that are posted to once have lost or gained just that,
and all others have what they had.

* `Posts`: what was taken and given between two stores; `Transfers.posts`, `Mints.posts` and the like:
  what each step takes and gives;
* `Moved`: which amounts moved, account by account; `Posts.moved`: where postings are to different
  accounts;
* `OfMint`: a holding of a mint stays one, so accounts of different mints are different.
-/

namespace AccountLedger.Token

variable {s s' s'' : Store} {k k' source destination authority mint mint' payer holding wallet : Key}
  {amount : Amount} {out into out' into' : List (Key × Nat)}

/-! ## the tokens of an account -/

theorem tokens_congr (data : (s'.read k).data = (s.read k).data) : tokens s' k = tokens s k := by
  rw [tokens, tokens, data]

theorem tokens_of_pack (held : Holding) (data : (s.read k).data = held.pack)
    (isOpen : held.state ≠ .uninitialized) : tokens s k = held.amount.toNat :=
  tokens_of_unpack (data ▸ unpack_pack held isOpen)

/-! ## postings -/

/-- what the postings to an account add up to -/
def posted : List (Key × Nat) → Key → Nat
  | [], _ => 0
  | (key, amount) :: rest, k => (if key = k then amount else 0) + posted rest k

@[simp] theorem posted_nil (k : Key) : posted [] k = 0 := rfl

@[simp] theorem posted_cons (key : Key) (amount : Nat) (rest : List (Key × Nat)) (k : Key) :
    posted ((key, amount) :: rest) k = (if key = k then amount else 0) + posted rest k := rfl

theorem posted_append (ps qs : List (Key × Nat)) (k : Key) :
    posted (ps ++ qs) k = posted ps k + posted qs k := by
  induction ps with
  | nil => simp
  | cons p ps ih =>
    obtain ⟨key, amount⟩ := p
    rw [List.cons_append, posted_cons, posted_cons, ih, Nat.add_assoc]

theorem posted_eq_zero {ps : List (Key × Nat)} (h : k ∉ ps.map (·.1)) : posted ps k = 0 := by
  induction ps with
  | nil => rfl
  | cons p ps ih =>
    rw [List.map_cons, List.mem_cons, not_or] at h
    rw [posted_cons, if_neg (Ne.symm h.1), ih h.2]

theorem posted_of_mem {ps : List (Key × Nat)} {e : Key × Nat} (distinct : (ps.map (·.1)).Nodup)
    (he : e ∈ ps) : posted ps e.1 = e.2 := by
  induction ps with
  | nil => cases he
  | cons p ps ih =>
    rw [List.map_cons, List.nodup_cons] at distinct
    rw [posted_cons]
    rcases List.mem_cons.1 he with rfl | he
    · rw [if_pos rfl, posted_eq_zero distinct.1, Nat.add_zero]
    · have hne : p.1 ≠ e.1 := fun heq => distinct.1 (heq ▸ List.mem_map_of_mem he)
      rw [if_neg hne, ih distinct.2 he, Nat.zero_add]

/-- Between the stores, tokens were taken as `out` says and given as `into` says. -/
def Posts (out into : List (Key × Nat)) (s s' : Store) : Prop :=
  ∀ k, tokens s' k + posted out k = tokens s k + posted into k

theorem Posts.trans (h : Posts out into s s') (h' : Posts out' into' s' s'') :
    Posts (out ++ out') (into ++ into') s s'' := by
  intro k
  have here := h k
  have there := h' k
  rw [posted_append, posted_append]
  omega

theorem Posts.congr (same : ∀ k, s''.read k = s'.read k) (h : Posts out into s s') :
    Posts out into s s'' := by
  intro k
  rw [tokens_congr (congrArg Account.data (same k))]
  exact h k

/-! ## the steps -/

/-- A transfer changes nothing but the data of two accounts. -/
theorem Transfers.read_eq (h : Transfers s source destination authority amount s') (k : Key) :
    s'.read k = { s.read k with data := (s'.read k).data } := by
  obtain ⟨giver, taker, _, rfl⟩ := h
  rw [read_transferred]
  by_cases hsd : source = destination
  · rw [if_pos hsd]
  rw [if_neg hsd]
  by_cases hs : source = k
  · rw [if_pos hs, hs]
  rw [if_neg hs]
  by_cases hd : destination = k
  · rw [if_pos hd, hd]
  · rw [if_neg hd]

theorem Transfers.read_of_ne (h : Transfers s source destination authority amount s')
    (hs : source ≠ k) (hd : destination ≠ k) : s'.read k = s.read k := by
  obtain ⟨giver, taker, _, rfl⟩ := h
  rw [read_transferred, if_neg hs, if_neg hd, ite_self]

/-- What is transferred is taken from the source and given to the destination, also where these are
one account. -/
theorem Transfers.posts (h : Transfers s source destination authority amount s') :
    Posts [(source, amount.toNat)] [(destination, amount.toNat)] s s' := by
  intro k
  simp only [posted_cons, posted_nil, Nat.add_zero]
  by_cases hsd : source = destination
  · rw [h.same_of_eq hsd, hsd]
  obtain ⟨covered, rest⟩ := h.tokens_source hsd
  have sum := h.tokens_destination hsd
  by_cases hs : source = k
  · subst hs
    rw [if_pos rfl, if_neg (Ne.symm hsd), rest]
    omega
  by_cases hd : destination = k
  · subst hd
    rw [if_neg hs, if_pos rfl, sum, Nat.add_zero]
  · rw [if_neg hs, if_neg hd]
    exact congrArg (· + 0) (tokens_congr (congrArg Account.data (h.read_of_ne hs hd)))

/-- A mint that is put back holds no tokens, as before. -/
theorem tokens_remade {m : Mint} (m' : Mint) (here : Mint.unpack (s.read k).data = .ok m)
    (data : (s'.read k).data = m'.pack) (initialized : m'.initialized = m.initialized) :
    tokens s' k = tokens s k := by
  have there : Mint.unpack (s'.read k).data = .ok m' :=
    Mint.unpack_eq_ok_iff.2 ⟨data, initialized.trans (Mint.unpack_eq_ok_iff.1 here).2⟩
  rw [tokens_eq_zero (not_holding_of_mint here), tokens_eq_zero (not_holding_of_mint there)]

theorem Mints.posts (h : Mints s mint destination authority amount s') :
    Posts [] [(destination, amount.toNat)] s s' := by
  obtain ⟨m, taker, may, rfl⟩ := h
  have hne : mint ≠ destination := by
    rintro rfl
    exact not_holding_of_mint may.mint_at taker may.taker_at
  intro k
  simp only [posted_cons, posted_nil, Nat.add_zero]
  by_cases hd : destination = k
  · subst hd
    rw [if_pos rfl, tokens_of_unpack may.taker_at, ← toNat_add_of_fits may.fits]
    refine tokens_of_pack { taker with amount := taker.amount + amount } ?_
      (Holding.unpack_eq_ok_iff.1 may.taker_at).2
    rw [Store.read_putData, if_pos rfl]
  rw [if_neg hd, Nat.add_zero]
  by_cases hm : mint = k
  · subst hm
    refine tokens_remade { m with supply := m.supply + amount } may.mint_at ?_ rfl
    rw [Store.read_putData, if_neg hd, Store.read_putData, if_pos rfl]
  · refine tokens_congr ?_
    rw [Store.read_putData, if_neg hd, Store.read_putData, if_neg hm]

theorem Burns.posts (h : Burns s source mint authority amount s') :
    Posts [(source, amount.toNat)] [] s s' := by
  obtain ⟨giver, m, may, rfl⟩ := h
  have hne : source ≠ mint := by
    rintro rfl
    exact not_holding_of_mint may.mint_at giver may.giver_at
  intro k
  simp only [posted_cons, posted_nil, Nat.add_zero]
  by_cases hs : source = k
  · subst hs
    rw [if_pos rfl, tokens_of_pack { giver with amount := giver.amount - amount } ?_
      (Holding.unpack_eq_ok_iff.1 may.giver_at).2, tokens_of_unpack may.giver_at,
      toNat_sub_of_covered may.covered]
    · exact Nat.sub_add_cancel may.covered
    · rw [Store.read_putData, if_neg (Ne.symm hne), Store.read_putData, if_pos rfl]
  rw [if_neg hs, Nat.add_zero]
  by_cases hm : mint = k
  · subst hm
    refine tokens_remade { m with supply := m.supply - amount } may.mint_at ?_ rfl
    rw [Store.read_putData, if_pos rfl]
  · refine tokens_congr ?_
    rw [Store.read_putData, if_neg hm, Store.read_putData, if_neg hs]

namespace Closes

variable (h : Closes s holding destination authority s')
include h

/-- Closing changes nothing of another account but its balance. -/
theorem read_eq (hk : holding ≠ k) : s'.read k = { s.read k with lamports := s'.lamports k } := by
  obtain ⟨held, _, rfl⟩ := h
  rw [Store.lamports, read_closedAt hk]
  split <;> rfl

theorem read_of_ne (hk : holding ≠ k) (hd : destination ≠ k) : s'.read k = s.read k := by
  obtain ⟨held, _, rfl⟩ := h
  rw [read_closedAt hk, if_neg hd]

theorem vacant (hne : holding ≠ destination) : (s'.read holding).isVacant = true := by
  obtain ⟨held, _, rfl⟩ := h
  obtain ⟨data, owner⟩ := closed_closedAt s holding destination
  exact Account.isVacant_iff.2 ⟨lamports_closedAt hne, data, owner⟩

theorem lamports_destination (hne : holding ≠ destination) :
    (s'.lamports destination).toNat =
      (s.lamports destination).toNat + (s.lamports holding).toNat := by
  obtain ⟨held, may, rfl⟩ := h
  have fits := may.fits
  rw [Store.read_putLamports, if_neg hne] at fits
  rw [Store.lamports, read_closedAt hne, if_pos rfl]
  exact toNat_add_of_fits fits

/-- A holding is closed when it is empty. -/
theorem tokens_eq : tokens s holding = 0 := by
  obtain ⟨held, may, rfl⟩ := h
  rw [tokens_of_unpack may.held_at, may.empty]
  rfl

theorem posts : Posts [] [] s s' := by
  intro k
  refine congrArg (· + 0) ?_
  by_cases hk : holding = k
  · subst hk
    rw [h.tokens_eq]
    obtain ⟨held, _, rfl⟩ := h
    refine tokens_eq_zero fun other hother => ?_
    rw [(closed_closedAt s holding destination).1] at hother
    cases hother
  · refine tokens_congr ?_
    rw [h.read_eq hk]

end Closes

/-- A holding that is opened is empty, as the vacant account was. -/
theorem Associated.Opened.posts (h : Opened s payer holding wallet mint s') : Posts [] [] s s' := by
  intro k
  refine congrArg (· + 0) ?_
  rcases h with ⟨rfl, _⟩ | ⟨vacant, rent, _, rfl⟩
  · rfl
  by_cases hk : holding = k
  · subst hk
    rw [tokens_eq_zero (not_holding_of_vacant vacant)]
    refine tokens_of_pack (Holding.opened mint wallet 0 []) ?_ (by simp [Holding.opened])
    rw [Store.read_insert, openedAt, Store.key_read, if_pos rfl]
  · refine tokens_congr ?_
    rw [Store.read_insert, openedAt, Store.key_read, if_neg hk, Store.data_putLamports]

/-- Only the wallet's own holding is taken for one that is set apart. -/
theorem Associated.Opened.owner_eq {held : Holding} (h : Opened s payer holding wallet mint s')
    (here : Holding.unpack (s.read holding).data = .ok held) : held.owner = wallet := by
  rcases h with ⟨_, isOpen⟩ | ⟨vacant, _⟩
  · rw [Associated.isOpen, here] at isOpen
    simp only [Bool.and_eq_true, decide_eq_true_eq] at isOpen
    exact isOpen.2.1
  · exact absurd here (not_holding_of_vacant vacant held)

/-! ## account by account -/

/-- The accounts have lost and gained what the lists say, and all others hold what they held. -/
structure Moved (losses gains : List (Key × Nat)) (s s' : Store) : Prop where
  lost : ∀ e ∈ losses, tokens s' e.1 + e.2 = tokens s e.1
  gained : ∀ e ∈ gains, tokens s' e.1 = tokens s e.1 + e.2
  kept : ∀ k, k ∉ losses.map (·.1) → k ∉ gains.map (·.1) → tokens s' k = tokens s k

theorem Moved.congr (same : ∀ k, s''.read k = s'.read k) (h : Moved out into s s') :
    Moved out into s s'' := by
  have tokens_eq : ∀ k, tokens s'' k = tokens s' k := fun k =>
    tokens_congr (congrArg Account.data (same k))
  refine ⟨fun e he => ?_, fun e he => ?_, fun k hout hinto => ?_⟩
  · rw [tokens_eq]
    exact h.lost e he
  · rw [tokens_eq]
    exact h.gained e he
  · rw [tokens_eq]
    exact h.kept k hout hinto

theorem Posts.moved (h : Posts out into s s') (distinct : ((out ++ into).map (·.1)).Nodup) :
    Moved out into s s' := by
  rw [List.map_append, List.nodup_append] at distinct
  obtain ⟨outs, intos, apart⟩ := distinct
  refine ⟨fun e he => ?_, fun e he => ?_, fun k hout hinto => ?_⟩
  · have here := h e.1
    have hinto : e.1 ∉ into.map (·.1) := fun hmem => apart _ (List.mem_map_of_mem he) _ hmem rfl
    rwa [posted_of_mem outs he, posted_eq_zero hinto, Nat.add_zero] at here
  · have here := h e.1
    have hout : e.1 ∉ out.map (·.1) := fun hmem => apart _ hmem _ (List.mem_map_of_mem he) rfl
    rwa [posted_of_mem intos he, posted_eq_zero hout, Nat.add_zero] at here
  · have here := h k
    rwa [posted_eq_zero hout, posted_eq_zero hinto, Nat.add_zero, Nat.add_zero] at here

/-! ## mints of holdings -/

/-- the account is a holding of the mint -/
def OfMint (mint : Key) (s : Store) (k : Key) : Prop :=
  ∃ held, Holding.unpack (s.read k).data = .ok held ∧ held.mint = mint

namespace OfMint

theorem ne (h : OfMint mint s k) (h' : OfMint mint' s k') (differ : mint ≠ mint') : k ≠ k' := by
  rintro rfl
  obtain ⟨held, here, rfl⟩ := h
  obtain ⟨held', here', rfl⟩ := h'
  cases here.symm.trans here'
  exact differ rfl

/-- A step that closes nothing leaves a holding one of its mint. -/
theorem step {takes : Key → Prop} (h : OfMint mint s k)
    (fate : Fate takes (fun _ => False) (s.read k) (s'.read k)) : OfMint mint s' k := by
  obtain ⟨held, here, rfl⟩ := h
  obtain ⟨⟨amount, there⟩, _⟩ := fate.stands (.of_unpack here) id
  exact ⟨_, there, rfl⟩

end OfMint

/-- A transfer is between holdings of one mint. -/
theorem Transfers.ofMint_source (h : Transfers s source destination authority amount s')
    (there : OfMint mint s destination) : OfMint mint s source := by
  obtain ⟨giver, taker, may, _⟩ := h
  obtain ⟨held, there, rfl⟩ := there
  cases may.taker_at.symm.trans there
  exact ⟨giver, may.giver_at, may.mint⟩

theorem Transfers.ofMint_destination (h : Transfers s source destination authority amount s')
    (here : OfMint mint s source) : OfMint mint s destination := by
  obtain ⟨giver, taker, may, _⟩ := h
  obtain ⟨held, here, rfl⟩ := here
  cases may.giver_at.symm.trans here
  exact ⟨taker, may.taker_at, may.mint.symm⟩

theorem Mints.ofMint (h : Mints s mint destination authority amount s') :
    OfMint mint s destination := by
  obtain ⟨_, taker, may, _⟩ := h
  exact ⟨taker, may.taker_at, may.mint_eq⟩

theorem Burns.ofMint (h : Burns s source mint authority amount s') : OfMint mint s source := by
  obtain ⟨giver, _, may, _⟩ := h
  exact ⟨giver, may.giver_at, may.mint_eq⟩

end AccountLedger.Token
