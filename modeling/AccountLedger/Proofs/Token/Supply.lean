import AccountLedger.Proofs.Token.Fates
/-!
# How many tokens there are

The tokens of a mint lie in its holdings, and the mint says how many were made.  Which holdings
there are is read off the whole store, so what a change of one account does to the sum is said
first, and the commands of the token program are sequences of such changes.

* `circulating_insert`: the sum after an insertion;
* `Even`, `Steady`: what is in circulation changes exactly as what was made, or neither changes;
* `Transfers.steady`, `Mints.grows`, `Burns.shrinks` and the like: the commands of the token program.
-/

namespace AccountLedger

/-! ## sums over stores -/

theorem Amount.total_erase {α : Type} [BEq α] [LawfulBEq α] (amount : α → Amount) {l : List α}
    {a : α} (h : a ∈ l) : total amount l = (amount a).toNat + total amount (l.erase a) := by
  induction l with
  | nil => cases h
  | cons b rest ih =>
    by_cases hab : b = a
    · rw [hab, List.erase_cons_head, total_cons]
    · have := ih ((List.mem_cons.1 h).resolve_left (Ne.symm hab))
      rw [List.erase_cons_tail (by simpa using hab), total_cons, total_cons]
      omega

/-- What is zero outside of a list sums up to no more over others. -/
theorem Amount.total_le_total {α : Type} [BEq α] [LawfulBEq α] {amount : α → Amount}
    {l l' : List α} (distinct : l.Nodup) (zero : ∀ a ∈ l, a ∉ l' → amount a = 0) :
    total amount l ≤ total amount l' := by
  induction l generalizing l' with
  | nil => exact Nat.zero_le _
  | cons a rest ih =>
    obtain ⟨ha, hrest⟩ := List.nodup_cons.1 distinct
    rw [total_cons]
    by_cases hmem : a ∈ l'
    · rw [total_erase amount hmem]
      refine Nat.add_le_add_left (ih hrest fun b hb hnot => ?_) _
      refine zero b (List.mem_cons_of_mem _ hb) fun hb' => hnot ?_
      have hne : b ≠ a := fun h => ha (h ▸ hb)
      exact (List.mem_erase_of_ne hne).2 hb'
    · rw [zero a (List.mem_cons_self ..) hmem, UInt64.toNat_zero, Nat.zero_add]
      exact ih hrest fun b hb => zero b (List.mem_cons_of_mem _ hb)

namespace Store

variable {s s' : Store} {amount : Account → Amount}

theorem keys_distinct (s : Store) : (s.accounts.map (·.key)).Nodup := by
  refine List.pairwise_map.2 (s.sorted.imp fun hlt heq => ?_)
  rw [Key.lt_iff, heq] at hlt
  exact Nat.lt_irrefl _ hlt

theorem read_of_mem {a : Account} (h : a ∈ s.accounts) : s.read a.key = a := by
  have hfind : s.find? a.key = some a := by
    unfold find?
    rw [List.find?_eq_some_iff_append]
    obtain ⟨front, rest, hsplit⟩ := List.append_of_mem h
    refine ⟨by simp, front, rest, hsplit, fun b hb => ?_⟩
    have hlt := (List.pairwise_append.1 (hsplit ▸ s.sorted)).2.2 b hb a (List.mem_cons_self ..)
    simp only [Bool.not_eq_true', decide_eq_false_iff_not]
    intro heq
    rw [Key.lt_iff, heq] at hlt
    exact Nat.lt_irrefl _ hlt
  rw [read, hfind, Option.getD_some]

theorem read_of_not_mem {key : Key} (h : key ∉ s.accounts.map (·.key)) :
    s.read key = .vacant key := by
  have hfind : s.find? key = none := by
    unfold find?
    rw [List.find?_eq_none]
    intro a ha
    simp only [decide_eq_true_eq]
    rintro rfl
    exact h (List.mem_map_of_mem ha)
  rw [read, hfind, Option.getD_none]

theorem sum_eq (s : Store) (amount : Account → Amount) :
    s.sum amount = Amount.total (fun key => amount (s.read key)) (s.accounts.map (·.key)) := by
  have h : ∀ l : List Account, (∀ a ∈ l, s.read a.key = a) →
      Amount.total amount l = Amount.total (fun key => amount (s.read key)) (l.map (·.key)) := by
    intro l hl
    induction l with
    | nil => rfl
    | cons a rest ih =>
      rw [List.map_cons, Amount.total_cons, Amount.total_cons, hl a (List.mem_cons_self ..),
        ih fun b hb => hl b (List.mem_cons_of_mem _ hb)]
  exact h s.accounts fun a ha => read_of_mem ha

theorem sum_le (same : ∀ key, s'.read key = s.read key) (vacant : ∀ key, amount (.vacant key) = 0) :
    s.sum amount ≤ s'.sum amount := by
  have h : (fun key => amount (s'.read key)) = fun key => amount (s.read key) :=
    funext fun key => congrArg amount (same key)
  rw [sum_eq, sum_eq, h]
  refine Amount.total_le_total s.keys_distinct fun key _ hnot => ?_
  rw [← same, read_of_not_mem hnot]
  exact vacant key

/-- Accounts that are vacant may be stored or not. -/
theorem sum_congr (same : ∀ key, s'.read key = s.read key)
    (vacant : ∀ key, amount (.vacant key) = 0) : s'.sum amount = s.sum amount :=
  Nat.le_antisymm (sum_le (fun key => (same key).symm) vacant) (sum_le same vacant)

end Store

namespace Token

variable {s s' s'' : Store} {a b : Account} {mint key other : Key} {held : Holding} {m : Mint}

/-! ## one account -/

/-- the tokens of a mint that an account holds -/
def holds (mint : Key) (a : Account) : Amount :=
  match Holding.unpack a.data with
  | .ok held => if held.mint = mint then held.amount else 0
  | .error _ => 0

/-- the tokens that were made of the mint in an account -/
def issued (a : Account) : Nat :=
  match Mint.unpack a.data with
  | .ok m => m.supply.toNat
  | .error _ => 0

theorem holds_of_unpack (h : Holding.unpack a.data = .ok held) :
    holds mint a = if held.mint = mint then held.amount else 0 := by
  rw [holds, h]

theorem holds_eq_zero (h : ∀ held, Holding.unpack a.data ≠ .ok held) : holds mint a = 0 := by
  unfold holds
  split
  · rename_i held hheld
    exact absurd hheld (h held)
  · rfl

theorem issued_of_unpack (h : Mint.unpack a.data = .ok m) : issued a = m.supply.toNat := by
  rw [issued, h]

theorem issued_eq_zero (h : ∀ m, Mint.unpack a.data ≠ .ok m) : issued a = 0 := by
  unfold issued
  split
  · rename_i m hm
    exact absurd hm (h m)
  · rfl

theorem not_mint_of_holding {data : Bytes} (h : Holding.unpack data = .ok held) (m : Mint) :
    Mint.unpack data ≠ .ok m := fun hm => not_holding_of_mint hm held h

theorem holds_vacant (mint key : Key) : holds mint (.vacant key) = 0 :=
  holds_eq_zero (not_holding_of_vacant (Account.isVacant_vacant key))

/-- Two accounts hold and issue the same. -/
structure Alike (a b : Account) : Prop where
  holds : ∀ mint, holds mint a = holds mint b
  issued : issued a = issued b

theorem Alike.of_data (h : a.data = b.data) : Alike a b where
  holds mint := by rw [Token.holds, Token.holds, h]
  issued := by rw [Token.issued, Token.issued, h]

/-- The account holds and issues nothing. -/
structure Idle (a : Account) : Prop where
  holds : ∀ mint, holds mint a = 0
  issued : issued a = 0

theorem Idle.alike (h : Idle a) (h' : Idle b) : Alike a b where
  holds mint := (h.holds mint).trans (h'.holds mint).symm
  issued := h.issued.trans h'.issued.symm

theorem Idle.of_length (holding : a.data.length ≠ Holding.size) (mint : a.data.length ≠ Mint.size) :
    Idle a where
  holds _ := holds_eq_zero fun held hheld =>
    holding (by rw [(Holding.unpack_eq_ok_iff.1 hheld).1, Holding.length_pack])
  issued := issued_eq_zero fun m hm =>
    mint (by rw [(Mint.unpack_eq_ok_iff.1 hm).1, Mint.length_pack])

theorem Idle.of_blank (h : a.data = []) : Idle a :=
  .of_length (by rw [h]; decide) (by rw [h]; decide)

theorem Idle.of_empty (here : Holding.unpack a.data = .ok held) (empty : held.amount = 0) :
    Idle a where
  holds mint := by
    rw [holds_of_unpack here, empty, ite_self]
  issued := issued_eq_zero (not_mint_of_holding here)

/-! ## the tokens of a store -/

/-- the sum over all holdings of a mint -/
def circulating (s : Store) (mint : Key) : Nat := s.sum (holds mint)

/-- the tokens that were made of a mint, none if the account is no mint -/
def supply (s : Store) (mint : Key) : Nat := issued (s.read mint)

theorem supply_lt (s : Store) (mint : Key) : supply s mint < UInt64.size := by
  unfold supply issued
  split
  · exact UInt64.toNat_lt _
  · decide

/-- Two holdings of a mint hold no more than is in circulation. -/
theorem tokens_add_le {a b : Key} (hne : a ≠ b) {held held' : Holding}
    (here : Holding.unpack (s.read a).data = .ok held) (mint_eq : held.mint = mint)
    (there : Holding.unpack (s.read b).data = .ok held') (mint_eq' : held'.mint = mint) :
    held.amount.toNat + held'.amount.toNat ≤ circulating s mint := by
  have hle : Amount.total (fun key => holds mint (s.read key)) [a, b] ≤ circulating s mint := by
    rw [circulating, Store.sum_eq]
    refine Amount.total_le_total (by simp [hne]) fun key _ hnot => ?_
    rw [Store.read_of_not_mem hnot, holds_vacant]
  simp only [Amount.total_cons, Amount.total_nil, holds_of_unpack here, holds_of_unpack there,
    if_pos mint_eq, if_pos mint_eq', Nat.add_zero] at hle
  exact hle

/-- the keys under which tokens are held or may have been made -/
def mints (s : Store) : List Key :=
  s.accounts.flatMap fun a => a.key :: ((Holding.unpack a.data).toOption.map (·.mint)).toList

theorem eq_zero_of_not_mem (h : mint ∉ mints s) : circulating s mint = 0 ∧ supply s mint = 0 := by
  simp only [mints, List.mem_flatMap, List.mem_cons, Option.mem_toList, not_exists, not_and,
    not_or] at h
  refine ⟨?_, ?_⟩
  · have hle : circulating s mint ≤ Amount.total (fun key => holds mint (s.read key)) [] := by
      rw [circulating, Store.sum_eq]
      refine Amount.total_le_total s.keys_distinct fun key hkey _ => ?_
      obtain ⟨a, ha, rfl⟩ := List.mem_map.1 hkey
      rw [Store.read_of_mem ha, holds]
      split
      · rename_i held hheld
        refine if_neg fun hmint => (h a ha).2 ?_
        rw [hheld, ← hmint]
        rfl
      · rfl
    exact Nat.le_zero.1 hle
  · have hread : s.read mint = .vacant mint := Store.read_of_not_mem fun hkey => by
      obtain ⟨a, ha, rfl⟩ := List.mem_map.1 hkey
      exact (h a ha).1 rfl
    rw [supply, hread]
    exact (Idle.of_blank rfl).issued

/-- It is enough to look at the keys that occur. -/
theorem forall_mem_mints_iff : (∀ mint ∈ mints s, circulating s mint = supply s mint) ↔
    ∀ mint, circulating s mint = supply s mint := by
  refine ⟨fun h mint => ?_, fun h mint _ => h mint⟩
  by_cases hmint : mint ∈ mints s
  · exact h mint hmint
  · obtain ⟨hcirculating, hsupply⟩ := eq_zero_of_not_mem hmint
    rw [hcirculating, hsupply]

instance : Decidable (∀ mint, circulating s mint = supply s mint) :=
  decidable_of_iff _ forall_mem_mints_iff

theorem circulating_insert (s : Store) (a : Account) (mint : Key) :
    circulating (s.insert a) mint + (holds mint (s.read a.key)).toNat =
      circulating s mint + (holds mint a).toNat :=
  s.sum_insert (holds mint) a (holds_vacant mint a.key)

theorem circulating_putData (s : Store) (key : Key) (data : Bytes) (mint : Key) :
    circulating (s.putData key data) mint + (holds mint (s.read key)).toNat =
      circulating s mint + (holds mint { s.read key with data }).toNat := by
  have h := circulating_insert s { s.read key with data } mint
  rw [show ({ s.read key with data } : Account).key = key from s.key_read key] at h
  exact h

theorem supply_putData (s : Store) (key : Key) (data : Bytes) (mint : Key) :
    supply (s.putData key data) mint =
      if key = mint then issued { s.read key with data } else supply s mint := by
  rw [supply, Store.read_putData]
  split <;> rfl

/-- What is in circulation has grown by as much as what was made. -/
def Even (s s' : Store) : Prop :=
  ∀ mint, circulating s' mint + supply s mint = circulating s mint + supply s' mint

theorem Even.refl (s : Store) : Even s s := fun _ => rfl

theorem Even.trans (h : Even s s') (h' : Even s' s'') : Even s s'' := by
  intro mint
  have := h mint
  have := h' mint
  omega

/-- As much is in circulation as before, and as much was made. -/
structure Steady (s s' : Store) : Prop where
  circulating : ∀ mint, circulating s' mint = circulating s mint
  supply : ∀ mint, supply s' mint = supply s mint

namespace Steady

theorem even (h : Steady s s') : Even s s' := fun mint => by rw [h.circulating, h.supply]

theorem refl (s : Store) : Steady s s := ⟨fun _ => rfl, fun _ => rfl⟩

theorem trans (h : Steady s s') (h' : Steady s' s'') : Steady s s'' where
  circulating mint := (h'.circulating mint).trans (h.circulating mint)
  supply mint := (h'.supply mint).trans (h.supply mint)

theorem of_same (same : ∀ key, s'.read key = s.read key) : Steady s s' where
  circulating mint := Store.sum_congr same (holds_vacant mint)
  supply mint := by rw [Token.supply, Token.supply, same]

/-- An account is replaced by one that holds and issues the same. -/
theorem insert (alike : Alike a (s.read a.key)) : Steady s (s.insert a) where
  circulating mint := by
    have hsum := circulating_insert s a mint
    rw [alike.holds] at hsum
    exact Nat.add_right_cancel hsum
  supply mint := by
    rw [Token.supply, Token.supply, Store.read_insert]
    split
    · rename_i h
      rw [← h, alike.issued]
    · rfl

theorem putLamports (s : Store) (key : Key) (lamports : Amount) :
    Steady s (s.putLamports key lamports) :=
  insert (.of_data (by rw [show ({ s.read key with lamports } : Account).key = key from s.key_read key]))

end Steady

/-! ## the commands of the token program -/

section

variable {source destination authority payer wallet owner : Key} {amount rent : Amount}

theorem holds_pack (h' : Holding) (isOpen : h'.state ≠ .uninitialized) (data : b.data = h'.pack) :
    holds mint b = if h'.mint = mint then h'.amount else 0 :=
  holds_of_unpack (data ▸ unpack_pack h' isOpen)

theorem issued_pack (h' : Holding) (data : b.data = h'.pack) : issued b = 0 := by
  refine issued_eq_zero fun m hm => ?_
  have hlength := congrArg List.length (data.symm.trans (Mint.unpack_eq_ok_iff.1 hm).1)
  rw [Holding.length_pack, Mint.length_pack] at hlength
  cases hlength

section Repacked

/-! A holding is put back with another amount. -/

variable (here : Holding.unpack (s.read key).data = .ok held) (amount : Amount)
include here

theorem circulating_repacked (mint : Key) :
    circulating (s.putData key { held with amount }.pack) mint +
        (if held.mint = mint then held.amount.toNat else 0) =
      circulating s mint + (if held.mint = mint then amount.toNat else 0) := by
  have h := circulating_putData s key { held with amount }.pack mint
  have hnew : holds mint { s.read key with data := { held with amount }.pack } =
      if held.mint = mint then amount else 0 :=
    holds_pack { held with amount } (Holding.unpack_eq_ok_iff.1 here).2 rfl
  rw [hnew, holds_of_unpack here] at h
  by_cases hm : held.mint = mint
  · rw [if_pos hm, if_pos hm] at h ⊢
    exact h
  · rw [if_neg hm, if_neg hm] at h ⊢
    exact h

theorem supply_repacked (mint : Key) :
    supply (s.putData key { held with amount }.pack) mint = supply s mint := by
  rw [supply_putData, issued_pack { held with amount } rfl]
  split
  · rename_i h
    rw [supply, ← h, issued_eq_zero (not_mint_of_holding here)]
  · rfl

end Repacked

section Remade

/-! A mint is put back with another supply or another authority. -/

variable (m' : Mint) (here : Mint.unpack (s.read key).data = .ok m)
  (initialized : m'.initialized = m.initialized)
include here initialized

theorem unpack_remade : Mint.unpack m'.pack = .ok m' :=
  Mint.unpack_eq_ok_iff.2 ⟨rfl, initialized.trans (Mint.unpack_eq_ok_iff.1 here).2⟩

theorem circulating_remade (mint : Key) :
    circulating (s.putData key m'.pack) mint = circulating s mint := by
  have h := circulating_putData s key m'.pack mint
  have hnew : holds mint { s.read key with data := m'.pack } = 0 :=
    holds_eq_zero (not_holding_of_mint (unpack_remade m' here initialized))
  rw [hnew, holds_eq_zero (not_holding_of_mint here)] at h
  exact h

theorem supply_remade (mint : Key) :
    supply (s.putData key m'.pack) mint = if key = mint then m'.supply.toNat else supply s mint := by
  rw [supply_putData, issued_of_unpack (a := { s.read key with data := m'.pack })
    (unpack_remade m' here initialized)]

end Remade

theorem Transfers.steady (h : Transfers s source destination authority amount s') : Steady s s' := by
  obtain ⟨giver, taker, may, rfl⟩ := h
  unfold transferred
  by_cases hsd : source = destination
  · rw [if_pos hsd]
    exact .refl s
  rw [if_neg hsd]
  have hin := circulating_repacked may.taker_at (taker.amount + amount)
  have hpaid := supply_repacked may.taker_at (taker.amount + amount)
  have hread := s.read_putData destination { taker with amount := taker.amount + amount }.pack source
  rw [if_neg (Ne.symm hsd)] at hread
  generalize s.putData destination { taker with amount := taker.amount + amount }.pack = paid at *
  have giver_at : Holding.unpack (paid.read source).data = .ok giver := hread ▸ may.giver_at
  have hout := circulating_repacked giver_at (giver.amount - amount)
  refine ⟨fun mint => ?_, fun mint => (supply_repacked giver_at _ mint).trans (hpaid mint)⟩
  have hin := hin mint
  have hout := hout mint
  have hsum := toNat_add_of_fits (may.fits hsd)
  have hrest := toNat_sub_of_covered (may.covered hsd)
  have hcovered := may.covered hsd
  by_cases hm : giver.mint = mint
  · have hm' : taker.mint = mint := may.mint ▸ hm
    rw [if_pos hm', if_pos hm'] at hin
    rw [if_pos hm, if_pos hm] at hout
    omega
  · have hm' : taker.mint ≠ mint := may.mint ▸ hm
    rw [if_neg hm', if_neg hm'] at hin
    rw [if_neg hm, if_neg hm] at hout
    omega

/-- What is made goes into circulation. -/
theorem Mints.grows (h : Mints s mint destination authority amount s') (other : Key) :
    circulating s' other = circulating s other + (if mint = other then amount.toNat else 0) ∧
      supply s' other = supply s other + (if mint = other then amount.toNat else 0) := by
  obtain ⟨m, taker, may, rfl⟩ := h
  have hne : mint ≠ destination := by
    rintro rfl
    exact not_holding_of_mint may.mint_at taker may.taker_at
  have hmade := circulating_remade { m with supply := m.supply + amount } may.mint_at rfl other
  have hissued := supply_remade { m with supply := m.supply + amount } may.mint_at rfl other
  have hread := s.read_putData mint { m with supply := m.supply + amount }.pack destination
  rw [if_neg hne] at hread
  generalize s.putData mint { m with supply := m.supply + amount }.pack = made at *
  have taker_at : Holding.unpack (made.read destination).data = .ok taker := hread ▸ may.taker_at
  have hout := circulating_repacked taker_at (taker.amount + amount) other
  have hsum := toNat_add_of_fits may.fits
  have hsupply := toNat_add_of_fits may.supply_fits
  rw [supply_repacked taker_at]
  rw [hmade] at hout
  by_cases hm : mint = other
  · have hm' : taker.mint = other := may.mint_eq.trans hm
    have hold : supply s other = m.supply.toNat := by
      rw [supply, ← hm, issued_of_unpack may.mint_at]
    rw [if_pos hm', if_pos hm'] at hout
    rw [hissued, if_pos hm, if_pos hm]
    dsimp only
    omega
  · have hm' : taker.mint ≠ other := may.mint_eq.symm ▸ hm
    rw [if_neg hm', if_neg hm'] at hout
    rw [hissued, if_neg hm, if_neg hm]
    omega

/-- What is burnt goes out of circulation. -/
theorem Burns.shrinks (h : Burns s source mint authority amount s') (other : Key) :
    circulating s' other + (if mint = other then amount.toNat else 0) = circulating s other ∧
      supply s' other + (if mint = other then amount.toNat else 0) = supply s other := by
  obtain ⟨giver, m, may, rfl⟩ := h
  have hne : source ≠ mint := by
    rintro rfl
    exact not_holding_of_mint may.mint_at giver may.giver_at
  have hin := circulating_repacked may.giver_at (giver.amount - amount) other
  have hburnt := supply_repacked may.giver_at (giver.amount - amount) other
  have hread := s.read_putData source { giver with amount := giver.amount - amount }.pack mint
  rw [if_neg hne] at hread
  generalize s.putData source { giver with amount := giver.amount - amount }.pack = burnt at *
  have mint_at : Mint.unpack (burnt.read mint).data = .ok m := hread ▸ may.mint_at
  have hrest := toNat_sub_of_covered may.covered
  have hsupply := toNat_sub_of_covered may.supply_covered
  have hcovered := may.covered
  have hissued := may.supply_covered
  rw [circulating_remade { m with supply := m.supply - amount } mint_at rfl,
    supply_remade { m with supply := m.supply - amount } mint_at rfl, hburnt]
  by_cases hm : mint = other
  · have hm' : giver.mint = other := may.mint_eq.trans hm
    have hold : supply s other = m.supply.toNat := by
      rw [supply, ← hm, issued_of_unpack may.mint_at]
    rw [if_pos hm', if_pos hm'] at hin
    rw [if_pos hm, if_pos hm]
    dsimp only
    omega
  · have hm' : giver.mint ≠ other := may.mint_eq.symm ▸ hm
    rw [if_neg hm', if_neg hm'] at hin
    rw [if_neg hm, if_neg hm]
    omega

/-- A holding is closed when it is empty, so nothing goes with it. -/
theorem Closes.steady (h : Closes s key destination authority s') : Steady s s' := by
  obtain ⟨held, may, rfl⟩ := h
  let emptied := s.putLamports key 0
  let paid := emptied.putLamports destination
    ((emptied.read destination).lamports + (s.read key).lamports)
  have hdata : (paid.read key).data = (s.read key).data :=
    (emptied.data_putLamports _ _ _).trans (s.data_putLamports _ _ _)
  have hempty : Idle (paid.read key) := .of_empty (hdata ▸ may.held_at) may.empty
  have hpaid : Steady s paid := (Steady.putLamports s key 0).trans (.putLamports emptied destination _)
  refine hpaid.trans (.insert ?_)
  rw [show (closed (paid.read key)).key = key from paid.key_read key]
  exact Idle.alike (.of_blank rfl) hempty

theorem HandsOver.steady {successor : Option Key}
    (h : HandsOver s key authority .mintTokens successor s') : Steady s s' := by
  obtain ⟨m, hm, _, rfl⟩ := h.of_mint
  refine ⟨circulating_remade { m with authority := m.authority.set successor } hm rfl, fun mint => ?_⟩
  rw [supply_remade { m with authority := m.authority.set successor } hm rfl]
  split
  · rename_i h
    rw [supply, ← h, issued_of_unpack hm]
  · rfl

/-- A vacant account is paid for and replaced by one that holds and issues nothing. -/
theorem steady_claimed (vacant : (s.read key).isVacant = true) (lamports : Amount)
    (here : a.key = key) (idle : Idle a) : Steady s ((s.putLamports payer lamports).insert a) := by
  have hdata : ((s.putLamports payer lamports).read key).data = [] :=
    (s.data_putLamports _ _ _).trans (Account.isVacant_iff.1 vacant).2.1
  refine (Steady.putLamports s payer lamports).trans (.insert ?_)
  rw [here]
  exact idle.alike (.of_blank hdata)

theorem steady_filled {space : Nat} {data : Bytes} (vacant : (s.read key).isVacant = true)
    (idle : ∀ a : Account, a.data = data → Idle a) :
    Steady s ((s.made payer key rent space owner).putData key data) := by
  let new : Account := { s.read key with lamports := rent, data, owner }
  have hkey : new.key = key := s.key_read key
  have claimed : Steady s ((s.putLamports payer ((s.read payer).lamports - rent)).insert new) :=
    steady_claimed vacant _ hkey (idle new rfl)
  refine claimed.trans (.of_same fun k => ?_)
  rw [Store.read_filled, Store.read_insert, hkey, Store.read_putLamports]

theorem idle_opened (old : Bytes) (h : a.data = (Holding.opened mint owner 0 old).pack) : Idle a :=
  .of_empty (h ▸ unpack_pack (Holding.opened mint owner 0 old) (by simp [Holding.opened])) rfl

theorem Makes.steady (h : Makes s payer key mint owner s') : Steady s s' := by
  obtain ⟨vacant, rent, rfl⟩ := h
  exact steady_filled vacant fun _ => idle_opened _

theorem Associated.Opened.steady (h : Opened s payer key wallet mint s') : Steady s s' := by
  rcases h with ⟨rfl, _⟩ | ⟨vacant, rent, _, rfl⟩
  · exact .refl _
  · exact steady_claimed vacant _ (Store.key_read _ _) (idle_opened [] rfl)

end

end Token

end AccountLedger
