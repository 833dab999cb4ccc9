import AccountLedger.Proofs.Calling
import AccountLedger.Token.Native
/-!
# What the token program does to a store

Each command of the token program, read as a change of the store: what it needs to be carried out,
and which accounts it then changes.  An authority has signed, and it is the owner of the holding
that loses tokens or is closed.

* `performTransfer_eq_ok_iff`, `performClose_eq_done_iff` and the like: when a command is carried
  out, and the store that it leaves;
* `read_transferred`, `read_closedAt`, `read_opened`: the accounts of such a store;
* `Transfers`, `Closes`, `Mints`, `Burns`, `HandsOver`, `Makes`: a command as a step from store to
  store.
-/

namespace AccountLedger

namespace Store

variable {keys : List Key}

theorem positionAt_slots_iff (distinct : keys.Nodup) (place : Nat) {s : Store} {i : Instruction}
    {key : Key} (named : i.keyAt place = .ok key) {p : Fin keys.length} :
    (s.slots keys).positionAt i place = .ok p ↔ keys.get p = key := by
  simp only [Slots.positionAt, named, bind_eq_ok_iff, Except.ok.injEq, exists_eq_left',
    position_slots_iff distinct]

theorem putData_slots (distinct : keys.Nodup) (s : Store) (p : Fin keys.length) (data : Bytes) :
    Token.putData (s.slots keys) p data = (s.putData (keys.get p) data).slots keys := by
  rw [Token.putData, get_slots]
  exact put_slots distinct (s.key_read _)

/-- `putLamports` as a change of a slot, with the account written out -/
theorem putLamports_slots (distinct : keys.Nodup) (s : Store) (p : Fin keys.length)
    (lamports : Amount) :
    (s.slots keys).put p ⟨(s.read (keys.get p)).key, lamports, (s.read (keys.get p)).data,
      (s.read (keys.get p)).owner, (s.read (keys.get p)).executable,
      (s.read (keys.get p)).rentEpoch⟩ = (s.putLamports (keys.get p) lamports).slots keys :=
  put_slots distinct (s.key_read _)

end Store

namespace Reply

variable {n : Nat} {α : Type} {accounts after : Slots n}

theorem result_eq_ok_iff {reply : Reply n} :
    reply.result = .ok () ↔ reply = .done reply.accounts := by
  refine ⟨?_, ?_⟩
  · intro h
    rw [done, ← h]
  · intro h
    rw [h]
    rfl

theorem done_inj : (done accounts = done after) ↔ accounts = after :=
  ⟨congrArg Reply.accounts, congrArg done⟩

theorem afterChecks_eq_done_iff {checks : Except ProgramError α} {next : α → Reply n} :
    afterChecks accounts checks next = .done after ↔
      ∃ a, checks = .ok a ∧ next a = .done after := by
  cases checks with
  | error e => simp [afterChecks, refuse, done]
  | ok a => simp [afterChecks]

theorem ofChanged_eq_done_iff {changed : Except ProgramError (Slots n)} :
    ofChanged accounts changed = .done after ↔ changed = .ok after := by
  rw [ofChanged, afterChecks_eq_done_iff]
  refine ⟨?_, ?_⟩
  · rintro ⟨a, ha, h⟩
    rw [ha, show a = after from congrArg Reply.accounts h]
  · intro h
    exact ⟨after, h, rfl⟩

end Reply

namespace Token

/-- how many tokens an account holds -/
def tokens (s : Store) (key : Key) : Nat :=
  match Holding.unpack (s.read key).data with
  | .ok held => held.amount.toNat
  | .error _ => 0

variable {s : Store} {keys : List Key} {signers : List Key} {amount : Amount}

theorem tokens_of_unpack {key : Key} {held : Holding}
    (h : Holding.unpack (s.read key).data = .ok held) : tokens s key = held.amount.toNat := by
  rw [tokens, h]

theorem tokens_eq_zero {key : Key} (h : ∀ held, Holding.unpack (s.read key).data ≠ .ok held) :
    tokens s key = 0 := by
  unfold tokens
  split
  · rename_i held hheld
    exact absurd hheld (h held)
  · rfl

/-- A vacant account is no holding. -/
theorem not_holding_of_vacant {a : Account} (h : a.isVacant = true) (held : Holding) :
    Holding.unpack a.data ≠ .ok held := by
  rw [(Account.isVacant_iff.1 h).2.1]
  intro hheld
  have := congrArg List.length (Holding.unpack_eq_ok_iff.1 hheld).1
  rw [Holding.length_pack] at this
  cases this

/-- A mint is shorter than a holding. -/
theorem not_holding_of_mint {data : Bytes} {m : Mint} (h : Mint.unpack data = .ok m) (held : Holding) :
    Holding.unpack data ≠ .ok held := by
  intro hheld
  have hlength := congrArg List.length
    ((Mint.unpack_eq_ok_iff.1 h).1.symm.trans (Holding.unpack_eq_ok_iff.1 hheld).1)
  rw [Mint.length_pack, Holding.length_pack] at hlength
  cases hlength

theorem unpack_pack (held : Holding) (h : held.state ≠ .uninitialized) :
    Holding.unpack held.pack = .ok held :=
  Holding.unpack_eq_ok_iff.2 ⟨rfl, h⟩

theorem requireSigner_eq_ok_iff {key : Key} :
    requireSigner signers key = .ok () ↔ key ∈ signers := by
  unfold requireSigner
  split <;> simp_all

theorem requireAuthority_eq_ok_iff {holder : Option Key} {authority : Key} :
    requireAuthority holder authority signers = .ok () ↔
      authority ∈ signers ∧ holder = some authority := by
  simp only [requireAuthority, bind_eq_ok_iff, exists_unit, requireSigner_eq_ok_iff]
  split
  · rename_i h
    simp [h, throw, throwThe, MonadExceptOf.throw]
  · rename_i h
    simp [pure_eq_ok_iff, Decidable.not_not.1 h]

theorem debited_eq_ok_iff {balance rest : Amount} :
    debited balance amount = .ok rest ↔
      amount.toNat ≤ balance.toNat ∧ rest = balance - amount := by
  unfold debited Amount.debit?
  rw [← UInt64.le_iff_toNat_le]
  by_cases h : amount ≤ balance <;> simp [h, eq_comm]

theorem credited_eq_ok_iff {balance sum : Amount} :
    credited balance amount = .ok sum ↔
      balance.toNat + amount.toNat < UInt64.size ∧ sum = balance + amount := by
  unfold credited Amount.credit?
  by_cases h : balance.toNat + amount.toNat < UInt64.size <;> simp [h, eq_comm]

/-! ## moving tokens -/

/-- what a transfer needs of the two holdings -/
structure MayTransfer (s : Store) (source destination authority : Key) (signers : List Key)
    (amount : Amount) (giver taker : Holding) : Prop where
  giver_at : Holding.unpack (s.read source).data = .ok giver
  taker_at : Holding.unpack (s.read destination).data = .ok taker
  signed : authority ∈ signers
  owner : giver.owner = authority
  mint : giver.mint = taker.mint
  covered : source ≠ destination → amount.toNat ≤ giver.amount.toNat
  fits : source ≠ destination → taker.amount.toNat + amount.toNat < UInt64.size

/-- the store after a transfer; one of a holding to itself does nothing -/
def transferred (s : Store) (source destination : Key) (amount : Amount)
    (giver taker : Holding) : Store :=
  if source = destination then s
  else
    (s.putData destination { taker with amount := taker.amount + amount }.pack).putData source
      { giver with amount := giver.amount - amount }.pack

theorem read_transferred (s : Store) (source destination : Key) (amount : Amount)
    (giver taker : Holding) (key : Key) :
    (transferred s source destination amount giver taker).read key =
      if source = destination then s.read key
      else if source = key then
        { s.read source with data := { giver with amount := giver.amount - amount }.pack }
      else if destination = key then
        { s.read destination with data := { taker with amount := taker.amount + amount }.pack }
      else s.read key := by
  unfold transferred
  by_cases hsd : source = destination
  · rw [if_pos hsd, if_pos hsd]
  · rw [if_neg hsd, if_neg hsd, Store.read_putData, Store.read_putData, Store.read_putData,
      if_neg (Ne.symm hsd)]

theorem performTransfer_eq_ok_iff (distinct : keys.Nodup) {source destination authority : Key}
    (hs : source ∈ keys) (hd : destination ∈ keys) {after : Slots keys.length} :
    performTransfer (transfer source destination authority amount) (s.slots keys) signers amount =
        .ok after ↔
      ∃ giver taker, MayTransfer s source destination authority signers amount giver taker ∧
        after = (transferred s source destination amount giver taker).slots keys := by
  obtain ⟨p, rfl⟩ := exists_get_of_mem hs
  obtain ⟨q, rfl⟩ := exists_get_of_mem hd
  have hp := (Store.positionAt_slots_iff distinct 0 (s := s) (i := transfer
    (keys.get p) (keys.get q) authority amount) rfl).2 (Eq.refl (keys.get p))
  have hq := (Store.positionAt_slots_iff distinct 1 (s := s) (i := transfer
    (keys.get p) (keys.get q) authority amount) rfl).2 (Eq.refl (keys.get q))
  have ha : (transfer (keys.get p) (keys.get q) authority amount).keyAt 2 = .ok authority := rfl
  simp only [performTransfer, hp, hq, ha, bind_eq_ok_iff, exists_unit, Except.ok.injEq,
    exists_eq_left', Store.get_slots, requireAuthority_eq_ok_iff, throw_or_eq_ok_iff]
  by_cases hpq : p = q
  · subst hpq
    simp only [↓reduceIte, pure_eq_ok_iff]
    refine ⟨?_, ?_⟩
    · rintro ⟨giver, hg, taker, ht, ⟨hsigned, howner⟩, hmint, rfl⟩
      exact ⟨giver, taker, ⟨hg, ht, hsigned, Option.some.inj howner, Decidable.not_not.1 hmint,
        fun hne => absurd rfl hne, fun hne => absurd rfl hne⟩, by rw [transferred, if_pos rfl]⟩
    · rintro ⟨giver, taker, may, rfl⟩
      exact ⟨giver, may.giver_at, taker, may.taker_at, ⟨may.signed, congrArg some may.owner⟩,
        Decidable.not_not.2 may.mint, by rw [transferred, if_pos rfl]⟩
  · have hne : keys.get p ≠ keys.get q := mt (get_inj_of_nodup distinct).1 hpq
    simp only [if_neg hpq, bind_eq_ok_iff, pure_eq_ok_iff, debited_eq_ok_iff, credited_eq_ok_iff,
      Store.putData_slots distinct, transferred, if_neg hne]
    refine ⟨?_, ?_⟩
    · rintro ⟨giver, hg, taker, ht, ⟨hsigned, howner⟩, hmint, _, ⟨hc, rfl⟩, _, ⟨hf, rfl⟩, rfl⟩
      exact ⟨giver, taker, ⟨hg, ht, hsigned, Option.some.inj howner, Decidable.not_not.1 hmint,
        fun _ => hc, fun _ => hf⟩, rfl⟩
    · rintro ⟨giver, taker, may, rfl⟩
      exact ⟨giver, may.giver_at, taker, may.taker_at, ⟨may.signed, congrArg some may.owner⟩,
        Decidable.not_not.2 may.mint, _, ⟨may.covered hne, rfl⟩, _, ⟨may.fits hne, rfl⟩, rfl⟩

/-! ## closing a holding -/

/-- what closing needs of the holding and of the account that its balance goes to -/
structure MayClose (s : Store) (key destination authority : Key) (signers : List Key)
    (held : Holding) : Prop where
  held_at : Holding.unpack (s.read key).data = .ok held
  signed : authority ∈ signers
  closer : held.closer = authority
  empty : held.amount = 0
  fits : ((s.putLamports key 0).read destination).lamports.toNat + (s.read key).lamports.toNat <
    UInt64.size

/-- the store after a holding was closed -/
def closedAt (s : Store) (key destination : Key) : Store :=
  let emptied := s.putLamports key 0
  let paid := emptied.putLamports destination
    ((emptied.read destination).lamports + (s.read key).lamports)
  paid.insert (closed (paid.read key))

theorem closed_closedAt (s : Store) (key destination : Key) :
    ((closedAt s key destination).read key).data = [] ∧
      ((closedAt s key destination).read key).owner = .system := by
  simp only [closedAt, closed, Store.read_insert, Store.key_read, ↓reduceIte, and_self]

theorem lamports_closedAt {s : Store} {key destination : Key} (h : key ≠ destination) :
    ((closedAt s key destination).read key).lamports = 0 := by
  simp only [closedAt, closed, Store.read_insert, Store.key_read, ↓reduceIte]
  rw [Store.read_putLamports, if_neg (Ne.symm h), Store.read_putLamports, if_pos rfl]

/-- The other accounts stay as they are, but for the balance of the one that is paid. -/
theorem read_closedAt {s : Store} {key other : Key} (h : key ≠ other) (destination : Key) :
    (closedAt s key destination).read other =
      if destination = other then
        { s.read other with lamports := (s.read other).lamports + (s.read key).lamports }
      else s.read other := by
  simp only [closedAt, Store.read_insert, closed, Store.key_read, if_neg h]
  rw [Store.read_putLamports]
  by_cases hd : destination = other
  · rw [if_pos hd, if_pos hd, hd, Store.read_putLamports, if_neg h]
    simp only [Store.key_read]
  · rw [if_neg hd, if_neg hd, Store.read_putLamports, if_neg h]

theorem performClose_eq_done_iff (distinct : keys.Nodup) {key destination authority : Key}
    (hk : key ∈ keys) (hd : destination ∈ keys) {after : Slots keys.length} :
    performClose (close key destination authority) (s.slots keys) signers = .done after ↔
      ∃ held, MayClose s key destination authority signers held ∧
        after = (closedAt s key destination).slots keys := by
  obtain ⟨p, rfl⟩ := exists_get_of_mem hk
  obtain ⟨q, rfl⟩ := exists_get_of_mem hd
  have hp := (Store.positionAt_slots_iff distinct 0 (s := s) (i := close
    (keys.get p) (keys.get q) authority) rfl).2 (Eq.refl (keys.get p))
  have hq := (Store.positionAt_slots_iff distinct 1 (s := s) (i := close
    (keys.get p) (keys.get q) authority) rfl).2 (Eq.refl (keys.get q))
  have ha : (close (keys.get p) (keys.get q) authority).keyAt 2 = .ok authority := rfl
  have hput : ∀ (now : Store) , (now.slots keys).put p (closed (now.read (keys.get p))) =
      (now.insert (closed (now.read (keys.get p)))).slots keys :=
    fun now => Store.put_slots distinct (now.key_read _)
  refine ⟨?_, ?_⟩
  · intro h
    obtain ⟨⟨_, _⟩, hchecks, hpaid⟩ := Reply.afterChecks_eq_done_iff.1 h
    simp only [hp, hq, ha, bind_eq_ok_iff, exists_unit, Except.ok.injEq, exists_eq_left',
      requireAuthority_eq_ok_iff, throw_or_eq_ok_iff, pure_eq_ok_iff, Prod.mk.injEq,
      Store.get_slots] at hchecks
    obtain ⟨held, hheld, ⟨hsigned, hcloser⟩, hempty, rfl, rfl⟩ := hchecks
    simp only [Store.get_slots, Store.putLamports_slots distinct, hput] at hpaid
    cases hc : credited ((s.putLamports (keys.get p) 0).read (keys.get q)).lamports
        (s.read (keys.get p)).lamports with
    | error e => rw [hc] at hpaid; cases hpaid
    | ok balance =>
      obtain ⟨hfits, rfl⟩ := credited_eq_ok_iff.1 hc
      rw [hc] at hpaid
      exact ⟨held, ⟨hheld, hsigned, Option.some.inj hcloser, Decidable.not_not.1 hempty, hfits⟩,
        (congrArg Reply.accounts hpaid).symm⟩
  · rintro ⟨held, may, rfl⟩
    refine Reply.afterChecks_eq_done_iff.2 ⟨(p, q), ?_, ?_⟩
    · simp only [hp, hq, ha, bind_eq_ok_iff, exists_unit, Except.ok.injEq, exists_eq_left',
        requireAuthority_eq_ok_iff, throw_or_eq_ok_iff, pure_eq_ok_iff, Store.get_slots]
      exact ⟨held, may.held_at, ⟨may.signed, congrArg some may.closer⟩,
        Decidable.not_not.2 may.empty, trivial⟩
    · have hc := credited_eq_ok_iff.2 ⟨may.fits, rfl⟩
      simp only [Store.get_slots, Store.putLamports_slots distinct, hput, hc]
      rfl

/-! ## making and burning tokens -/

structure MayMint (s : Store) (mint destination authority : Key) (signers : List Key)
    (amount : Amount) (m : Mint) (taker : Holding) : Prop where
  mint_at : Mint.unpack (s.read mint).data = .ok m
  taker_at : Holding.unpack (s.read destination).data = .ok taker
  signed : authority ∈ signers
  holder : m.authority.get? = some authority
  mint_eq : taker.mint = mint
  supply_fits : m.supply.toNat + amount.toNat < UInt64.size
  fits : taker.amount.toNat + amount.toNat < UInt64.size

theorem performMint_eq_ok_iff (distinct : keys.Nodup) {mint destination authority : Key}
    (hm : mint ∈ keys) (hd : destination ∈ keys) {after : Slots keys.length} :
    performMint (mintTo mint destination authority amount) (s.slots keys) signers amount =
        .ok after ↔
      ∃ m taker, MayMint s mint destination authority signers amount m taker ∧
        after = ((s.putData mint { m with supply := m.supply + amount }.pack).putData destination
          { taker with amount := taker.amount + amount }.pack).slots keys := by
  obtain ⟨p, rfl⟩ := exists_get_of_mem hm
  obtain ⟨q, rfl⟩ := exists_get_of_mem hd
  have hm := (Store.position_slots_iff distinct (s := s)).2 (Eq.refl (keys.get p))
  have hq := (Store.positionAt_slots_iff distinct 1 (s := s) (i := mintTo
    (keys.get p) (keys.get q) authority amount) rfl).2 (Eq.refl (keys.get q))
  have hk : (mintTo (keys.get p) (keys.get q) authority amount).keyAt 0 = .ok (keys.get p) := rfl
  have ha : (mintTo (keys.get p) (keys.get q) authority amount).keyAt 2 = .ok authority := rfl
  simp only [performMint, hm, hq, hk, ha, bind_eq_ok_iff, exists_unit, Except.ok.injEq,
    exists_eq_left', Store.get_slots, requireAuthority_eq_ok_iff, throw_or_eq_ok_iff,
    pure_eq_ok_iff, credited_eq_ok_iff, Store.putData_slots distinct]
  refine ⟨?_, ?_⟩
  · rintro ⟨m, hm, taker, ht, ⟨hsigned, hholder⟩, hmint, _, ⟨hs, rfl⟩, _, ⟨hf, rfl⟩, rfl⟩
    exact ⟨m, taker, ⟨hm, ht, hsigned, hholder, Decidable.not_not.1 hmint, hs, hf⟩, rfl⟩
  · rintro ⟨m, taker, may, rfl⟩
    exact ⟨m, may.mint_at, taker, may.taker_at, ⟨may.signed, may.holder⟩,
      Decidable.not_not.2 may.mint_eq, _, ⟨may.supply_fits, rfl⟩, _, ⟨may.fits, rfl⟩, rfl⟩

structure MayBurn (s : Store) (source mint authority : Key) (signers : List Key)
    (amount : Amount) (giver : Holding) (m : Mint) : Prop where
  giver_at : Holding.unpack (s.read source).data = .ok giver
  mint_at : Mint.unpack (s.read mint).data = .ok m
  signed : authority ∈ signers
  owner : giver.owner = authority
  mint_eq : giver.mint = mint
  covered : amount.toNat ≤ giver.amount.toNat
  supply_covered : amount.toNat ≤ m.supply.toNat

theorem performBurn_eq_ok_iff (distinct : keys.Nodup) {source mint authority : Key}
    (hs : source ∈ keys) (hm : mint ∈ keys) {after : Slots keys.length} :
    performBurn (burn source mint authority amount) (s.slots keys) signers amount = .ok after ↔
      ∃ giver m, MayBurn s source mint authority signers amount giver m ∧
        after = ((s.putData source { giver with amount := giver.amount - amount }.pack).putData mint
          { m with supply := m.supply - amount }.pack).slots keys := by
  obtain ⟨p, rfl⟩ := exists_get_of_mem hs
  obtain ⟨q, rfl⟩ := exists_get_of_mem hm
  have hp := (Store.positionAt_slots_iff distinct 0 (s := s) (i := burn
    (keys.get p) (keys.get q) authority amount) rfl).2 (Eq.refl (keys.get p))
  have hm := (Store.position_slots_iff distinct (s := s)).2 (Eq.refl (keys.get q))
  have hk : (burn (keys.get p) (keys.get q) authority amount).keyAt 1 = .ok (keys.get q) := rfl
  have ha : (burn (keys.get p) (keys.get q) authority amount).keyAt 2 = .ok authority := rfl
  simp only [performBurn, hp, hm, hk, ha, bind_eq_ok_iff, exists_unit, Except.ok.injEq,
    exists_eq_left', Store.get_slots, requireAuthority_eq_ok_iff, throw_or_eq_ok_iff,
    pure_eq_ok_iff, debited_eq_ok_iff, Store.putData_slots distinct]
  refine ⟨?_, ?_⟩
  · rintro ⟨giver, hg, m, hm, ⟨hsigned, howner⟩, hmint, _, ⟨hc, rfl⟩, _, ⟨hs, rfl⟩, rfl⟩
    exact ⟨giver, m, ⟨hg, hm, hsigned, Option.some.inj howner, Decidable.not_not.1 hmint, hc, hs⟩,
      rfl⟩
  · rintro ⟨giver, m, may, rfl⟩
    exact ⟨giver, may.giver_at, m, may.mint_at, ⟨may.signed, congrArg some may.owner⟩,
      Decidable.not_not.2 may.mint_eq, _, ⟨may.covered, rfl⟩, _, ⟨may.supply_covered, rfl⟩, rfl⟩

/-! ## opening a holding and handing on -/

/-- the store after a holding was made and opened -/
def opened (s : Store) (payer holding mint owner : Key) (rent : Amount) : Store :=
  (s.made payer holding rent Holding.size program).putData holding
    (Holding.opened mint owner 0 (List.replicate Holding.size 0)).pack

theorem read_opened (s : Store) (payer holding mint owner : Key) (rent : Amount) (key : Key) :
    (opened s payer holding mint owner rent).read key =
      if holding = key then
        { s.read holding with
          lamports := rent
          data := (Holding.opened mint owner 0 (List.replicate Holding.size 0)).pack
          owner := program }
      else if payer = key then { s.read payer with lamports := (s.read payer).lamports - rent }
      else s.read key :=
  Store.read_filled ..

theorem performOpen_eq_done_iff (distinct : keys.Nodup) {holding mint owner : Key}
    (hh : holding ∈ keys) (hm : mint ∈ keys) {after : Slots keys.length} :
    performOpen (openHolding holding mint owner) (s.slots keys) owner = .done after ↔
      (∃ m, Mint.unpack (s.read mint).data = .ok m) ∧ (s.read holding).owner = program ∧
        (∀ h, Holding.unpack (s.read holding).data ≠ .ok h) ∧
        Holding.size ≤ (s.read holding).data.length ∧
        after = (s.putData holding ((Holding.opened mint owner 0 (s.read holding).data).pack ++
          (s.read holding).data.drop Holding.size)).slots keys := by
  obtain ⟨p, rfl⟩ := exists_get_of_mem hh
  obtain ⟨q, rfl⟩ := exists_get_of_mem hm
  have hp := (Store.positionAt_slots_iff distinct 0 (s := s) (i := openHolding
    (keys.get p) (keys.get q) owner) rfl).2 (Eq.refl (keys.get p))
  have hq := (Store.position_slots_iff distinct (s := s)).2 (Eq.refl (keys.get q))
  have hk : (openHolding (keys.get p) (keys.get q) owner).keyAt 1 = .ok (keys.get q) := rfl
  have hopen : ∀ data, (Holding.unpack data).isOk = true ↔ ∃ h, Holding.unpack data = .ok h := by
    intro data
    cases Holding.unpack data <;> simp [Except.isOk, Except.toBool]
  simp only [performOpen, Reply.afterChecks_eq_done_iff, hp, hq, hk, bind_eq_ok_iff,
    Except.ok.injEq, exists_eq_left', Store.get_slots, throw_or_eq_ok_iff, pure_eq_ok_iff, hopen,
    Store.putData_slots distinct, not_exists]
  refine ⟨?_, ?_⟩
  · rintro ⟨_, ⟨m, hm, howner, hunopened, rfl⟩, hdone⟩
    split at hdone
    · cases hdone
    · rename_i hlength
      exact ⟨⟨m, hm⟩, Decidable.not_not.1 howner, hunopened, Nat.le_of_not_lt hlength,
        (congrArg Reply.accounts hdone).symm⟩
  · rintro ⟨⟨m, hm⟩, howner, hunopened, hlength, rfl⟩
    refine ⟨_, ⟨m, hm, Decidable.not_not.2 howner, hunopened, rfl⟩, ?_⟩
    rw [if_neg (Nat.not_lt.2 hlength)]

/-- the data of a mint or a holding after one of its authorities was handed on -/
def HandedOn (old : Bytes) (kind : AuthorityKind) (successor : Option Key) (authority : Key)
    (signers : List Key) (data : Bytes) : Prop :=
  if old.length = Mint.size then
    ∃ m m', Mint.unpack old = .ok m ∧ m.handOn kind successor authority signers = .ok m' ∧
      data = m'.pack
  else
    ∃ h h', Holding.unpack old = .ok h ∧ h.handOn kind successor authority signers = .ok h' ∧
      data = h'.pack

theorem performSetAuthority_eq_ok_iff (distinct : keys.Nodup) {target authority : Key}
    {kind : AuthorityKind} {successor : Option Key} (ht : target ∈ keys)
    {after : Slots keys.length} :
    performSetAuthority (setAuthority target authority kind successor) (s.slots keys) signers kind
        successor = .ok after ↔
      ∃ data, HandedOn (s.read target).data kind successor authority signers data ∧
        after = (s.putData target data).slots keys := by
  obtain ⟨p, rfl⟩ := exists_get_of_mem ht
  have hp := (Store.positionAt_slots_iff distinct 0 (s := s) (i := setAuthority
    (keys.get p) authority kind successor) rfl).2 (Eq.refl (keys.get p))
  have ha : (setAuthority (keys.get p) authority kind successor).keyAt 1 = .ok authority := rfl
  simp only [performSetAuthority, hp, ha, bind_eq_ok_iff, Except.ok.injEq, exists_eq_left',
    Store.get_slots, HandedOn]
  split
  · simp only [bind_eq_ok_iff, pure_eq_ok_iff, Store.putData_slots distinct]
    refine ⟨?_, ?_⟩
    · rintro ⟨m, hm, m', hm', rfl⟩
      exact ⟨_, ⟨m, m', hm, hm', rfl⟩, rfl⟩
    · rintro ⟨_, ⟨m, m', hm, hm', rfl⟩, rfl⟩
      exact ⟨m, hm, m', hm', rfl⟩
  · simp only [bind_eq_ok_iff, pure_eq_ok_iff, Store.putData_slots distinct]
    refine ⟨?_, ?_⟩
    · rintro ⟨h, hh, h', hh', rfl⟩
      exact ⟨_, ⟨h, h', hh, hh', rfl⟩, rfl⟩
    · rintro ⟨_, ⟨h, h', hh, hh', rfl⟩, rfl⟩
      exact ⟨h, hh, h', hh', rfl⟩

/-! ## commands as steps -/

/-- an authority moves tokens from one holding to another -/
def Transfers (s : Store) (source destination authority : Key) (amount : Amount) (s' : Store) :
    Prop :=
  ∃ giver taker, MayTransfer s source destination authority [authority] amount giver taker ∧
    s' = transferred s source destination amount giver taker

/-- an authority closes a holding -/
def Closes (s : Store) (key destination authority : Key) (s' : Store) : Prop :=
  ∃ held, MayClose s key destination authority [authority] held ∧ s' = closedAt s key destination

/-- an authority makes tokens -/
def Mints (s : Store) (mint destination authority : Key) (amount : Amount) (s' : Store) : Prop :=
  ∃ m taker, MayMint s mint destination authority [authority] amount m taker ∧
    s' = (s.putData mint { m with supply := m.supply + amount }.pack).putData destination
      { taker with amount := taker.amount + amount }.pack

/-- an authority burns tokens -/
def Burns (s : Store) (source mint authority : Key) (amount : Amount) (s' : Store) : Prop :=
  ∃ giver m, MayBurn s source mint authority [authority] amount giver m ∧
    s' = (s.putData source { giver with amount := giver.amount - amount }.pack).putData mint
      { m with supply := m.supply - amount }.pack

/-- one of the authorities over a mint or a holding is handed on -/
def HandsOver (s : Store) (target authority : Key) (kind : AuthorityKind) (successor : Option Key)
    (s' : Store) : Prop :=
  ∃ data, HandedOn (s.read target).data kind successor authority [authority] data ∧
    s' = s.putData target data

/-- a holding is made at a vacant account and paid for -/
def Makes (s : Store) (payer holding mint owner : Key) (s' : Store) : Prop :=
  (s.read holding).isVacant = true ∧ ∃ rent, s' = opened s payer holding mint owner rent

end Token

end AccountLedger
