import AccountLedger.Greeter
import AccountLedger.Proofs.Token.Supply
/-!
# What the programs do to a store

The greeter, the escrow and the swap program change a store in few ways: by the commands of the token
programs, by making a record, and by counting a greeting.  Any of these is a move, and what all moves
preserve, a run of the programs preserves.

A record is neither a holding nor a mint.  But an account of the greeter may be any account whose data
begins as a greeting, so it may be a holding as well until it is greeted through.

* `Move`, `Moves.keeps`: the moves, and the induction over them;
* `Move.lot`: what becomes of one account;
* `Move.le`, `Move.even`: what is in circulation does not outgrow what was made, and changes exactly
  as it does if no account of the greeter is a holding.
-/

namespace AccountLedger

open Token (Fate Holding Idle Mint Stands Steady circulating supply)

/-! ## greetings -/

/-- the byte of the state, behind both keys, the amount and the delegate -/
theorem Token.Holding.state_pack (h : Holding) : h.pack[108]? = some h.state.code := by
  have hcut : ∃ front rest : Bytes, front.length = 108 ∧ h.pack = front ++ h.state.code :: rest := by
    refine ⟨h.mint.bytes ++ (h.owner.bytes ++ (Codec.amount.write h.amount ++
      (Clearable.codec .key).write h.delegate)), (Clearable.codec .amount).write h.native ++
        (Codec.amount.write h.delegatedAmount ++ (Clearable.codec .key).write h.closeAuthority),
      ?_, ?_⟩
    · simp [Clearable.codec, Clearable.mark, Codec.iso, Codec.refine, Codec.pair, Codec.key,
        Codec.amount, Codec.count, Codec.fixed, Key.length_bytes]
    · simp only [List.append_assoc]
      rfl
  obtain ⟨front, rest, hfront, hpack⟩ := hcut
  rw [hpack, List.getElem?_append_right (Nat.le_of_eq hfront), hfront]
  rfl

namespace Greeter

variable {data : Bytes} {s : Store}

/-- the data of an account of some length that holds a greeting -/
def Greeting.image (g : Greeting) (length : Nat) : Bytes :=
  (Record.tag Greeting).image (Record.codec.write g) length

theorem Greeting.length_write (g : Greeting) : (Record.codec.write g).length = 40 := by
  simp [Record.codec, Codec.iso, Codec.pair, Codec.key, Codec.amount, Codec.fixed, Key.length_bytes]

/-- Behind a greeting the data is zero, also where a holding would have its state. -/
theorem Greeting.not_holding (g : Greeting) (length : Nat) (held : Holding) :
    Holding.unpack (g.image length) ≠ .ok held := by
  intro h
  obtain ⟨hpack, hopen⟩ := Holding.unpack_eq_ok_iff.1 h
  have hlength : (g.image length).length = 165 := (congrArg List.length hpack).trans held.length_pack
  have hfront : ((Record.tag Greeting).header ++ Record.codec.write g).length = 48 := by
    rw [List.length_append, Tag.length_header, g.length_write]
  have hzero : (g.image length)[108]? = some 0 := by
    rw [image, Tag.image, List.length_append, hfront, List.length_replicate] at hlength
    rw [image, Tag.image, List.getElem?_append_right (by omega), hfront,
      List.getElem?_replicate_of_lt (by omega)]
  have hstate : held.state.code = 0 := by
    rw [hpack, held.state_pack] at hzero
    exact Option.some.inj hzero
  cases hcase : held.state with
  | uninitialized => exact hopen hcase
  | initialized => rw [hcase] at hstate; cases hstate
  | frozen => rw [hcase] at hstate; cases hstate

/-- The header of a greeting is no mark of an optional field, which a mint begins with. -/
theorem not_mint_of_fits (fits : (Record.tag Greeting).fits data = true) (m : Mint) :
    Mint.unpack data ≠ .ok m := by
  intro h
  obtain ⟨hpack, _⟩ := Mint.unpack_eq_ok_iff.1 h
  have hmark : data.take 4 = Token.Clearable.mark.write m.authority.present := by
    have hfront : ∃ rest, m.pack = Token.Clearable.mark.write m.authority.present ++ rest :=
      ⟨_, List.append_assoc _ _ _⟩
    obtain ⟨rest, hfront⟩ := hfront
    rw [hpack, hfront]
    refine List.take_left' ?_
    simp [Token.Clearable.mark, Codec.refine, Codec.count, Codec.iso, Codec.fixed]
  have hheader : (Record.tag Greeting).header.take 4 = data.take 4 := by
    rw [← beq_iff_eq.1 fits, List.take_take]
    rfl
  have hne : ∀ mark, (Record.tag Greeting).header.take 4 ≠ Token.Clearable.mark.write mark := by
    decide +kernel
  exact hne _ (hheader.trans hmark)

/-- no account of the greeter is a holding -/
def Apart (s : Store) : Prop :=
  ∀ k, (s.read k).owner = key → ∀ held, Holding.unpack (s.read k).data ≠ .ok held

end Greeter

/-! ## moves -/

/-- One step of the programs, where whoever pays, burns or closes is one of those for whom `gives`
holds. -/
inductive Move (gives : Key → Prop) (s s' : Store) : Prop
  | same (h : ∀ k, s'.read k = s.read k)
  | transfers {source destination c : Key} {amount : Amount} (may : gives c)
    (h : Token.Transfers s source destination c amount s')
  | closes {holding destination c : Key} (may : gives c) (h : Token.Closes s holding destination c s')
  | mints {mint destination c : Key} {amount : Amount}
    (h : Token.Mints s mint destination c amount s')
  | burns {source mint c : Key} {amount : Amount} (may : gives c)
    (h : Token.Burns s source mint c amount s')
  | hands {target c : Key} {successor : Option Key}
    (h : Token.HandsOver s target c .mintTokens successor s')
  | makes {payer holding mint owner : Key} (h : Token.Makes s payer holding mint owner s')
  | sets {payer holding wallet mint : Key}
    (h : Token.Associated.Opened s payer holding wallet mint s')
  | records {payer record owner : Key} {rent : Amount} {space : Nat} {data : Bytes}
    (vacant : (s.read record).isVacant = true) (holding : data.length ≠ Holding.size)
    (mint : data.length ≠ Mint.size)
    (h : s' = (s.made payer record rent space owner).putData record data)
  | greets {k : Key} {g : Greeter.Greeting} (owner : (s.read k).owner = Greeter.key)
    (fits : (Record.tag Greeter.Greeting).fits (s.read k).data = true)
    (h : s' = s.putData k (g.image (s.read k).data.length))

/-- moves one after the other -/
inductive Moves (gives : Key → Prop) (s : Store) : Store → Prop
  | none : Moves gives s s
  | more {mid s' : Store} (before : Moves gives s mid) (move : Move gives mid s') : Moves gives s s'

variable {gives gives' : Key → Prop} {s s' s'' : Store} {a a' : Account}

theorem Move.mono (move : Move gives s s') (h : ∀ k, gives k → gives' k) : Move gives' s s' := by
  cases move with
  | same h' => exact .same h'
  | transfers may h' => exact .transfers (h _ may) h'
  | closes may h' => exact .closes (h _ may) h'
  | mints h' => exact .mints h'
  | burns may h' => exact .burns (h _ may) h'
  | hands h' => exact .hands h'
  | makes h' => exact .makes h'
  | sets h' => exact .sets h'
  | records vacant holding mint h' => exact .records vacant holding mint h'
  | greets owner fits h' => exact .greets owner fits h'

/-- The making of a record, in an account whose size is neither that of a holding nor that of a
mint. -/
theorem Move.of_record {payer target owner : Key} {rent : Amount} {space : Nat} {α : Type}
    [Record α] (r : α) (vacant : (s.read target).isVacant = true)
    (room : 8 + (Record.codec.write r).length ≤ space)
    (size : space ≠ Holding.size ∧ space ≠ Mint.size) :
    Move gives s ((s.made payer target rent space owner).putData target
      ((Record.tag α).image (Record.codec.write r) space)) := by
  have hlength : ((Record.tag α).image (Record.codec.write r) space).length = space :=
    Tag.length_image room
  refine .records vacant ?_ ?_ rfl
  · rw [hlength]
    exact size.1
  · rw [hlength]
    exact size.2

namespace Moves

theorem one (move : Move gives s s') : Moves gives s s' := .more .none move

theorem trans (h : Moves gives s s') (h' : Moves gives s' s'') : Moves gives s s'' := by
  induction h' with
  | none => exact h
  | more _ move ih => exact ih.more move

theorem mono (moves : Moves gives s s') (h : ∀ k, gives k → gives' k) : Moves gives' s s' := by
  induction moves with
  | none => exact .none
  | more _ move ih => exact ih.more (move.mono h)

/-- What every move preserves, moves preserve. -/
theorem keeps {P : Store → Prop} (step : ∀ s s', Move gives s s' → P s → P s')
    (moves : Moves gives s s') (start : P s) : P s' := by
  induction moves with
  | none => exact start
  | more _ move ih => exact step _ _ move ih

end Moves

/-! ## one account -/

/-- what can have become of an account in a move -/
inductive Lot (gives : Key → Prop) (a a' : Account) : Prop
  | fated (fate : Fate gives gives a a')
  | recorded (vacant : a.isVacant = true) (holding : a'.data.length ≠ Holding.size)
  | greeted (g : Greeter.Greeting) (owner : a.owner = Greeter.key)
    (data : a'.data = g.image a.data.length)

theorem Move.lot (move : Move gives s s') (k : Key) : Lot gives (s.read k) (s'.read k) := by
  have named : ∀ {place c : Key}, gives c → ∀ o, k = place ∧ o = c → gives o :=
    fun may _ ho => ho.2 ▸ may
  cases move with
  | same h => exact .fated (.kept (congrArg _ (h k)) (congrArg _ (h k)))
  | transfers may h => exact .fated ((h.fate k).mono (named may) nofun)
  | closes may h => exact .fated ((h.fate k).mono nofun (named may))
  | mints h => exact .fated ((h.fate k).mono nofun nofun)
  | burns may h => exact .fated ((h.fate k).mono (named may) nofun)
  | hands h => exact .fated ((h.fate k).mono nofun nofun)
  | makes h => exact .fated ((h.fate k).mono nofun nofun)
  | sets h => exact .fated ((h.fate k).mono nofun nofun)
  | @records payer record owner rent space data vacant holding mint h =>
    rw [h, Store.read_filled]
    by_cases hk : record = k
    · rw [if_pos hk]
      exact .recorded (hk ▸ vacant) holding
    · rw [if_neg hk]
      exact .fated (.paid s payer _ k)
  | @greets k' g owner fits h =>
    rw [h, Store.read_putData]
    by_cases hk : k' = k
    · subst hk
      rw [if_pos rfl]
      exact .greeted g owner rfl
    · rw [if_neg hk]
      exact .fated (.kept rfl rfl)

namespace Lot

/-- A holding of another owner than the greeter stays, and loses nothing, unless its owner gives. -/
theorem stands {k : Key} {held : Holding} (lot : Lot gives (s.read k) (s'.read k))
    (h : Stands s k held) (owner : (s.read k).owner ≠ Greeter.key) (shut : ¬ gives held.closer)
    (spent : ¬ gives held.owner) : Stands s' k held ∧ (s'.read k).owner = (s.read k).owner ∧
      Token.tokens s k ≤ Token.tokens s' k := by
  cases lot with
  | fated fate =>
    obtain ⟨stands, le⟩ := fate.stands h shut
    exact ⟨stands, fate.owner_of_stands h shut, le spent⟩
  | recorded vacant =>
    obtain ⟨_, here⟩ := h
    exact absurd here (Token.not_holding_of_vacant vacant _)
  | greeted _ here => exact absurd here owner

/-- What is neither a mint nor a holding stays as it is, if it does not belong to the greeter. -/
theorem same (lot : Lot gives a a') (occupied : a.isVacant = false)
    (noHolding : ∀ held, Holding.unpack a.data ≠ .ok held) (noMint : ∀ m, Mint.unpack a.data ≠ .ok m)
    (owner : a.owner ≠ Greeter.key) : a'.data = a.data ∧ a'.owner = a.owner := by
  cases lot with
  | fated fate => exact fate.same occupied noHolding noMint
  | recorded vacant =>
    rw [occupied] at vacant
    cases vacant
  | greeted _ here => exact absurd here owner

/-- No account of the greeter becomes a holding. -/
theorem apart (lot : Lot gives a a')
    (apart : a.owner = Greeter.key → ∀ held, Holding.unpack a.data ≠ .ok held)
    (owner : a'.owner = Greeter.key) (held : Holding) : Holding.unpack a'.data ≠ .ok held := by
  cases lot with
  | fated fate =>
    cases fate with
    | kept data owner' => exact data ▸ apart (owner'.symm.trans owner) held
    | repacked here _ owner' => exact absurd here (apart (owner'.symm.trans owner) _)
    | remade here data initialized =>
      refine Token.not_holding_of_mint (Mint.unpack_eq_ok_iff.2 ⟨data, ?_⟩) held
      exact initialized.trans (Mint.unpack_eq_ok_iff.1 here).2
    | shut _ _ _ _ owner' => exact absurd (owner'.symm.trans owner) (by decide)
    | opened _ _ owner' => exact absurd (owner'.symm.trans owner) (by decide)
  | recorded _ holding =>
    intro h
    exact holding (by rw [(Holding.unpack_eq_ok_iff.1 h).1, Holding.length_pack])
  | greeted g _ data => exact data ▸ g.not_holding _ held

end Lot

/-! ## the tokens -/

theorem idle_greeted (g : Greeter.Greeting) (length : Nat) (data : a.data = g.image length) :
    Idle a where
  holds _ := Token.holds_eq_zero (data ▸ g.not_holding length)
  issued := Token.issued_eq_zero (data ▸ Greeter.not_mint_of_fits (Tag.fits_image _ _ _))

/-- A greeting that is counted gives and issues nothing afterwards, and issued nothing before. -/
theorem greeted_le {k : Key} (g : Greeter.Greeting) (length : Nat)
    (fits : (Record.tag Greeter.Greeting).fits (s.read k).data = true) (mint : Key) :
    circulating (s.putData k (g.image length)) mint ≤ circulating s mint ∧
      supply (s.putData k (g.image length)) mint = supply s mint := by
  have idle : Idle { s.read k with data := g.image length } := idle_greeted g length rfl
  refine ⟨?_, ?_⟩
  · have hsum := Token.circulating_putData s k (g.image length) mint
    rw [idle.holds, UInt64.toNat_zero] at hsum
    omega
  · rw [Token.supply_putData, idle.issued]
    split
    · rename_i h
      rw [supply, ← h, Token.issued_eq_zero (Greeter.not_mint_of_fits fits)]
    · rfl

theorem greeted_steady {k : Key} (g : Greeter.Greeting) (length : Nat)
    (fits : (Record.tag Greeter.Greeting).fits (s.read k).data = true)
    (apart : ∀ held, Holding.unpack (s.read k).data ≠ .ok held) :
    Steady s (s.putData k (g.image length)) := by
  refine .insert ?_
  rw [show ({ s.read k with data := g.image length } : Account).key = k from s.key_read k]
  refine (idle_greeted g length rfl).alike ⟨fun _ => ?_, ?_⟩
  · exact Token.holds_eq_zero apart
  · exact Token.issued_eq_zero (Greeter.not_mint_of_fits fits)

namespace Move

/-- Only the counting of a greeting can change what is in circulation on its own. -/
theorem even_or_greeted (move : Move gives s s') :
    Token.Even s s' ∨ ∃ (k : Key) (g : Greeter.Greeting), (s.read k).owner = Greeter.key ∧
      (Record.tag Greeter.Greeting).fits (s.read k).data = true ∧
        s' = s.putData k (g.image (s.read k).data.length) := by
  cases move with
  | same h => exact .inl (Steady.of_same h).even
  | transfers _ h => exact .inl h.steady.even
  | closes _ h => exact .inl h.steady.even
  | mints h =>
    refine .inl fun mint => ?_
    obtain ⟨hcirculating, hsupply⟩ := h.grows mint
    omega
  | burns _ h =>
    refine .inl fun mint => ?_
    obtain ⟨hcirculating, hsupply⟩ := h.shrinks mint
    omega
  | hands h => exact .inl h.steady.even
  | makes h => exact .inl h.steady.even
  | sets h => exact .inl h.steady.even
  | records vacant holding mint h =>
    rw [h]
    exact .inl (Token.steady_filled vacant fun b hb => .of_length (hb ▸ holding) (hb ▸ mint)).even
  | @greets k g owner fits h => exact .inr ⟨k, g, owner, fits, h⟩

/-- What is in circulation grows by no more than what was made. -/
theorem le (move : Move gives s s') (mint : Key) :
    circulating s' mint + supply s mint ≤ circulating s mint + supply s' mint := by
  rcases move.even_or_greeted with even | ⟨k, g, _, fits, rfl⟩
  · exact Nat.le_of_eq (even mint)
  · obtain ⟨hle, hsame⟩ := greeted_le g (s.read k).data.length fits mint
    rw [hsame]
    exact Nat.add_le_add_right hle _

/-- It grows by just as much, if no account of the greeter is a holding. -/
theorem even (move : Move gives s s') (apart : Greeter.Apart s) : Token.Even s s' := by
  rcases move.even_or_greeted with even | ⟨k, g, owner, fits, rfl⟩
  · exact even
  · exact (greeted_steady g _ fits (apart k owner)).even

theorem apart (move : Move gives s s') (h : Greeter.Apart s) : Greeter.Apart s' := fun k =>
  (move.lot k).apart (h k)

end Move

namespace Moves

theorem le (moves : Moves gives s s') (mint : Key) :
    circulating s' mint + supply s mint ≤ circulating s mint + supply s' mint := by
  induction moves with
  | none => exact Nat.le_refl _
  | more _ move ih =>
    have := move.le mint
    omega

theorem even (moves : Moves gives s s') (apart : Greeter.Apart s) :
    Token.Even s s' ∧ Greeter.Apart s' := by
  induction moves with
  | none => exact ⟨.refl s, apart⟩
  | more _ move ih => exact ⟨ih.1.trans (move.even ih.2), move.apart ih.2⟩

end Moves

end AccountLedger
