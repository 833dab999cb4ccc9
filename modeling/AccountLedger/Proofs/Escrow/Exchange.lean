import AccountLedger.Proofs.Escrow.Ending
import AccountLedger.Proofs.Token.Moved
import AccountLedger.Proofs.Wire
/-!
# What an exchange moves

An exchange that commits moves what the terms on record say and nothing else: the taker pays what was
asked, and has signed for it; the vault held what was offered, which the taker receives; and the vault
is gone, with its lamports, to the initializer.

* `Deal`: the accounts that an exchange names;
* `Fulfilled`: what the terms mean for these accounts, and for all others;
* `exchange_fulfils`: an exchange that commits fulfils the terms on record.
-/

namespace AccountLedger.Escrow

open Token (Holding Moved Stands Transfers tokens)

variable {l : Ledger} {i : Instruction} {terms : Terms} {s s' s'' : Store}

/-- the accounts that an exchange names -/
structure Deal where
  taker : Key
  /-- where the taker pays from -/
  payment : Key
  /-- where the taker receives what was offered -/
  receipt : Key
  initializer : Key
  /-- where the initializer is paid -/
  receive : Key
  record : Key
  vault : Key

namespace Deal

def names (d : Deal) : List (String × Key) :=
  [("taker", d.taker), ("taker_deposit", d.payment), ("taker_receive", d.receipt),
    ("initializer", d.initializer), ("initializer_receive", d.receive), ("escrow", d.record),
    ("vault", d.vault)]

/-- the accounts whose tokens an exchange moves -/
def holdings (d : Deal) : List Key := [d.payment, d.receipt, d.receive, d.vault]

end Deal

/-- What was agreed on has moved, in the name of the taker, and the vault is gone in favour of the
initializer.  All else is as it was: balances, owners and data, and the supply of every mint. -/
structure Fulfilled (i : Instruction) (d : Deal) (terms : Terms) (s s' : Store) : Prop where
  signed : i.Signed d.taker
  owned : ∃ held, Holding.unpack (s.read d.payment).data = .ok held ∧ held.owner = d.taker
  moved : Moved [(d.payment, terms.asked.toNat), (d.vault, terms.offered.toNat)]
    [(d.receive, terms.asked.toNat), (d.receipt, terms.offered.toNat)] s s'
  held : tokens s d.vault = terms.offered.toNat
  vacant : (s'.read d.vault).isVacant = true
  paid : (s'.lamports d.initializer).toNat =
    (s.lamports d.initializer).toNat + (s.lamports d.vault).toNat
  lamports : ∀ k, k ≠ d.vault → k ≠ d.initializer → s'.lamports k = s.lamports k
  owner : ∀ k, k ≠ d.vault → (s'.read k).owner = (s.read k).owner
  data : ∀ k, k ∉ d.holdings → (s'.read k).data = (s.read k).data
  stands : ∀ k, k ≠ d.vault → ∀ held, Stands s k held → Stands s' k held
  supply : ∀ mint, Token.supply s' mint = Token.supply s mint

theorem Fulfilled.congr {d : Deal} (same : ∀ k, s''.read k = s'.read k)
    (h : Fulfilled i d terms s s') : Fulfilled i d terms s s'' := by
  have lamports : ∀ k, s''.lamports k = s'.lamports k := fun k => congrArg Account.lamports (same k)
  refine ⟨h.signed, h.owned, h.moved.congr same, h.held, ?_, ?_, ?_, ?_, ?_, ?_, ?_⟩
  · rw [same]
    exact h.vacant
  · rw [lamports]
    exact h.paid
  · intro k
    rw [lamports]
    exact h.lamports k
  · intro k
    rw [same]
    exact h.owner k
  · intro k
    rw [same]
    exact h.data k
  · intro k hk held stands
    rw [Stands, same]
    exact h.stands k hk held stands
  · intro mint
    rw [Token.supply, same]
    exact h.supply mint

theorem Exchanged.fulfilled {d : Deal} (h : Exchanged i terms s s')
    (named : exchangeLayout.Gives i d.names) (distinct : d.holdings.Nodup)
    (apart : d.initializer ≠ d.vault) : Fulfilled i d terms s s' := by
  obtain @⟨record, taker, payment, receipt, c, paid, sent, _, names, signed, pays, sends, closes⟩ := h
  obtain ⟨taker', payment', receipt', initializer, receive, record', v⟩ := d
  simp only [Deal.names, Layout.gives_cons, Layout.gives_nil, and_true] at names named
  obtain ⟨htaker, hpayment, hreceipt, hinitializer, hreceive, -, hvault⟩ := names
  obtain ⟨htaker', hpayment', hreceipt', hinitializer', hreceive', -, hvault'⟩ := named
  -- the accounts of the steps are those of the deal
  cases htaker.symm.trans htaker'
  cases hpayment.symm.trans hpayment'
  cases hreceipt.symm.trans hreceipt'
  cases hinitializer.symm.trans hinitializer'
  cases hreceive.symm.trans hreceive'
  cases hvault.symm.trans hvault'
  have distinct : [payment, vault, terms.receive, receipt].Nodup := by
    simp only [Deal.holdings, List.nodup_cons, List.mem_cons, List.not_mem_nil] at distinct ⊢
    grind
  have hpv : payment ≠ vault := fun heq => by simp [heq] at distinct
  have hrv : receipt ≠ vault := fun heq => by simp [heq] at distinct
  have hcv : terms.receive ≠ vault := fun heq => by simp [heq] at distinct
  have owned : ∃ held, Holding.unpack (s.read payment).data = .ok held ∧ held.owner = taker := by
    obtain ⟨giver, _, may, _⟩ := pays
    exact ⟨giver, may.giver_at, may.owner⟩
  have posts := (pays.posts.trans sends.posts).trans closes.posts
  -- what the vault held is all that was sent on, since it is empty when it is closed
  have held : tokens s vault = terms.offered.toNat := by
    obtain ⟨covered, rest⟩ := sends.tokens_source hrv.symm
    rw [closes.tokens_eq, Token.tokens_congr (congrArg Account.data (pays.read_of_ne hpv hcv))] at rest
    rw [Token.tokens_congr (congrArg Account.data (pays.read_of_ne hpv hcv))] at covered
    omega
  have lamports : ∀ k, sent.lamports k = s.lamports k := fun k => by
    rw [Store.lamports, sends.read_eq k, pays.read_eq k, Store.lamports]
  refine ⟨signed, owned, posts.moved distinct, held, closes.vacant apart.symm, ?_, ?_, ?_, ?_, ?_, ?_⟩
  · rw [closes.lamports_destination apart.symm, lamports, lamports]
  · intro k hv hk
    rw [Store.lamports, closes.read_of_ne hv.symm hk.symm]
    exact lamports k
  · intro k hv
    rw [closes.read_eq hv.symm, sends.read_eq k, pays.read_eq k]
  · intro k hk
    simp only [Deal.holdings, List.mem_cons, List.not_mem_nil, or_false, not_or] at hk
    obtain ⟨hp, hr, hc, hv⟩ := hk
    rw [closes.read_eq (Ne.symm hv), sends.read_of_ne (Ne.symm hv) (Ne.symm hr),
      pays.read_of_ne (Ne.symm hp) (Ne.symm hc)]
  · intro k hv held stands
    have stands := ((pays.fate k).stands stands id).1
    have stands := ((sends.fate k).stands stands id).1
    exact ((closes.fate k).stands stands fun shut => hv shut.1).1
  · exact ((pays.steady.trans sends.steady).trans closes.steady).supply

/-! ## what commits -/

theorem route?_exchange : program.route? exchangeLayout.discriminator = some exchangeRoute :=
  distinct.route?_eq (r := exchangeRoute) (by simp [program])

/-- An exchange that commits moves what the terms on record say, if the accounts whose tokens it moves
are different and the initializer is not the vault. -/
theorem exchange_fulfils (l : Ledger) (s : Submission) (d : Deal)
    (installed : l.natives Token.program = some Token.native)
    (exchanging : s.instruction.data.take 8 = exchangeLayout.discriminator)
    (commits : program.committed? l s = some s.instruction)
    (named : exchangeLayout.Gives s.instruction d.names) (distinct : d.holdings.Nodup)
    (apart : d.initializer ≠ d.vault) :
    ∃ terms : Terms, Record.decode (l.store.read d.record).data = .ok terms ∧
      Fulfilled s.instruction d terms l.store (program.served l s).store := by
  obtain ⟨bump, f, first, last, commit⟩ :=
    Program.commit_of_committed? commits (exchanging ▸ route?_exchange)
  obtain ⟨terms, now, exchanged, drafts⟩ :=
    exchanged_of_returns commit.drafts commit.shown commit.frame installed commit.returns
  have recorded : Record.decode (l.store.read d.record).data = .ok terms := by
    obtain @⟨record, _, _, _, _, _, _, recorded, names, _⟩ := exchanged
    have hrecord := names ("escrow", record) (by simp)
    have hrecord' := named ("escrow", d.record) (by simp [Deal.names])
    cases hrecord.symm.trans hrecord'
    exact recorded
  exact ⟨terms, recorded, (exchanged.fulfilled named distinct apart).congr
    (commit.settled now drafts.mirrors)⟩

/-- three tokens of one mint for five of another -/
def bargain : Terms := ⟨.ofNat 1, .ofNat 22, .ofNat 23, 3, 5⟩

/-- a ledger on which they are offered, and a taker who has nine -/
def counter : Ledger :=
  let unset : Token.Clearable Key := ⟨false, .ofNat 0⟩
  let ofTokens (key : Key) (data : Bytes) : Account :=
    { key, lamports := 10000000, data, owner := Token.program }
  let holding (mint : Nat) (owner : Key) (amount : Amount) : Bytes :=
    (Holding.opened (.ofNat mint) owner amount []).pack
  [{ key := .ofNat 1, lamports := 1000000000 }, { key := .ofNat 2, lamports := 1000000000 },
    { key := .ofNat 31, lamports := 10000000, data := bargain.image, owner := key },
    ofTokens (.ofNat 12) (⟨unset, 3, 0, true, unset⟩ : Token.Mint).pack,
    ofTokens (.ofNat 13) (⟨unset, 9, 0, true, unset⟩ : Token.Mint).pack,
    ofTokens vault (holding 12 authority 3), ofTokens (.ofNat 22) (holding 12 (.ofNat 1) 0),
    ofTokens (.ofNat 23) (holding 13 (.ofNat 1) 0), ofTokens (.ofNat 24) (holding 13 (.ofNat 2) 9),
    ofTokens (.ofNat 25) (holding 12 (.ofNat 2) 0)].foldl Ledger.addAccount Ledger.start.withTokens

def taking : Deal := ⟨.ofNat 2, .ofNat 24, .ofNat 25, .ofNat 1, .ofNat 23, .ofNat 31, vault⟩

/-- the instruction with which the taker accepts -/
def accepting : Submission where
  instruction :=
    { program := key
      metas := [⟨.ofNat 2, true, false⟩, ⟨.ofNat 24, false, true⟩, ⟨.ofNat 25, false, true⟩,
        ⟨.ofNat 1, false, true⟩, ⟨.ofNat 22, false, true⟩, ⟨.ofNat 23, false, true⟩,
        ⟨.ofNat 31, false, true⟩, ⟨vault, false, true⟩, ⟨authority, false, false⟩,
        ⟨Token.program, false, false⟩]
      data := exchangeRoute.data (255 : UInt8) }
  height := 1
  callStack := []

theorem bargain_fulfilled :
    let next := program.served counter accepting
    program.committed? counter accepting = some accepting.instruction ∧
      tokens next.store (.ofNat 24) = 4 ∧ tokens next.store (.ofNat 23) = 5 ∧
      tokens next.store (.ofNat 25) = 3 ∧
      Fulfilled accepting.instruction taking bargain counter.store next.store := by
  have run : program.committed? counter accepting = some accepting.instruction ∧
      tokens (program.served counter accepting).store (.ofNat 24) = 4 ∧
      tokens (program.served counter accepting).store (.ofNat 23) = 5 ∧
      tokens (program.served counter accepting).store (.ofNat 25) = 3 ∧
      (counter.store.read (.ofNat 31)).data = bargain.image := by
    decide +kernel
  obtain ⟨commits, paying, paid, received, recorded⟩ := run
  have named : exchangeLayout.Gives accepting.instruction taking.names := by
    simp only [Deal.names, taking, Layout.gives_cons, Layout.gives_nil, and_true]
    exact ⟨rfl, rfl, rfl, rfl, rfl, rfl, rfl⟩
  obtain ⟨terms, recorded', fulfilled⟩ := exchange_fulfils counter accepting taking rfl
    (by decide +kernel) commits named (by decide +kernel) (by decide +kernel)
  have decoded : Record.decode (counter.store.read taking.record).data = .ok bargain := by
    rw [show taking.record = .ofNat 31 from rfl, recorded]
    exact Tag.decode_image _ _ _ _
  cases recorded'.symm.trans decoded
  exact ⟨commits, paying, paid, received, fulfilled⟩

end AccountLedger.Escrow
