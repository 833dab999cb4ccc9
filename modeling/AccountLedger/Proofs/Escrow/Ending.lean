import AccountLedger.Proofs.Escrow.Opening
import AccountLedger.Proofs.Moves
/-!
# What the end of an escrow does

Both ways to end an escrow empty the vault of the canonical bump and close it.  Which tokens lie
there is not asked: an end needs a record, and the vault, and nothing that ties one to the other.

* `Emptied`: the steps of an end, which come after the payment of the taker if there is one;
* `Exchanged`: those of an exchange, with the accounts that it names;
* `emptied_of_cancel`, `exchanged_of_returns`: business logic that returns has taken them;
* `Releases`: what that does to the vault and to the owners of accounts.
-/

namespace AccountLedger.Escrow

open Logic (Returns)
open Token (Holding MayTransfer)

variable {l : Ledger} {i : Instruction} {f : Frame} {first scene last : Scene Ledger} {u : Unit}
  {now : Store}

/-- The instruction with which the initializer takes the deposit back.  The authority of the vault
is writable where it is one of the parties, since no key may be named twice with different
writability. -/
def Parties.undoing (p : Parties) : Instruction where
  program := key
  metas := [⟨p.initializer, true, true⟩, ⟨p.deposit, false, true⟩, ⟨p.vault, false, true⟩,
    ⟨authority, false, [p.initializer, p.deposit, p.record].contains authority⟩,
    ⟨p.record, false, true⟩, ⟨Token.program, false, false⟩]
  data := cancelRoute.data (255 : UInt8)

/-- what the end of an escrow does to the vault, and to the owners of all other accounts -/
structure Releases (s s' : Store) : Prop where
  held : ∃ held, Holding.unpack (s.read vault).data = .ok held
  emptied : (s'.read vault).data = []
  disowned : (s'.read vault).owner = .system
  owner : ∀ k, k ≠ vault → (s'.read k).owner = (s.read k).owner

theorem returns_requireRecorded_iff {layout : Layout} (seated : scene.table.Seated layout i.metas)
    {name : String} {recorded : Key} :
    Returns Ledger.host f scene (requireRecorded name recorded) u last ↔
      last = scene ∧ layout.keyOf? i name = some recorded :=
  seated.returns_requireKey_iff

theorem returns_requireVault_iff {layout : Layout} (seated : scene.table.Seated layout i.metas)
    (frame : f.program = key) :
    Returns Ledger.host f scene requireVault u last ↔
      last = scene ∧ layout.keyOf? i "vault" = some vault := by
  simp only [requireVault, Logic.returns_bind_iff, Logic.returns_found_iff (frame ▸ find_vault),
    and_assoc, exists_eq_left, returns_requireRecorded_iff seated]

theorem released_of_returns {layout : Layout} (drafts : scene.Drafts l layout i now)
    (tokens : l.natives Token.program = some Token.native) {destination : String} {bump : UInt8}
    {amount : Amount} (h : Returns Ledger.host f scene (releaseVault destination bump amount) u last) :
    ∃ v receiver initializer c giver taker held, layout.keyOf? i "vault" = some v ∧
      layout.keyOf? i destination = some receiver ∧
      layout.keyOf? i "initializer" = some initializer ∧
      MayTransfer now v receiver c [c] amount giver taker ∧
      Token.MayClose (Token.transferred now v receiver amount giver taker) v initializer c [c] held ∧
      last.Drafts l layout i
        (Token.closedAt (Token.transferred now v receiver amount giver taker) v initializer) := by
  simp only [releaseVault, Logic.returns_bind_iff, Logic.returns_positionOf_iff,
    drafts.seated.positionOf_eq_ok_iff, and_assoc, exists_eq_left] at h
  obtain ⟨p, hp, q, hq, r, hr, a, ha, _, mid, hmove, hclose⟩ := h
  obtain ⟨v, receiver, c, hv, hreceiver, hc, _, _, ⟨giver, taker, may, rfl⟩, drafts⟩ :=
    drafts.transferred tokens hmove
  obtain ⟨v', initializer, c', hv', hinitializer, hc', _, _, ⟨held, close, rfl⟩, drafts⟩ :=
    drafts.closed tokens hclose
  cases hv.symm.trans hv'
  cases hc.symm.trans hc'
  exact ⟨v, receiver, initializer, c, giver, taker, held, (Layout.keyOf?_eq hp i).trans hv,
    (Layout.keyOf?_eq hq i).trans hreceiver, (Layout.keyOf?_eq hr i).trans hinitializer, may, close,
    drafts⟩

/-- the steps of an end: what lies in the vault is sent on, and the vault is closed -/
inductive Emptied (s s' : Store) : Prop
  | intro {receiver initializer c : Key} {amount : Amount} {sent : Store}
    (sends : Token.Transfers s vault receiver c amount sent)
    (closes : Token.Closes sent vault initializer c s')

theorem Emptied.moves {s s' : Store} (h : Emptied s s') : Moves (fun _ => True) s s' := by
  obtain ⟨sends, closes⟩ := h
  exact (Moves.one (.transfers trivial sends)).more (.closes trivial closes)

/-- Moving tokens changes no owner, and what is a holding afterwards was one before. -/
theorem holding_of_transferred {s : Store} {a b c : Key} {amount : Amount} {giver taker : Holding}
    (may : MayTransfer s a b c [c] amount giver taker) (k : Key) :
    ((Token.transferred s a b amount giver taker).read k).owner = (s.read k).owner ∧
      ((∃ held, Holding.unpack ((Token.transferred s a b amount giver taker).read k).data = .ok held) →
        ∃ held, Holding.unpack (s.read k).data = .ok held) := by
  rw [Token.read_transferred]
  by_cases hab : a = b
  · rw [if_pos hab]
    exact ⟨rfl, id⟩
  rw [if_neg hab]
  by_cases ha : a = k
  · rw [if_pos ha, ← ha]
    exact ⟨rfl, fun _ => ⟨giver, may.giver_at⟩⟩
  rw [if_neg ha]
  by_cases hb : b = k
  · rw [if_pos hb, ← hb]
    exact ⟨rfl, fun _ => ⟨taker, may.taker_at⟩⟩
  · rw [if_neg hb]
    exact ⟨rfl, id⟩

theorem Emptied.releases {s s' : Store} (h : Emptied s s') : Releases s s' := by
  obtain ⟨⟨giver, taker, may, rfl⟩, ⟨held, _, rfl⟩⟩ := h
  refine ⟨⟨giver, may.giver_at⟩, (Token.closed_closedAt _ _ _).1, (Token.closed_closedAt _ _ _).2, ?_⟩
  intro k hk
  rw [Token.read_closedAt (Ne.symm hk), ← (holding_of_transferred may k).1]
  split <;> rfl

/-- A payment before the vault is emptied. -/
theorem Releases.after {s s' : Store} {a b c : Key} {amount : Amount} {giver taker : Holding}
    (may : MayTransfer s a b c [c] amount giver taker)
    (h : Releases (Token.transferred s a b amount giver taker) s') : Releases s s' where
  held := (holding_of_transferred may vault).2 h.held
  emptied := h.emptied
  disowned := h.disowned
  owner k hk := (h.owner k hk).trans (holding_of_transferred may k).1

/-- The initializer gets the deposit back if the record, the parties and the vault are the right
ones, and the vault can be emptied. -/
theorem returns_cancel_iff {bump : UInt8} (seated : scene.table.Seated cancelLayout i.metas) {s : Store}
    (shown : scene.table.Shows s) (frame : f.program = key) :
    Returns Ledger.host f scene (cancel bump) u last ↔
      ∃ terms : Terms, (∃ record, cancelLayout.keyOf? i "escrow" = some record ∧
          cancelLayout.tag? "escrow" = some (Record.tag Terms) ∧
          Record.decode (s.read record).data = .ok terms) ∧
        cancelLayout.keyOf? i "initializer" = some terms.initializer ∧
        cancelLayout.keyOf? i "initializer_deposit" = some terms.deposit ∧
        cancelLayout.keyOf? i "vault" = some vault ∧
        Returns Ledger.host f scene (releaseVault "initializer_deposit" bump terms.offered) u last := by
  simp only [cancel, Logic.returns_bind_iff, seated.returns_record_iff shown,
    returns_requireRecorded_iff seated, returns_requireVault_iff seated frame, and_assoc,
    exists_eq_left, exists_unit]

theorem emptied_of_returns {layout : Layout} (drafts : scene.Drafts l layout i now)
    (tokens : l.natives Token.program = some Token.native) {destination : String} {bump : UInt8}
    {amount : Amount} (canonical : layout.keyOf? i "vault" = some vault)
    (h : Returns Ledger.host f scene (releaseVault destination bump amount) u last) :
    ∃ after, Emptied now after ∧ last.Drafts l layout i after := by
  obtain ⟨v, receiver, initializer, c, giver, taker, held, hv, _, _, may, close, drafts⟩ :=
    released_of_returns drafts tokens h
  cases canonical.symm.trans hv
  exact ⟨_, ⟨⟨giver, taker, may, rfl⟩, ⟨held, close, rfl⟩⟩, drafts⟩

theorem emptied_of_cancel {bump : UInt8} (drafts : first.Drafts l cancelLayout i l.store)
    (shown : first.table.Shows l.store) (frame : f.program = key)
    (tokens : l.natives Token.program = some Token.native)
    (h : Returns Ledger.host f first (cancel bump) u last) :
    ∃ now, Emptied l.store now ∧ last.Drafts l cancelLayout i now := by
  obtain ⟨_, _, _, _, hvault, h⟩ := (returns_cancel_iff drafts.seated shown frame).1 h
  exact emptied_of_returns drafts tokens hvault h

/-- the steps of an exchange: the taker pays what was asked, what was offered is sent on, and the
vault is closed -/
inductive Exchanged (i : Instruction) (terms : Terms) (s s' : Store) : Prop
  | intro {record taker payment receipt c : Key} {paid sent : Store}
    (recorded : Record.decode (s.read record).data = .ok terms)
    (names : exchangeLayout.Gives i [("taker", taker), ("taker_deposit", payment),
      ("taker_receive", receipt), ("initializer", terms.initializer),
      ("initializer_receive", terms.receive), ("escrow", record), ("vault", vault)])
    (signed : i.Signed taker)
    (pays : Token.Transfers s payment terms.receive taker terms.asked paid)
    (sends : Token.Transfers paid vault receipt c terms.offered sent)
    (closes : Token.Closes sent vault terms.initializer c s')

theorem exchanged_of_returns {bump : UInt8} (drafts : first.Drafts l exchangeLayout i l.store)
    (shown : first.table.Shows l.store) (frame : f.program = key)
    (tokens : l.natives Token.program = some Token.native)
    (h : Returns Ledger.host f first (exchange bump) u last) :
    ∃ terms now, Exchanged i terms l.store now ∧ last.Drafts l exchangeLayout i now := by
  simp only [exchange, Logic.returns_bind_iff, drafts.seated.returns_record_iff shown,
    returns_requireRecorded_iff drafts.seated, returns_requireVault_iff drafts.seated frame,
    Logic.returns_positionOf_iff, drafts.seated.positionOf_eq_ok_iff, and_assoc, exists_and_left,
    exists_eq_left] at h
  obtain ⟨terms, ⟨record, hrecord, _, recorded⟩, hinitializer, _, hreceive, hvault, _, _, _, _, payAt,
    hpayAt, receiveAt, hreceiveAt, takerAt, htakerAt, _, mid, hpay, h⟩ := h
  obtain ⟨payment, receive, taker, hpayment, hreceive', htaker, voices, paid, pays, drafts⟩ :=
    drafts.transferred tokens hpay
  obtain ⟨v, receipt, initializer, c, _, _, held, hv, hreceipt, hinitializer', may, close, drafts⟩ :=
    released_of_returns drafts tokens h
  -- the positions that are named twice hold the same keys
  cases hvault.symm.trans hv
  cases hinitializer.symm.trans hinitializer'
  cases hreceive.symm.trans ((Layout.keyOf?_eq hreceiveAt i).trans hreceive')
  have names : exchangeLayout.Gives i [("taker", taker), ("taker_deposit", payment),
      ("taker_receive", receipt), ("initializer", terms.initializer),
      ("initializer_receive", terms.receive), ("escrow", record), ("vault", vault)] := by
    simp only [Layout.gives_cons, Layout.gives_nil, and_true]
    exact ⟨(Layout.keyOf?_eq htakerAt i).trans htaker, (Layout.keyOf?_eq hpayAt i).trans hpayment,
      hreceipt, hinitializer, hreceive, hrecord, hvault⟩
  exact ⟨terms, _, ⟨recorded, names, Instruction.signed_of_voices voices, pays, ⟨_, _, may, rfl⟩,
    ⟨held, close, rfl⟩⟩, drafts⟩

theorem emptied_of_exchange {bump : UInt8} (drafts : first.Drafts l exchangeLayout i l.store)
    (shown : first.table.Shows l.store) (frame : f.program = key)
    (tokens : l.natives Token.program = some Token.native)
    (h : Returns Ledger.host f first (exchange bump) u last) :
    ∃ source destination taker amount paid now,
      Token.Transfers l.store source destination taker amount paid ∧ Emptied paid now ∧
        last.Drafts l exchangeLayout i now := by
  obtain ⟨_, now, ⟨_, _, _, pays, sends, closes⟩, drafts⟩ :=
    exchanged_of_returns drafts shown frame tokens h
  exact ⟨_, _, _, _, _, now, pays, ⟨sends, closes⟩, drafts⟩

end AccountLedger.Escrow
