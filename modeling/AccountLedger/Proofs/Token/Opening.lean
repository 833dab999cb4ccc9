import AccountLedger.Proofs.Founding
import AccountLedger.Token.Fixture
/-!
# A holding is opened in two calls

A program opens a holding by having the System Program make an account, and the token program open a
holding in it.  The second call finds what the first has left, and it may be refused for reasons that
the first never looks at.  A program that handles this error is left with an account that is paid for,
belongs to the token program and holds nothing.

* `Token.openHolding_invoked_iff`: when the token program opens a holding in a new account;
* `Token.Openable`, `invoked_founded_iff`: what it needs of the table from before the first call;
* `Token.Call.Opens`, `Token.Call.Halts`: how a program gets both calls, and how only the first one;
* `Token.Call.openHolding_ends`: there is no third way to change the table.
-/

namespace AccountLedger

open InnerCall (adopt invokeInstruction replyOf writableKeys)

namespace Token

variable {f : Frame} {t t' : Table} {l : Ledger} {payer holding mint wallet : Key}

theorem replyOf_openHolding_eq_done_iff {calls : List Request} {s : Store}
    {after : Slots (openHolding holding mint wallet).keys.length} :
    replyOf native calls (openHolding holding mint wallet) s = .done after ↔
      (∃ m, Mint.unpack (s.read mint).data = .ok m) ∧ (s.read holding).owner = program ∧
        (∀ h, Holding.unpack (s.read holding).data ≠ .ok h) ∧
        Holding.size ≤ (s.read holding).data.length ∧
        after = (s.putData holding ((Holding.opened mint wallet 0 (s.read holding).data).pack ++
          (s.read holding).data.drop Holding.size)).slots _ := by
  let i := openHolding holding mint wallet
  have hh : holding ∈ i.keys :=
    Instruction.mem_keys (m := ⟨holding, false, true⟩) (by simp [i, openHolding])
  have hm : mint ∈ i.keys :=
    Instruction.mem_keys (m := ⟨mint, false, false⟩) (by simp [i, openHolding])
  simp only [replyOf, native, read?_openHolding, perform]
  exact performOpen_eq_done_iff i.nodup_keys hh hm

/-- the data of an account that was made for a holding -/
def blank : Bytes := List.replicate Holding.size 0

theorem not_holding_blank (h : Holding) : Holding.unpack blank ≠ .ok h := by
  have hno : (Holding.unpack blank).isOk = false := by decide +kernel
  intro hh
  rw [hh] at hno
  cases hno

theorem not_mint_blank (m : Mint) : Mint.unpack blank ≠ .ok m := by
  intro hm
  have hlength := congrArg List.length (Mint.unpack_eq_ok_iff.1 hm).1
  rw [blank, List.length_replicate, Mint.length_pack] at hlength
  cases hlength

theorem mem_writableKeys_openHolding {key : Key} :
    key ∈ writableKeys (openHolding holding mint wallet) ↔ key = holding := by
  simp [writableKeys, openHolding]

/-- the data of a holding that was opened in an account made for it -/
def Holding.fresh (mint wallet : Key) : Holding := .opened mint wallet 0 blank

/-- The token program opens a holding in an account that was made for it, if the call passes all
checks and the mint is one. -/
theorem openHolding_invoked_iff (installed : l.native? program = some native)
    (owned : (t.accounts.read holding).owner = program)
    (unopened : (t.accounts.read holding).data = blank) :
    (invokeInstruction Ledger.host f (openHolding holding mint wallet) [] l t).1 = .ok t' ↔
      (Op.invokeInstruction (openHolding holding mint wallet) []).Passes f t ∧
        (∃ m, Mint.unpack (t.accounts.read mint).data = .ok m) ∧
        t' = { t with handles := t.handles.map fun h =>
          if h.key = holding then h.adopt ((t.accounts.putData holding (Holding.fresh mint wallet).pack).read h.key)
          else h } := by
  let i := openHolding holding mint wallet
  let s := t.accounts.putData holding (Holding.fresh mint wallet).pack
  have hdata : (Holding.opened mint wallet 0 (t.accounts.read holding).data).pack ++
      (t.accounts.read holding).data.drop Holding.size = (Holding.fresh mint wallet).pack := by
    rw [unopened, Holding.fresh, blank, List.drop_replicate, Nat.sub_self, List.replicate_zero,
      List.append_nil]
  have hreply : ∀ after, replyOf native l.calls i t.accounts = .done after ↔
      (∃ m, Mint.unpack (t.accounts.read mint).data = .ok m) ∧ after = s.slots _ := by
    intro after
    rw [replyOf_openHolding_eq_done_iff, hdata, unopened]
    refine and_congr_right fun _ => ⟨fun h => h.2.2.2, fun h => ⟨owned, not_holding_blank, ?_, h⟩⟩
    exact Nat.le_of_eq List.length_replicate.symm
  have hadopt : adopt (writableKeys i) (i.keys.map s.read) t = { t with
      handles := t.handles.map fun h => if h.key = holding then h.adopt (s.read h.key) else h } := by
    rw [t.adopt_returned i.nodup_keys i.mem_keys_of_writable]
    refine congrArg (Table.mk t.program) (List.map_congr_left fun h _ => ?_)
    simp only [i, mem_writableKeys_openHolding]
  rw [InnerCall.invokeInstruction_eq_ok_iff]
  refine and_congr_right fun _ => ⟨?_, ?_⟩
  · rintro ⟨program, loaded, hresult, _, _, rfl⟩
    cases installed.symm.trans loaded
    obtain ⟨hmint, hafter⟩ := (hreply _).1 (Reply.result_eq_ok_iff.1 hresult)
    refine ⟨hmint, ?_⟩
    rw [hafter, Store.toList_slots]
    exact hadopt
  · rintro ⟨hmint, rfl⟩
    have hdone := (hreply _).2 ⟨hmint, rfl⟩
    have hh : holding ∈ writableKeys i := mem_writableKeys_openHolding.2 rfl
    refine ⟨native, installed, by rw [hdone]; rfl, ?_, ?_, ?_⟩
    · rw [hdone]
      show _ = (s.slots i.keys).total
      rw [Store.total_slots]
      exact Amount.total_congr fun key _ => (Store.lamports_putData _ _ _ _).symm
    · rw [hdone]
      exact InnerCall.trespass?_eq_none (.putData _ hh _)
    · rw [hdone]
      exact hadopt.symm

/-! ## the second call after the first -/

/-- The token program may open a holding of the mint in an account that is made for it. -/
structure Openable (f : Frame) (t : Table) (holding mint : Key) : Prop where
  idle : program ≠ f.program ∧ program ∉ f.callStack
  present : ∃ h ∈ t.handles, h.key = program ∧ h.account.executable = true
  other : mint ≠ holding
  agree : ∀ h ∈ t.handles, h.key = mint → ∀ g ∈ t.handles, g.key = mint → g.account = h.account
  minted : ∃ h ∈ t.handles, h.key = mint ∧ ∃ m, Mint.unpack h.account.data = .ok m

variable {seeds : List SignerSeeds} {rent : Amount} {space : UInt64} {owner : Key} {data : Bytes}

theorem length_data_openHolding : (openHolding holding mint wallet).data.length = 33 := by
  simp [openHolding, Codec.iso, Codec.key, Codec.fixed, Key.length_bytes]

/-- The positions of an account that is not made agree after the call if they did before. -/
theorem agree_founded_iff
    (made : (Op.invokeInstruction (SystemProgram.createAccount payer holding rent space owner)
      seeds).Passes f t) (other : mint ≠ holding) :
    (∀ h ∈ (t.founded payer holding rent data program).handles, h.key = mint →
      ∀ g ∈ (t.founded payer holding rent data program).handles, g.key = mint →
        g.account = h.account) ↔
      ∀ h ∈ t.handles, h.key = mint → ∀ g ∈ t.handles, g.key = mint → g.account = h.account := by
  have hp : payer ∈ (SystemProgram.createAccount payer holding rent space owner).keys :=
    Instruction.mem_keys (m := ⟨payer, true, true⟩) (by simp [SystemProgram.createAccount])
  have hfounded : ∀ h : Handle, h.key = mint → (h.founded payer holding rent data program).account =
      if mint = payer then { h.account with lamports := h.account.lamports - rent }
      else h.account := by
    rintro h rfl
    exact Table.account_founded_other other
  simp only [Table.mem_founded, forall_exists_index, and_imp, forall_apply_eq_imp_iff₂,
    Table.key_founded]
  by_cases hmp : mint = payer
  · -- the payer's positions agree, since it is handed on in the first call
    have same : ∀ h ∈ t.handles, h.key = mint → h.account = t.accounts.read mint := by
      rintro h hh rfl
      exact made.shown hh (hmp ▸ hp)
    refine iff_of_true ?_ ?_
    · intro h hh hk g hg hgk
      rw [hfounded g hgk, hfounded h hk, same g hg hgk, same h hh hk]
    · intro h hh hk g hg hgk
      rw [same g hg hgk, same h hh hk]
  · refine forall₂_congr fun h hh => forall_congr' fun hk => forall₂_congr fun g hg =>
      forall_congr' fun hgk => ?_
    rw [hfounded g hgk, hfounded h hk, if_neg hmp, if_neg hmp]

theorem mem_metas_openHolding {m : Meta} : m ∈ (openHolding holding mint wallet).metas ↔
    m = ⟨holding, false, true⟩ ∨ m = ⟨mint, false, false⟩ := by
  simp [openHolding]

/-- All positions of the account that was made show it. -/
theorem shown_founded
    (made : (Op.invokeInstruction (SystemProgram.createAccount payer holding rent space owner)
      seeds).Passes f t) {g : Handle} (hg : g ∈ (t.founded payer holding rent data program).handles)
    (hk : g.key = holding) :
    g.account = { t.accounts.read holding with lamports := rent, data, owner := program } := by
  obtain ⟨h, hh, rfl⟩ := Table.mem_founded.1 hg
  rw [Table.key_founded] at hk
  have hi : h.key ∈ (SystemProgram.createAccount payer holding rent space owner).keys :=
    Instruction.mem_keys (m := ⟨h.key, true, true⟩) (by simp [SystemProgram.createAccount, hk])
  rw [Table.account_founded_target hk, made.shown hh hi, hk]

/-- What the first call needed, the second has as well, but for what is the business of the token
program and the mint. -/
theorem passes_openHolding_iff
    (made : (Op.invokeInstruction (SystemProgram.createAccount payer holding rent space owner)
      seeds).Passes f t)
    (there : ∃ h ∈ t.handles, h.key = mint) (other : mint ≠ holding) :
    (Op.invokeInstruction (openHolding holding mint wallet) []).Passes f
        (t.founded payer holding rent data program) ↔
      (program ≠ f.program ∧ program ∉ f.callStack) ∧
        (∃ h ∈ t.handles, h.key = program ∧ h.account.executable = true) ∧
        ∀ h ∈ t.handles, h.key = mint → ∀ g ∈ t.handles, g.key = mint → g.account = h.account := by
  rw [← agree_founded_iff made other, ← Table.present_founded_iff]
  refine ⟨fun passes => ?_, ?_⟩
  · obtain ⟨_, admits⟩ := passes.admits
    exact ⟨⟨admits.not_executing, admits.not_waiting⟩, admits.program,
      admits.agree ⟨mint, false, false⟩ (mem_metas_openHolding.2 (.inr rfl))⟩
  · rintro ⟨⟨not_executing, not_waiting⟩, present, agree⟩
    obtain ⟨_, first⟩ := made.admits
    have hdata : (openHolding holding mint wallet).data.length ≤ f.limits.innerData := by
      rw [length_data_openHolding]
      refine Nat.le_trans ?_ first.data_le
      rw [SystemProgram.length_data_createAccount]
      decide
    refine Op.Admits.passes ⟨not_executing, not_waiting, first.height_fits, first.height_le, hdata,
      first.metas_le, present, ?_, ?_⟩
    · intro m hm
      rw [Table.find?_founded]
      rcases mem_metas_openHolding.1 hm with rfl | rfl
      · -- the first position of the account is the one that the first call was handed
        obtain ⟨h, hf, hw, _⟩ := first.held ⟨holding, true, true⟩ (by simp [SystemProgram.createAccount])
        refine ⟨_, congrArg (Option.map _) hf, fun _ => ?_, fun h => absurd h Bool.false_ne_true⟩
        rw [(Table.executable_founded ..).2]
        exact hw rfl
      · obtain ⟨h, hf, _⟩ := Table.exists_find? there
        exact ⟨_, congrArg (Option.map _) hf, fun h => absurd h Bool.false_ne_true,
          fun h => absurd h Bool.false_ne_true⟩
    · intro m hm
      rcases mem_metas_openHolding.1 hm with rfl | rfl
      · intro h hh hk g hg hgk
        rw [shown_founded made hg hgk, shown_founded made hh hk]
      · exact agree

/-- What is taken over twice counts as it was the second time, and only balance, data and owner do. -/
theorem adopt_adopt (h : Handle) {a b c : Account} (lamports : b.lamports = c.lamports)
    (data : b.data = c.data) (owner : b.owner = c.owner) (same : b.owner = a.owner) :
    (h.adopt a).adopt b = h.adopt c := by
  simp [Handle.adopt, ← lamports, ← data, ← owner, same]

/-- Opening fills the account that was made. -/
theorem opened_founded {s : Store} (paid : (s.read holding).lamports = rent)
    (owned : (s.read holding).owner = program) (data : Bytes) :
    { t.founded payer holding rent blank program with
      handles := (t.founded payer holding rent blank program).handles.map fun h =>
        if h.key = holding then h.adopt ((s.putData holding data).read h.key) else h } =
      t.founded payer holding rent data program := by
  simp only [Table.founded, List.map_map]
  refine congrArg (Table.mk t.program) (List.map_congr_left fun h _ => ?_)
  simp only [Function.comp_apply, Table.key_founded]
  by_cases hk : h.key = holding
  · rw [if_pos hk, hk, Handle.founded, if_pos hk, Handle.founded, if_pos hk, Store.read_putData,
      if_pos rfl]
    exact adopt_adopt h paid rfl owned owned
  · rw [if_neg hk, Handle.founded, if_neg hk, Handle.founded, if_neg hk]

/-- After the first call, the second is carried out exactly if the token program may open a holding,
and then the account is made and opened. -/
theorem invoked_founded_iff (installed : l.native? program = some native)
    (made : (Op.invokeInstruction (SystemProgram.createAccount payer holding rent space owner)
      seeds).Passes f t)
    (there : ∃ h ∈ t.handles, h.key = mint) :
    (invokeInstruction Ledger.host f (openHolding holding mint wallet) [] l
        (t.founded payer holding rent blank program)).1 = .ok t' ↔
      Openable f t holding mint ∧
        t' = t.founded payer holding rent (Holding.fresh mint wallet).pack program := by
  have hthere : ∃ h ∈ t.handles, h.key = holding :=
    made.present (m := ⟨holding, true, true⟩) (by simp [SystemProgram.createAccount])
  obtain ⟨g, _, hgk, _, hg⟩ := t.read_founded payer holding rent blank program hthere
  rw [Table.account_founded_target hgk] at hg
  obtain ⟨h, hh, hk, _, hread⟩ := t.read_founded payer holding rent blank program there
  rw [openHolding_invoked_iff installed (congrArg Account.owner hg) (congrArg Account.data hg)]
  by_cases other : mint = holding
  · -- the account that is made is no mint
    subst other
    rw [hg]
    refine iff_of_false ?_ ?_
    · rintro ⟨_, ⟨m, hm⟩, _⟩
      exact not_mint_blank m hm
    · rintro ⟨openable, _⟩
      exact openable.other rfl
  · have hdata : ((t.founded payer holding rent blank program).accounts.read mint).data =
        h.account.data := by
      rw [hread, Table.account_founded_other (hk ▸ other)]
      split
      · rfl
      · rfl
    rw [passes_openHolding_iff made there other, hdata,
      opened_founded (congrArg Account.lamports hg) (congrArg Account.owner hg)]
    refine ⟨?_, ?_⟩
    · rintro ⟨⟨idle, present, agree⟩, minted, rfl⟩
      exact ⟨⟨idle, present, other, agree, h, hh, hk, minted⟩, rfl⟩
    · rintro ⟨openable, rfl⟩
      obtain ⟨h', hh', hk', minted⟩ := openable.minted
      refine ⟨⟨openable.idle, openable.present, openable.agree⟩, ?_, rfl⟩
      rw [openable.agree h' hh' hk' h hh hk]
      exact minted

end Token

/-! ## both calls -/

namespace Logic

variable {σ : Type} {host : Host σ} {f : Frame} {scene : Scene σ} {t : Table} {l : Ledger}

/-- A key is there or not, and looking for it changes nothing. -/
theorem run_keyAt (host : Host σ) (f : Frame) (position : Nat) (scene : Scene σ) :
    (∃ h, scene.table.handles[position]? = some h ∧
      (keyAt position).run host f scene = (.ok h.key, scene)) ∨
    scene.table.handles[position]? = none ∧
      ∃ e, (keyAt position).run host f scene = (.error (.refused e), scene) := by
  cases here : scene.table.handles[position]? with
  | some h => exact .inl ⟨h, rfl, returns_keyAt_iff.2 ⟨rfl, h, here, rfl⟩⟩
  | none =>
    refine .inr ⟨rfl, ?_⟩
    cases found : scene.table.handle position with
    | ok h => cases here.symm.trans (Table.handle_eq_ok_iff.1 found)
    | error e =>
      have hhandle : (handleAt position).run host f scene = (.error (.refused e), scene) := by
        rw [handleAt, run_bind, show (table).run host f scene = (.ok scene.table, scene) from rfl]
        show (ofExcept (scene.table.handle position)).run host f scene = _
        rw [found]
        rfl
      exact ⟨e, by rw [keyAt, run_bind, hhandle]⟩

/-- A call by key leaves the table if it is not carried out. -/
theorem run_invokeInstruction (f : Frame) (i : Instruction) (seeds : List SignerSeeds) (l : Ledger)
    (t : Table) :
    (∃ t', (InnerCall.invokeInstruction Ledger.host f i seeds l t).1 = .ok t' ∧
      (invokeInstruction i seeds).run Ledger.host f ⟨l, t⟩ =
        (.ok (), ⟨(InnerCall.invokeInstruction Ledger.host f i seeds l t).2, t'⟩)) ∨
    (∃ stop, (InnerCall.invokeInstruction Ledger.host f i seeds l t).1 = .error stop ∧
      (invokeInstruction i seeds).run Ledger.host f ⟨l, t⟩ =
        (.error stop, ⟨(InnerCall.invokeInstruction Ledger.host f i seeds l t).2, t⟩)) := by
  rw [invokeInstruction, run_perform]
  simp only [Op.run, Op.onBoth]
  cases hcall : InnerCall.invokeInstruction Ledger.host f i seeds l t with
  | mk result l' =>
    cases result with
    | ok t' => exact .inl ⟨t', rfl, rfl⟩
    | error stop => exact .inr ⟨stop, rfl, rfl⟩

end Logic

namespace Token.Call

variable {f : Frame} {l : Ledger} {t : Table} {payer holding mint : Nat} {wallet : Key}
  {seeds : List SignerSeeds} {funder target minted : Handle} {rent : Amount}

/-- what stands at the positions of a call that opens a holding -/
structure Roles (t : Table) (payer holding mint : Nat) (funder target minted : Handle) : Prop where
  funder_at : t.handles[payer]? = some funder
  target_at : t.handles[holding]? = some target
  minted_at : t.handles[mint]? = some minted

/-- the instruction that makes the account of a holding -/
def creation (funder target : Handle) (rent : Amount) : Instruction :=
  SystemProgram.createAccount funder.key target.key rent (.ofNat Holding.size) program

/-- The account is made and paid for, but the token program may not open a holding in it. -/
def Halts (f : Frame) (l : Ledger) (t : Table) (payer holding mint : Nat) (seeds : List SignerSeeds)
    (left : Table) : Prop :=
  ∃ funder target minted rent, Roles t payer holding mint funder target minted ∧
    Rent.minimum Holding.size = .ok rent ∧
    (invokeInstruction Ledger.host f (creation funder target rent) seeds l t).1 = .ok left ∧
    left = t.founded funder.key target.key rent blank program ∧
    ¬ Openable f t target.key minted.key

/-- A holding is opened in the account of one handle, with the rent that another one paid, and no
other account has changed. -/
structure Opens (t : Table) (holding : Nat) (wallet : Key) (funder target minted : Handle)
    (rent : Amount) (t' : Table) : Prop where
  rent_eq : Rent.minimum Holding.size = .ok rent
  vacant : target.account.isVacant = true
  funds : rent ≤ funder.account.lamports
  apart : funder.key ≠ target.key
  table : t' = t.founded funder.key target.key rent (Holding.fresh minted.key wallet).pack program
  held : ∃ h, t'.handles[holding]? = some h ∧ h.account.lamports = rent ∧
    holdingIn h = .ok (Holding.fresh minted.key wallet)

theorem creation_shown (roles : Roles t payer holding mint funder target minted)
    (passes : (Op.invokeInstruction (creation funder target rent) seeds).Passes f t) :
    funder.account = t.accounts.read funder.key ∧ target.account = t.accounts.read target.key := by
  refine ⟨passes.shown (List.mem_of_getElem? roles.funder_at) ?_,
    passes.shown (List.mem_of_getElem? roles.target_at) ?_⟩
  · exact Instruction.mem_keys (m := ⟨funder.key, true, true⟩)
      (by simp [creation, SystemProgram.createAccount])
  · exact Instruction.mem_keys (m := ⟨target.key, true, true⟩)
      (by simp [creation, SystemProgram.createAccount])

theorem getElem?_founded {position : Nat} {h : Handle} (here : t.handles[position]? = some h)
    (payer target : Key) (rent : Amount) (data : Bytes) (owner : Key) :
    (t.founded payer target rent data owner).handles[position]? =
      some (h.founded payer target rent data owner) := by
  rw [Table.founded, List.getElem?_map, here, Option.map_some]

/-- An account that is made was vacant. -/
theorem Halts.changed {left : Table} (halts : Halts f l t payer holding mint seeds left) :
    left ≠ t := by
  obtain ⟨funder, target, minted, rent, roles, hrent, hmade, rfl, _⟩ := halts
  obtain ⟨vacant, _⟩ := SystemProgram.founded_of_invoked (Rent.ne_zero (by decide) hrent) hmade
  have passes := (InnerCall.invokeInstruction_eq_ok_iff.1 hmade).1
  rw [← (creation_shown roles passes).2] at vacant
  intro same
  have here := getElem?_founded roles.target_at funder.key target.key rent blank program
  rw [same, roles.target_at] at here
  have hlamports := congrArg (fun h : Handle => h.account.lamports) (Option.some.inj here)
  simp only [Table.account_founded_target] at hlamports
  rw [(Account.isVacant_iff.1 vacant).1] at hlamports
  exact Rent.ne_zero (by decide) hrent hlamports.symm

theorem holdingIn_founded (mint wallet : Key) (payer : Key) (rent : Amount) (h : Handle) :
    holdingIn (h.founded payer h.key rent (Holding.fresh mint wallet).pack program) =
      .ok (Holding.fresh mint wallet) := by
  have hopen : (Holding.fresh mint wallet).state ≠ .uninitialized := by
    simp [Holding.fresh, Holding.opened]
  rw [holdingIn_eq_ok_iff, Table.account_founded_target rfl]
  exact ⟨rfl, unpack_pack _ hopen⟩

/-- The second call, once the account is made. -/
theorem run_second {l' : Ledger} {made : Table} (installed : l'.natives program = some native)
    (roles : Roles t payer holding mint funder target minted)
    (hrent : Rent.minimum Holding.size = .ok rent)
    (hmade : (invokeInstruction Ledger.host f (creation funder target rent) seeds l t).1 = .ok made) :
    let run := (Logic.invokeInstruction (Token.openHolding target.key minted.key wallet) []).run
      Ledger.host f ⟨l', made⟩
    (run.1 = .ok () → Opens t holding wallet funder target minted rent run.2.table) ∧
    (∀ stop, run.1 = .error stop → Halts f l t payer holding mint seeds run.2.table) := by
  dsimp only
  obtain ⟨vacant, funds, hne, hfounded⟩ :=
    SystemProgram.founded_of_invoked (Rent.ne_zero (by decide) hrent) hmade
  have passes := (InnerCall.invokeInstruction_eq_ok_iff.1 hmade).1
  obtain ⟨hfunder, htarget⟩ := creation_shown roles passes
  rw [← htarget] at vacant
  rw [← hfunder] at funds
  obtain rfl : made = t.founded funder.key target.key rent blank program := hfounded
  have installed' : l'.native? program = some native := by
    rw [Ledger.native?, if_neg (by decide), installed]
  have second : ∀ last, (invokeInstruction Ledger.host f
      (Token.openHolding target.key minted.key wallet) [] l'
        (t.founded funder.key target.key rent blank program)).1 = .ok last ↔
      Openable f t target.key minted.key ∧ last =
        t.founded funder.key target.key rent (Holding.fresh minted.key wallet).pack program :=
    fun _ => invoked_founded_iff installed' passes ⟨minted, List.mem_of_getElem? roles.minted_at, rfl⟩
  rcases Logic.run_invokeInstruction f (Token.openHolding target.key minted.key wallet) [] l'
    (t.founded funder.key target.key rent blank program) with
    ⟨last, hlast, hrun⟩ | ⟨stop, hstop, hrun⟩
  · rw [hrun]
    obtain ⟨_, rfl⟩ := (second _).1 hlast
    refine ⟨fun _ => ?_, fun stop h => ?_⟩
    · refine ⟨hrent, vacant, funds, hne, rfl, _, getElem?_founded roles.target_at .., ?_,
        holdingIn_founded ..⟩
      rw [Table.account_founded_target rfl]
    · cases h
  · rw [hrun]
    refine ⟨fun h => ?_, fun _ _ => ⟨funder, target, minted, rent, roles, hrent, hmade, rfl, ?_⟩⟩
    · cases h
    · intro openable
      rw [(second _).2 ⟨openable, rfl⟩] at hstop
      cases hstop

/-- The two calls, once the keys are known. -/
theorem run_calls (installed : l.natives program = some native)
    (roles : Roles t payer holding mint funder target minted)
    (hrent : Rent.minimum Holding.size = .ok rent) :
    let run := (do
      Logic.invokeInstruction (creation funder target rent) seeds
      Logic.invokeInstruction (Token.openHolding target.key minted.key wallet) [] :
        Logic Unit).run Ledger.host f ⟨l, t⟩
    (run.1 = .ok () → Opens t holding wallet funder target minted rent run.2.table) ∧
    (∀ stop, run.1 = .error stop → run.2.table = t ∨ Halts f l t payer holding mint seeds run.2.table) := by
  dsimp only
  rw [Logic.run_bind]
  rcases Logic.run_invokeInstruction f (creation funder target rent) seeds l t with
    ⟨made, hmade, hrun⟩ | ⟨stop, hstop, hrun⟩
  · rw [hrun]
    obtain ⟨opens, halts⟩ :=
      run_second ((congrFun (InnerCall.natives_invokeInstruction ..) _).trans installed) roles hrent hmade
    exact ⟨opens, fun stop h => .inr (halts stop h)⟩
  · rw [hrun]
    refine ⟨fun h => ?_, fun _ _ => .inl rfl⟩
    cases h

/-- Only if all three accounts are there, the calls are made. -/
theorem run_openHolding (f : Frame) (l : Ledger) (t : Table) (payer holding mint : Nat) (wallet : Key)
    (seeds : List SignerSeeds) (hrent : Rent.minimum Holding.size = .ok rent) :
    (∃ stop, (openHolding payer holding mint wallet seeds).run Ledger.host f ⟨l, t⟩ =
      (.error stop, ⟨l, t⟩)) ∨
    ∃ funder target minted, Roles t payer holding mint funder target minted ∧
      (openHolding payer holding mint wallet seeds).run Ledger.host f ⟨l, t⟩ = (do
        Logic.invokeInstruction (creation funder target rent) seeds
        Logic.invokeInstruction (Token.openHolding target.key minted.key wallet) [] :
          Logic Unit).run Ledger.host f ⟨l, t⟩ := by
  rw [openHolding, Logic.run_bind]
  rcases Logic.run_keyAt Ledger.host f payer ⟨l, t⟩ with ⟨funder, hf, hrun⟩ | ⟨_, e, hrun⟩
  · rw [hrun]
    dsimp only
    rw [Logic.run_bind]
    rcases Logic.run_keyAt Ledger.host f holding ⟨l, t⟩ with ⟨target, ht, hrun⟩ | ⟨_, e, hrun⟩
    · rw [hrun]
      dsimp only
      rw [Logic.run_bind]
      rcases Logic.run_keyAt Ledger.host f mint ⟨l, t⟩ with ⟨minted, hm, hrun⟩ | ⟨_, e, hrun⟩
      · have hbalance : (Logic.minimumBalance Holding.size).run Ledger.host f ⟨l, t⟩ =
            (.ok rent, ⟨l, t⟩) := Logic.returns_minimumBalance_iff.2 ⟨rfl, hrent⟩
        rw [hrun]
        dsimp only
        rw [Logic.run_bind, hbalance]
        exact .inr ⟨funder, target, minted, ⟨hf, ht, hm⟩, rfl⟩
      · rw [hrun]
        exact .inl ⟨_, rfl⟩
    · rw [hrun]
      exact .inl ⟨_, rfl⟩
  · rw [hrun]
    exact .inl ⟨_, rfl⟩

/-- Opening a holding takes two calls.  If both are carried out, the holding is there, paid for, and
nothing else has changed.  If it fails, nothing has changed at all, unless the first call was carried
out and the second could not be: then the account is left as the first call made it. -/
theorem openHolding_ends (installed : l.natives program = some native) (f : Frame) (t : Table)
    (payer holding mint : Nat) (wallet : Key) (seeds : List SignerSeeds) :
    let run := (openHolding payer holding mint wallet seeds).run Ledger.host f ⟨l, t⟩
    (run.1 = .ok () → ∃ funder target minted rent, Roles t payer holding mint funder target minted ∧
      Opens t holding wallet funder target minted rent run.2.table) ∧
    (∀ stop, run.1 = .error stop →
      (run.2.table ≠ t ↔ Halts f l t payer holding mint seeds run.2.table)) := by
  have hrent : Rent.minimum Holding.size = .ok _ := Rent.minimum_eq_ok (by decide)
  dsimp only
  rcases run_openHolding f l t payer holding mint wallet seeds hrent with
    ⟨stop, hrun⟩ | ⟨funder, target, minted, roles, hrun⟩
  · rw [hrun]
    refine ⟨fun h => ?_, fun _ _ => ⟨fun h => absurd rfl h, Halts.changed⟩⟩
    cases h
  · rw [hrun]
    obtain ⟨opens, left⟩ := run_calls installed roles hrent
    refine ⟨fun h => ⟨funder, target, minted, _, roles, opens h⟩, fun stop h => ?_⟩
    exact ⟨(left stop h).resolve_left, Halts.changed⟩

/-! ## a mint that is none -/

/-- a wallet that can pay, a key without an account, an account that is no mint, and both programs -/
def mintless : Table where
  program := .ofNat 9
  handles := [
    ⟨none, { key := .ofNat 1, lamports := 10000000 }, true, true, none, {}⟩,
    ⟨none, .vacant (.ofNat 2), true, true, none, {}⟩,
    ⟨none, .vacant (.ofNat 3), false, false, none, {}⟩,
    ⟨none, { key := .system, executable := true }, false, false, none, {}⟩,
    ⟨none, { key := program, executable := true }, false, false, none, {}⟩]

/-- how a program ends that opens a holding of it -/
def openMintless : Ending Unit × Scene Ledger :=
  (openHolding 0 1 2 (.ofNat 8) []).run Ledger.host ⟨{}, .ofNat 9, 1, []⟩
    ⟨Ledger.start.withTokens, mintless⟩

theorem openMintless_paid : openMintless.1.isOk = false ∧
    openMintless.2.table.handles.map (·.account.lamports) = [7960720, 2039280, 0, 0, 0] := by
  decide +kernel

theorem openMintless_refused :
    (∃ stop, openMintless.1 = .error stop) ∧ openMintless.2.table ≠ mintless := by
  obtain ⟨hrefused, hpaid⟩ := openMintless_paid
  refine ⟨?_, ?_⟩
  · cases h : openMintless.1 with
    | ok _ =>
      rw [h] at hrefused
      cases hrefused
    | error stop => exact ⟨stop, rfl⟩
  · intro same
    rw [same] at hpaid
    exact absurd hpaid (by decide +kernel)

/-- The call is refused, but the account of the holding is in the table. -/
theorem openMintless_torn :
    Ledger.start.withTokens.natives program = some native ∧
      Ledger.start.withTokens.natives Associated.program = some Associated.native ∧
      (∃ stop, openMintless.1 = .error stop) ∧ openMintless.2.table ≠ mintless :=
  ⟨rfl, rfl, openMintless_refused⟩

theorem openMintless_halts :
    Halts ⟨{}, .ofNat 9, 1, []⟩ Ledger.start.withTokens mintless 0 1 2 [] openMintless.2.table := by
  obtain ⟨⟨stop, hrefused⟩, changed⟩ := openMintless_refused
  have installed : Ledger.start.withTokens.natives program = some native := rfl
  exact ((openHolding_ends installed _ mintless 0 1 2 (.ofNat 8) []).2 stop hrefused).1 changed

end Token.Call

end AccountLedger
