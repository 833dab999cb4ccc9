import AccountLedger.Proofs.Carried
/-!
# Two ways to make an account

A table makes an account by itself, on its own handles, and the System Program makes one for an
instruction that names the same two accounts.  Neither knows of the other: the one checks marks of
its handles, the other gets what an inner call hands on and gives back.

* `SystemProgram.carries_createAccount`: what the System Program makes of the two accounts;
* `Table.MayCreate.called`: a table that may make an account may also have it made;
* `Table.create_as_called`: the accounts are then the same, and without seeds either way is open
  exactly if the other is.
-/

namespace AccountLedger

open InnerCall (Carries adopt invokeInstruction request refsOf writableKeys)

/-! ## the accounts of a table -/

/-- the accounts of the table, of each key the one at its first position -/
def Table.accounts (t : Table) : Store := t.handles.foldr (fun h s => s.insert h.account) .empty

theorem Table.read_accounts (t : Table) (key : Key) : t.accounts.read key = t.view key := by
  unfold Table.accounts Table.view
  induction t.handles with
  | nil => rfl
  | cons h rest ih =>
    rw [List.foldr_cons, Store.read_insert, List.find?_cons]
    by_cases hk : h.account.key = key
    · simp [hk]
    · simp [hk, ih]

theorem Table.asked_eq (f : Frame) (t : Table) (i : Instruction) :
    t.asked f i = ⟨i, i.keys.map t.accounts.read, i.signers, f.height + 1⟩ := by
  rw [Table.asked, funext t.read_accounts]

/-- the handle is at the position, and its key is at no other one -/
structure Table.Alone (t : Table) (position : Nat) (h : Handle) : Prop where
  here : t.handles[position]? = some h
  only : ∀ (other : Nat) (g : Handle), t.handles[other]? = some g → g.key = h.key → other = position

namespace Table.Alone

variable {t : Table} {position : Nat} {h : Handle}

/-- Where all keys are different, every handle stands alone. -/
theorem of_nodup (distinct : (t.handles.map (·.key)).Nodup) (here : t.handles[position]? = some h) :
    t.Alone position h :=
  ⟨here, fun _ _ there hk => position_eq_of_nodup distinct there here hk⟩

theorem eq_of_mem (alone : t.Alone position h) {g : Handle} (hg : g ∈ t.handles)
    (hk : g.key = h.key) : g = h := by
  obtain ⟨other, there⟩ := List.getElem?_of_mem hg
  rw [alone.only other g there hk, alone.here] at there
  exact (Option.some.inj there).symm

theorem read_accounts (alone : t.Alone position h) : t.accounts.read h.key = h.account := by
  rw [t.read_accounts, Table.view]
  cases hf : t.handles.find? (·.key = h.key) with
  | none =>
    have := List.find?_eq_none.1 hf h (List.mem_of_getElem? alone.here)
    simp at this
  | some g =>
    rw [alone.eq_of_mem (List.mem_of_find?_eq_some hf) (by simpa using List.find?_some hf)]
    rfl

/-- What a call hands on of an account, its only position holds. -/
theorem held (alone : t.Alone position h) {f : Frame} {i : Instruction} {refs : List Ref}
    {seeds : List SignerSeeds} {derived : List Key} (names : t.Names refs i.metas)
    (cleared : InnerCall.Cleared f t i.program refs seeds i.data derived)
    (hm : (⟨h.key, true, true⟩ : Meta) ∈ i.metas) :
    h.writable = true ∧ (h.signer = true ∨ h.key ∈ derived) := by
  obtain ⟨x, hx, hmeta⟩ := InnerCall.exists_referred names hm
  obtain ⟨hk, hs, hw⟩ := Meta.mk.inj hmeta
  rw [← alone.eq_of_mem (InnerCall.meta_of_referred names hx).1 hk.symm]
  exact ⟨(cleared.held x hx).1 hw.symm, (cleared.held x hx).2 hs.symm⟩

end Table.Alone

/-! ## what the System Program makes -/

namespace SystemProgram

variable {s : Store} {payer target owner : Key} {rent : Amount} {space : UInt64}

theorem length_data_createAccount :
    (createAccount payer target rent space owner).data.length = 52 := by
  simp [createAccount, Codec.iso, Codec.key, Codec.amount, Codec.count, Codec.fixed,
    Key.length_bytes]

theorem mem_writableKeys_createAccount {key : Key} :
    key ∈ writableKeys (createAccount payer target rent space owner) ↔
      key = payer ∨ key = target := by
  simp [writableKeys, createAccount]

theorem total_made {keys : List Key} (distinct : keys.Nodup) (hp : payer ∈ keys)
    (ht : target ∈ keys) (hne : payer ≠ target) (vacant : (s.read target).isVacant = true)
    (funds : rent ≤ (s.read payer).lamports) (space : Nat) :
    Amount.total (s.made payer target rent space owner).lamports keys =
      Amount.total s.lamports keys := by
  let paid := s.putLamports payer ((s.read payer).lamports - rent)
  have hmade : Amount.total (s.made payer target rent space owner).lamports keys =
      Amount.total (paid.putLamports target rent).lamports keys := by
    refine Amount.total_congr fun key _ => ?_
    rw [Store.lamports_putLamports, Store.lamports, Store.made, Store.read_insert, Store.key_read]
    split <;> rfl
  have hzero : paid.lamports target = 0 := by
    rw [Store.lamports_putLamports, if_neg hne]
    exact (Account.isVacant_iff.1 vacant).1
  have hsub := UInt64.toNat_sub_of_le _ _ funds
  have hle := UInt64.le_iff_toNat_le.1 funds
  have hpaid := Store.total_putLamports (s := s) distinct hp ((s.read payer).lamports - rent)
  have hrent := Store.total_putLamports (s := paid) distinct ht rent
  rw [hzero, UInt64.toNat_zero] at hrent
  rw [hmade]
  simp only [paid, Store.lamports] at hpaid hrent ⊢
  omega

/-- The System Program makes a vacant account that another one can pay for. -/
theorem carries_createAccount (hne : payer ≠ target) (vacant : (s.read target).isVacant = true)
    (funds : rent ≤ (s.read payer).lamports) (fits : space.toNat < allocationLimit) :
    Carries native (createAccount payer target rent space owner) s
      (s.made payer target rent space.toNat owner) := by
  let i := createAccount payer target rent space owner
  have hp : payer ∈ i.keys :=
    Instruction.mem_keys (m := ⟨payer, true, true⟩) (by simp [i, createAccount])
  have ht : target ∈ i.keys :=
    Instruction.mem_keys (m := ⟨target, true, true⟩) (by simp [i, createAccount])
  refine ⟨fun calls => ?_, ?_, (total_made i.nodup_keys hp ht hne vacant funds _).symm⟩
  · exact (replyOf_createAccount_eq_done_iff hne).2 ⟨vacant, funds, fits, rfl⟩
  · exact within_made (mem_writableKeys_createAccount.2 (.inl rfl))
      (mem_writableKeys_createAccount.2 (.inr rfl)) hne _

end SystemProgram

/-! ## the table's way and the call -/

namespace Table

variable {f : Frame} {t t' : Table} {payer target space : Nat} {owner : Key}
  {seeds : Option SignerSeeds} {rent : Amount} {bySeeds : Bool} {funder fresh : Handle}

/-- the positions of payer and new account, each the only one of its key -/
structure Apart (t : Table) (payer target : Nat) (funder fresh : Handle) : Prop where
  funder_alone : t.Alone payer funder
  fresh_alone : t.Alone target fresh
  ne : funder.key ≠ fresh.key

/-- the instruction that has the account of one handle made, paid for by that of another -/
def making (funder fresh : Handle) (rent : Amount) (space : Nat) (owner : Key) : Instruction :=
  SystemProgram.createAccount funder.key fresh.key rent (.ofNat space) owner

theorem toNat_space (fits : space < allocationLimit) : (UInt64.ofNat space).toNat = space :=
  UInt64.toNat_ofNat_of_lt' (Nat.lt_trans fits (by decide))

namespace Apart

theorem payer_ne (apart : t.Apart payer target funder fresh) : payer ≠ target := by
  rintro rfl
  have := apart.funder_alone.here.symm.trans apart.fresh_alone.here
  exact apart.ne (congrArg Handle.key (Option.some.inj this))

/-- A handle with the key of a meta of the instruction is one of the two. -/
theorem eq_of_meta (apart : t.Apart payer target funder fresh) {m : Meta}
    (hm : m ∈ (making funder fresh rent space owner).metas) {h : Handle} (hh : h ∈ t.handles)
    (hk : h.key = m.key) : h = funder ∨ h = fresh := by
  simp only [making, SystemProgram.createAccount, List.mem_cons, List.not_mem_nil, or_false] at hm
  rcases hm with rfl | rfl
  · exact .inl (apart.funder_alone.eq_of_mem hh hk)
  · exact .inr (apart.fresh_alone.eq_of_mem hh hk)

/-- The two accounts as a host is given them. -/
theorem read_accounts (apart : t.Apart payer target funder fresh) :
    t.accounts.read funder.key = funder.account ∧ t.accounts.read fresh.key = fresh.account :=
  ⟨apart.funder_alone.read_accounts, apart.fresh_alone.read_accounts⟩

end Apart

/-- What a table may make, it may also have made. -/
theorem MayCreate.called (may : t.MayCreate payer target seeds rent bySeeds funder fresh)
    (apart : t.Apart payer target funder fresh) (own : f.program = t.program)
    (room : f.Allows (making funder fresh rent space owner) seeds.toList)
    (present : ∃ h ∈ t.handles, h.key = .system ∧ h.account.executable = true) {refs : List Ref}
    (names : t.Names refs (making funder fresh rent space owner).metas) :
    ∃ r, request f t (making funder fresh rent space owner).program refs seeds.toList
      (making funder fresh rent space owner).data = .ok r := by
  have spoken : ∀ s ∈ seeds.toList, s.derive f.program = .ok fresh.key := by
    intro s hs
    rcases speaksFor_eq_ok_iff.1 may.spoken with ⟨rfl, _⟩ | ⟨s', rfl, hd, _⟩
    · cases hs
    · rw [List.mem_singleton.1 hs, own, hd]
  refine InnerCall.request_of_allows names ⟨room, present, ?_, ?_, ?_⟩ ?_
  · intro s hs
    exact ⟨⟨fresh.key, true, true⟩, by simp [making, SystemProgram.createAccount], rfl, spoken s hs⟩
  · intro m hm _ h hh hk
    rcases apart.eq_of_meta hm hh hk with rfl | rfl
    · exact may.funder_writable
    · exact may.fresh_writable
  · intro m hm h hh hk g hg hgk
    rcases apart.eq_of_meta hm hh hk with rfl | rfl
    · rw [apart.funder_alone.eq_of_mem hg (hgk.trans hk.symm)]
    · rw [apart.fresh_alone.eq_of_mem hg (hgk.trans hk.symm)]
  · intro x hx _
    obtain ⟨hh, hm⟩ := InnerCall.meta_of_referred names hx
    rcases apart.eq_of_meta hm hh rfl with h | h
    · exact .inl (h ▸ may.funder_signer)
    · rw [h]
      refine may.fresh_signer.imp id fun hby => ?_
      rcases speaksFor_eq_ok_iff.1 may.spoken with ⟨_, hno⟩ | ⟨s, rfl, _, _⟩
      · cases hby.symm.trans hno
      · exact ⟨s, List.mem_singleton_self s, spoken s (List.mem_singleton_self s)⟩

/-- Without seeds, what a table has made, it may also make. -/
theorem mayCreate_of_called (apart : t.Apart payer target funder fresh) {refs : List Ref}
    (names : t.Names refs (making funder fresh rent space owner).metas) {r : Request}
    (hr : request f t (making funder fresh rent space owner).program refs []
      (making funder fresh rent space owner).data = .ok r)
    (vacant : fresh.account.isVacant = true) (funds : rent ≤ funder.account.lamports) :
    t.MayCreate payer target none rent false funder fresh := by
  obtain ⟨⟨derived, cleared⟩, _⟩ := InnerCall.request_eq_ok_iff.1 hr
  obtain rfl : derived = [] := (Except.ok.inj cleared.derives).symm
  obtain ⟨funder_writable, funder_signs⟩ := apart.funder_alone.held names cleared
    (by simp [making, SystemProgram.createAccount])
  obtain ⟨fresh_writable, fresh_signs⟩ := apart.fresh_alone.held names cleared
    (by simp [making, SystemProgram.createAccount])
  exact {
    funder_at := apart.funder_alone.here
    fresh_at := apart.fresh_alone.here
    ne := apart.payer_ne
    funder_writable
    funder_signer := funder_signs.resolve_right List.not_mem_nil
    fresh_writable
    fresh_signer := .inl (fresh_signs.resolve_right List.not_mem_nil)
    spoken := speaksFor_eq_ok_iff.2 (.inl ⟨rfl, rfl⟩)
    vacant
    funds }

/-- The accounts after the call are those that the table makes by itself. -/
theorem accounts_adopted (apart : t.Apart payer target funder fresh) (fits : space < allocationLimit)
    (owner : Key) (rent : Amount) (bySeeds : Bool) :
    (adopt (writableKeys (making funder fresh rent space owner))
        ((making funder fresh rent space owner).keys.map
          (t.accounts.made funder.key fresh.key rent (UInt64.ofNat space).toNat owner).read)
        t).handles.map (·.account) =
      (t.created payer target rent funder
        ((funded bySeeds rent fresh).allocate space owner)).handles.map (·.account) := by
  let i := making funder fresh rent space owner
  let made := t.accounts.made funder.key fresh.key rent (UInt64.ofNat space).toNat owner
  have hwritable : ∀ key, key ∈ writableKeys i ↔ key = funder.key ∨ key = fresh.key := fun _ =>
    SystemProgram.mem_writableKeys_createAccount
  obtain ⟨hfunder, hfresh⟩ := apart.read_accounts
  rw [t.adopt_returned i.nodup_keys i.mem_keys_of_writable made, List.map_map]
  simp only [created, handles_put, List.map_set]
  apply List.ext_getElem?
  intro position
  rw [List.getElem?_map]
  by_cases ht : target = position
  · have here := apart.fresh_alone.here
    have hlt := (List.getElem?_eq_some_iff.1 here).1
    rw [← ht, here, List.getElem?_set_self (by simpa using hlt), Option.map_some,
      Function.comp_apply, if_pos ((hwritable _).2 (.inr rfl))]
    simp only [made, Handle.adopt, Store.read_made, if_pos, hfresh, toNat_space fits, Handle.allocate, funded,
      account_moveLamports]
  · rw [List.getElem?_set_ne ht]
    by_cases hp : payer = position
    · have here := apart.funder_alone.here
      have hlt := (List.getElem?_eq_some_iff.1 here).1
      rw [← hp, here, List.getElem?_set_self (by simpa using hlt), Option.map_some,
        Function.comp_apply, if_pos ((hwritable _).2 (.inl rfl))]
      simp only [made, Handle.adopt, Store.read_made, if_neg apart.ne.symm, if_pos, hfunder,
        account_moveLamports]
    · rw [List.getElem?_set_ne hp, List.getElem?_map]
      cases here : t.handles[position]? with
      | none => rfl
      | some h =>
        rw [Option.map_some, Option.map_some, Function.comp_apply, if_neg]
        rw [hwritable]
        rintro (hk | hk)
        · exact hp (apart.funder_alone.only position h here hk).symm
        · exact ht (apart.fresh_alone.only position h here hk).symm

theorem Apart.exists_refs (apart : t.Apart payer target funder fresh) (rent : Amount) (space : Nat)
    (owner : Key) : ∃ refs, refsOf t (making funder fresh rent space owner).metas = .ok refs := by
  refine InnerCall.exists_refsOf_iff.2 fun m hm => ?_
  simp only [making, SystemProgram.createAccount, List.mem_cons, List.not_mem_nil, or_false] at hm
  rcases hm with rfl | rfl
  · exact ⟨funder, List.mem_of_getElem? apart.funder_alone.here, rfl⟩
  · exact ⟨fresh, List.mem_of_getElem? apart.fresh_alone.here, rfl⟩

theorem called_of_create (apart : t.Apart payer target funder fresh) (own : f.program = t.program)
    (room : f.Allows (making funder fresh rent space owner) seeds.toList)
    (present : ∃ h ∈ t.handles, h.key = .system ∧ h.account.executable = true) {refs : List Ref}
    (names : t.Names refs (making funder fresh rent space owner).metas) (l : Ledger)
    (h : t.create payer target space owner seeds rent = (.ok (), t')) :
    ∃ t'', (InnerCall.invoke Ledger.host f (making funder fresh rent space owner).program refs
        seeds.toList (making funder fresh rent space owner).data l t).1 = .ok t'' ∧
      t''.handles.map (·.account) = t'.handles.map (·.account) := by
  obtain ⟨fits, bySeeds, _, _, may, rfl⟩ := create_eq_ok_iff.1 h
  cases apart.funder_alone.here.symm.trans may.funder_at
  cases apart.fresh_alone.here.symm.trans may.fresh_at
  obtain ⟨hfunder, hfresh⟩ := apart.read_accounts
  obtain ⟨r, hr⟩ := may.called apart own room present names
  rw [InnerCall.request_eq_asked names hr, asked_eq] at hr
  refine ⟨_, InnerCall.invoke_of_carries hr rfl
    (SystemProgram.carries_createAccount apart.ne ?_ ?_ ?_), accounts_adopted apart fits owner rent bySeeds⟩
  · rw [hfresh]
    exact may.vacant
  · rw [hfunder]
    exact may.funds
  · rw [toNat_space fits]
    exact fits

theorem create_of_called (apart : t.Apart payer target funder fresh) (fits : space < allocationLimit)
    {refs : List Ref} (names : t.Names refs (making funder fresh rent space owner).metas) {l : Ledger}
    (h : (InnerCall.invoke Ledger.host f (making funder fresh rent space owner).program refs []
      (making funder fresh rent space owner).data l t).1 = .ok t') :
    (t.create payer target space owner none rent).1 = .ok () := by
  obtain ⟨hfunder, hfresh⟩ := apart.read_accounts
  obtain ⟨r, hr, _⟩ := InnerCall.invoke_ok h
  have asked := hr
  rw [InnerCall.request_eq_asked names hr, asked_eq] at asked
  obtain ⟨program, loaded, hresult, _⟩ := (InnerCall.invoke_eq_ok_iff asked).1 h
  cases loaded
  obtain ⟨vacant, funds, _⟩ := (SystemProgram.replyOf_createAccount_eq_done_iff apart.ne).1
    (Reply.result_eq_ok_iff.1 hresult)
  rw [hfresh] at vacant
  rw [hfunder] at funds
  have may := mayCreate_of_called apart names hr vacant funds
  rw [create_eq_ok_iff.2 ⟨fits, false, funder, fresh, may, rfl⟩]

/-- The two ways to make an account agree.  What a table makes by itself, it may also have made by
the System Program, with the same seeds, and then all accounts are the same; and without seeds it
can make what it can have made. -/
theorem create_as_called (apart : t.Apart payer target funder fresh) (own : f.program = t.program)
    (fits : space < allocationLimit) (owner : Key) (rent : Amount) (seeds : Option SignerSeeds)
    (room : f.Allows (making funder fresh rent space owner) seeds.toList)
    (present : ∃ h ∈ t.handles, h.key = .system ∧ h.account.executable = true) (l : Ledger) :
    let called := (invokeInstruction Ledger.host f (making funder fresh rent space owner)
      seeds.toList l t).1
    (∀ t', t.create payer target space owner seeds rent = (.ok (), t') →
      ∃ t'', called = .ok t'' ∧ t''.handles.map (·.account) = t'.handles.map (·.account)) ∧
    (seeds = none →
      ((t.create payer target space owner seeds rent).1 = .ok () ↔ ∃ t'', called = .ok t'')) := by
  intro called
  obtain ⟨refs, hrefs⟩ := apart.exists_refs rent space owner
  obtain ⟨names, _⟩ := InnerCall.names_of_refsOf hrefs
  have hcalled : called = (InnerCall.invoke Ledger.host f (making funder fresh rent space owner).program
      refs seeds.toList (making funder fresh rent space owner).data l t).1 := by
    simp only [called, invokeInstruction, hrefs]
  rw [hcalled]
  refine ⟨fun t' h => called_of_create apart own room present names l h, ?_⟩
  rintro rfl
  refine ⟨fun h => ?_, ?_⟩
  · obtain ⟨t'', h, _⟩ := called_of_create apart own room present names l (Prod.ext h rfl)
    exact ⟨t'', h⟩
  · rintro ⟨t'', h⟩
    exact create_of_called apart fits names h

end Table

namespace Invocation

/-- an invocation with a payer, a vacant account and the System Program -/
def founding : Invocation where
  program := .ofNat 9
  entries := [⟨true, true, { key := .ofNat 1, lamports := 500 }⟩,
    ⟨true, true, { key := .ofNat 3 }⟩, ⟨false, false, .program .system⟩]
  data := []
  height := 1
  callStack := []

theorem founding_called : ∃ t funder fresh t',
    Table.bind founding.program founding.entries ⟨"founding", []⟩ = .ok t ∧
      t.handles[0]? = some funder ∧ t.handles[1]? = some fresh ∧
      (InnerCall.invokeInstruction Ledger.host ⟨{}, .ofNat 9, 1, []⟩
        (Table.making funder fresh 90 2 (.ofNat 9)) [] Ledger.start t).1 = .ok t' ∧
      t'.handles.map (·.account) = [{ key := .ofNat 1, lamports := 410 },
        { key := .ofNat 3, lamports := 90, data := [0, 0], owner := .ofNat 9 }, .program .system] := by
  let t : Table := ⟨.ofNat 9, Table.bound [] founding.entries⟩
  have bound : Table.bind founding.program founding.entries ⟨"founding", []⟩ = .ok t := rfl
  let funder := Table.unnamed ⟨true, true, { key := .ofNat 1, lamports := 500 }⟩
  let fresh := Table.unnamed ⟨true, true, { key := .ofNat 3 }⟩
  have distinct : (t.handles.map (·.key)).Nodup := by decide
  have apart : t.Apart 0 1 funder fresh := ⟨.of_nodup distinct rfl, .of_nodup distinct rfl, by decide⟩
  have room : Frame.Allows ⟨{}, .ofNat 9, 1, []⟩ (Table.making funder fresh 90 2 (.ofNat 9)) [] := by
    refine ⟨by decide, List.not_mem_nil, by decide, by decide, ?_, by decide, by decide⟩
    rw [Table.making, SystemProgram.length_data_createAccount]
    decide
  have fits : 2 < allocationLimit := by decide
  have present : ∃ h ∈ t.handles, h.key = .system ∧ h.account.executable = true :=
    ⟨_, List.mem_of_getElem? (i := 2) rfl, rfl, rfl⟩
  obtain ⟨t', called, accounts⟩ := (Table.create_as_called apart rfl fits (.ofNat 9) 90 none room
    present Ledger.start).1 _ rfl
  exact ⟨t, funder, fresh, t', bound, rfl, rfl, called, accounts⟩

end Invocation

end AccountLedger
