import AccountLedger.Proofs.Making
import AccountLedger.Proofs.Returns
/-!
# An account is founded by a call of its own

What a call by key needs of the table is stated key by key, without the positions that it is handed.
A call of the System Program that makes an account then changes two accounts of the table, the payer's
and the new one's, at all their positions.

* `Op.Admits`, `Op.Passes.admits`, `Op.Admits.passes`: what a call by key needs;
* `InnerCall.invokeInstruction_eq_ok_iff`: when such a call is carried out, and to which table;
* `Table.founded`: the table with a new account;
* `SystemProgram.founded_of_invoked`: it is what the System Program leaves.
-/

namespace AccountLedger

open InnerCall (adopt invokeInstruction refsOf replyOf request trespass? writableKeys)

/-! ## calls that name their accounts by key -/

section

variable {f : Frame} {t t' : Table} {i : Instruction} {seeds : List SignerSeeds} {l : Ledger}

theorem Table.mem_of_find? {key : Key} {h : Handle} (hf : t.handles.find? (·.key = key) = some h) :
    h ∈ t.handles ∧ h.key = key :=
  ⟨List.mem_of_find?_eq_some hf, by simpa using List.find?_some hf⟩

namespace Op

theorem passes_invokeInstruction_iff :
    (invokeInstruction i seeds).Passes f t ↔ ∃ refs, refsOf t i.metas = .ok refs ∧
      request f t i.program refs seeds i.data = .ok (t.asked f i) := by
  cases hrefs : refsOf t i.metas with
  | error e => simp [Passes, request?, hrefs]
  | ok refs =>
    simp only [Passes, request?, hrefs, toOption_eq_some_iff, Except.ok.injEq, exists_eq_left']
    refine ⟨?_, fun h => ⟨_, h⟩⟩
    rintro ⟨r, hr⟩
    rw [← InnerCall.request_eq_asked (InnerCall.names_of_refsOf hrefs).1 hr]
    exact hr

/-- What a call by key needs of a table, where some keys may sign by derivation.  Of the positions of
one key, only the first has to be writable or to sign. -/
structure Admits (f : Frame) (t : Table) (i : Instruction) (derived : List Key) : Prop where
  not_executing : i.program ≠ f.program
  not_waiting : i.program ∉ f.callStack
  height_fits : f.height + 1 < UInt64.size
  height_le : f.height + 1 ≤ f.limits.stackHeight
  data_le : i.data.length ≤ f.limits.innerData
  metas_le : i.metas.length ≤ f.limits.innerAccounts
  program : ∃ h ∈ t.handles, h.key = i.program ∧ h.account.executable = true
  held : ∀ m ∈ i.metas, ∃ h, t.handles.find? (·.key = m.key) = some h ∧
    (m.writable = true → h.writable = true) ∧ (m.signer = true → h.signer = true ∨ m.key ∈ derived)
  agree : ∀ m ∈ i.metas, ∀ h ∈ t.handles, h.key = m.key → ∀ g ∈ t.handles, g.key = m.key →
    g.account = h.account

theorem Passes.admits (passes : (invokeInstruction i seeds).Passes f t) :
    ∃ derived, Admits f t i derived := by
  obtain ⟨refs, hrefs, hr⟩ := passes_invokeInstruction_iff.1 passes
  obtain ⟨names, firsts⟩ := InnerCall.names_of_refsOf hrefs
  obtain ⟨⟨derived, cleared⟩, _⟩ := InnerCall.request_eq_ok_iff.1 hr
  obtain ⟨hdata, hmetas, _⟩ := (InnerCall.checkLimits_eq_ok_iff names).1 cleared.limits
  refine ⟨derived, cleared.not_executing, cleared.not_waiting, cleared.height_fits,
    cleared.height_le, hdata, hmetas, cleared.program, ?_, ?_⟩
  · intro m hm
    obtain ⟨x, hx, rfl⟩ := InnerCall.exists_referred names hm
    exact ⟨x.2, firsts x hx, cleared.held x hx⟩
  · intro m hm h hh hk g hg hgk
    obtain ⟨x, hx, rfl⟩ := InnerCall.exists_referred names hm
    rw [cleared.agree x hx g hg hgk, cleared.agree x hx h hh hk]

theorem Admits.passes (admits : Admits f t i []) : (invokeInstruction i []).Passes f t := by
  obtain ⟨refs, hrefs⟩ : ∃ refs, refsOf t i.metas = .ok refs := by
    refine InnerCall.exists_refsOf_iff.2 fun m hm => ?_
    obtain ⟨h, hf, _⟩ := admits.held m hm
    exact ⟨h, Table.mem_of_find? hf⟩
  obtain ⟨names, firsts⟩ := InnerCall.names_of_refsOf hrefs
  have limits : InnerCall.checkLimits f t refs [] i.data = .ok () :=
    (InnerCall.checkLimits_eq_ok_iff names).2 ⟨admits.data_le, admits.metas_le, Nat.zero_le _⟩
  have cleared : InnerCall.Cleared f t i.program refs [] i.data [] := by
    refine ⟨admits.not_executing, admits.not_waiting, admits.height_fits, admits.height_le, limits,
      admits.program, rfl, ?_, ?_⟩
    · intro x hx
      obtain ⟨_, hm⟩ := InnerCall.meta_of_referred names hx
      obtain ⟨h, hf, held⟩ := admits.held _ hm
      obtain rfl := Option.some.inj ((firsts x hx).symm.trans hf)
      exact held
    · intro x hx g hg hk
      obtain ⟨hxm, hm⟩ := InnerCall.meta_of_referred names hx
      exact admits.agree _ hm x.2 hxm rfl g hg hk
  refine ⟨InnerCall.requestOf f i.program (InnerCall.referred t refs) i.data, ?_⟩
  simp only [request?, hrefs]
  exact toOption_eq_some_iff.2 (InnerCall.request_eq_ok_iff.2 ⟨⟨[], cleared⟩, rfl⟩)

/-- The keys of a call are in the table. -/
theorem Passes.present (passes : (invokeInstruction i seeds).Passes f t) {m : Meta} (hm : m ∈ i.metas) :
    ∃ h ∈ t.handles, h.key = m.key := by
  obtain ⟨derived, admits⟩ := passes.admits
  obtain ⟨h, hf, _⟩ := admits.held m hm
  exact ⟨h, Table.mem_of_find? hf⟩

/-- All positions of the keys of a call have one account. -/
theorem Passes.shown (passes : (invokeInstruction i seeds).Passes f t) {h : Handle}
    (hh : h ∈ t.handles) (hk : h.key ∈ i.keys) : h.account = t.accounts.read h.key := by
  obtain ⟨derived, admits⟩ := passes.admits
  obtain ⟨m, hm, hkey⟩ := Instruction.mem_keys_iff.1 hk
  obtain ⟨g, hf, _⟩ := admits.held m hm
  obtain ⟨hg, hgk⟩ := Table.mem_of_find? hf
  rw [t.read_accounts, Table.view, ← hkey, hf]
  exact admits.agree m hm g hg hgk h hh hkey.symm

end Op

/-- A call by key is carried out exactly if it passes all checks, and the native program carries out
the instruction on the accounts of the table. -/
theorem InnerCall.invokeInstruction_eq_ok_iff :
    (invokeInstruction Ledger.host f i seeds l t).1 = .ok t' ↔
      (Op.invokeInstruction i seeds).Passes f t ∧
      ∃ program, l.native? i.program = some program ∧
        (replyOf program l.calls i t.accounts).result = .ok () ∧
        Amount.total t.accounts.lamports i.keys = (replyOf program l.calls i t.accounts).accounts.total ∧
        trespass? (writableKeys i) (i.keys.map t.accounts.read)
          (replyOf program l.calls i t.accounts).accounts.toList = none ∧
        t' = adopt (writableKeys i) (replyOf program l.calls i t.accounts).accounts.toList t := by
  rw [Op.passes_invokeInstruction_iff]
  cases hrefs : refsOf t i.metas with
  | error e => simp [invokeInstruction, hrefs]
  | ok refs =>
    simp only [invokeInstruction, hrefs, Except.ok.injEq, exists_eq_left']
    by_cases asked : request f t i.program refs seeds i.data = .ok (t.asked f i)
    · rw [t.asked_eq] at asked ⊢
      simp only [asked, true_and, invoke_eq_ok_iff asked]
    · simp only [asked, false_and, iff_false]
      intro h
      obtain ⟨r, hr, _⟩ := invoke_ok h
      refine asked ?_
      rw [← request_eq_asked (names_of_refsOf hrefs).1 hr]
      exact hr

end

theorem InnerCall.natives_invokeInstruction (f : Frame) (i : Instruction) (seeds : List SignerSeeds)
    (l : Ledger) (t : Table) :
    (invokeInstruction Ledger.host f i seeds l t).2.natives = l.natives := by
  unfold invokeInstruction
  split
  · rfl
  · unfold invoke
    split
    · rfl
    · rfl

/-! ## an account is made -/

/-- the handle after the account of one key was paid for by that of another, and given data and an
owner -/
def Handle.founded (payer target : Key) (rent : Amount) (data : Bytes) (owner : Key) (h : Handle) :
    Handle :=
  if h.key = target then h.adopt { h.account with lamports := rent, data, owner }
  else if h.key = payer then h.adopt { h.account with lamports := h.account.lamports - rent }
  else h

/-- the table after that -/
def Table.founded (t : Table) (payer target : Key) (rent : Amount) (data : Bytes) (owner : Key) :
    Table :=
  { t with handles := t.handles.map (Handle.founded payer target rent data owner) }

namespace SystemProgram

variable {f : Frame} {t t' : Table} {seeds : List SignerSeeds} {l : Ledger} {payer target owner : Key}
  {rent : Amount} {space : UInt64}

/-- The System Program has made an account for a program. -/
theorem founded_of_invoked (paid : rent ≠ 0)
    (h : (invokeInstruction Ledger.host f (createAccount payer target rent space owner) seeds l t).1 =
      .ok t') :
    (t.accounts.read target).isVacant = true ∧ rent ≤ (t.accounts.read payer).lamports ∧
      payer ≠ target ∧ t' = t.founded payer target rent (List.replicate space.toNat 0) owner := by
  let i := createAccount payer target rent space owner
  obtain ⟨passes, program, loaded, hresult, _, _, rfl⟩ := InnerCall.invokeInstruction_eq_ok_iff.1 h
  cases loaded
  have hp : payer ∈ i.keys :=
    Instruction.mem_keys (m := ⟨payer, true, true⟩) (by simp [i, createAccount])
  have ht : target ∈ i.keys :=
    Instruction.mem_keys (m := ⟨target, true, true⟩) (by simp [i, createAccount])
  have hdone := Reply.result_eq_ok_iff.1 hresult
  have hcreate := hdone
  simp only [replyOf, native, read?_createAccount, perform] at hcreate
  obtain ⟨vacant, funds, hne, _⟩ := create_eq_done i.nodup_keys hp ht paid hcreate
  obtain ⟨_, _, _, hmade⟩ := (replyOf_createAccount_eq_done_iff hne).1 hdone
  refine ⟨vacant, funds, hne, ?_⟩
  rw [hmade, Store.toList_slots, t.adopt_returned i.nodup_keys i.mem_keys_of_writable, Table.founded]
  refine congrArg (Table.mk t.program) (List.map_congr_left fun h hh => ?_)
  simp only [i, mem_writableKeys_createAccount, Store.read_made, Handle.founded]
  by_cases hkt : h.key = target
  · rw [if_pos (.inr hkt), if_pos hkt.symm, if_pos hkt]
    rfl
  · rw [if_neg hkt, if_neg (Ne.symm hkt)]
    by_cases hkp : h.key = payer
    · have hi : h.key ∈ i.keys := hkp ▸ hp
      rw [if_pos (.inl hkp), if_pos hkp.symm, if_pos hkp, ← hkp, ← passes.shown hh hi]
    · rw [if_neg hkp, if_neg]
      rintro (h | h)
      · exact hkp h
      · exact hkt h

end SystemProgram

namespace Table

variable {t : Table} {payer target owner : Key} {rent : Amount} {data : Bytes}

theorem key_founded (payer target : Key) (rent : Amount) (data : Bytes) (owner : Key) (h : Handle) :
    (h.founded payer target rent data owner).key = h.key := by
  unfold Handle.founded
  split
  · exact h.key_adopt _
  · split
    · exact h.key_adopt _
    · rfl

theorem account_founded_target {h : Handle} (hk : h.key = target) :
    (h.founded payer target rent data owner).account =
      { h.account with lamports := rent, data, owner } := by
  rw [Handle.founded, if_pos hk]
  rfl

theorem account_founded_other {h : Handle} (hk : h.key ≠ target) :
    (h.founded payer target rent data owner).account = if h.key = payer
      then { h.account with lamports := h.account.lamports - rent } else h.account := by
  rw [Handle.founded, if_neg hk]
  split
  · rfl
  · rfl

theorem executable_founded (payer target : Key) (rent : Amount) (data : Bytes) (owner : Key) (h : Handle) :
    (h.founded payer target rent data owner).account.executable = h.account.executable ∧
      (h.founded payer target rent data owner).writable = h.writable := by
  unfold Handle.founded
  split
  · exact ⟨rfl, rfl⟩
  · split
    · exact ⟨rfl, rfl⟩
    · exact ⟨rfl, rfl⟩

theorem mem_founded {g : Handle} : g ∈ (t.founded payer target rent data owner).handles ↔
    ∃ h ∈ t.handles, h.founded payer target rent data owner = g :=
  List.mem_map

theorem present_founded_iff {program : Key} :
    (∃ h ∈ (t.founded payer target rent data owner).handles,
      h.key = program ∧ h.account.executable = true) ↔
      ∃ h ∈ t.handles, h.key = program ∧ h.account.executable = true := by
  refine ⟨?_, ?_⟩
  · rintro ⟨g, hg, hk, hx⟩
    obtain ⟨h, hh, rfl⟩ := mem_founded.1 hg
    rw [key_founded] at hk
    rw [(executable_founded ..).1] at hx
    exact ⟨h, hh, hk, hx⟩
  · rintro ⟨h, hh, hk, hx⟩
    refine ⟨_, mem_founded.2 ⟨h, hh, rfl⟩, (key_founded ..).trans hk, ?_⟩
    rw [(executable_founded ..).1]
    exact hx

theorem find?_founded (key : Key) : (t.founded payer target rent data owner).handles.find? (·.key = key) =
    (t.handles.find? (·.key = key)).map (Handle.founded payer target rent data owner) := by
  have hsame : (fun h : Handle => decide (h.key = key)) ∘ Handle.founded payer target rent data owner =
      fun h => decide (h.key = key) := by
    funext h
    rw [Function.comp_apply, key_founded]
  rw [founded, List.find?_map, hsame]

/-- A key that is there has its first position. -/
theorem exists_find? {key : Key} (there : ∃ h ∈ t.handles, h.key = key) :
    ∃ h, t.handles.find? (·.key = key) = some h ∧ h ∈ t.handles ∧ h.key = key := by
  cases hf : t.handles.find? (·.key = key) with
  | none =>
    obtain ⟨h, hh, hk⟩ := there
    exact absurd hk (by simpa using List.find?_eq_none.1 hf h hh)
  | some h => exact ⟨h, rfl, mem_of_find? hf⟩

/-- What is under a key that is there, is in some handle before. -/
theorem read_founded (t : Table) (payer target : Key) (rent : Amount) (data : Bytes) (owner : Key)
    {key : Key} (there : ∃ h ∈ t.handles, h.key = key) : ∃ h ∈ t.handles,
    h.key = key ∧ h.account = t.accounts.read key ∧
    (t.founded payer target rent data owner).accounts.read key =
      (h.founded payer target rent data owner).account := by
  obtain ⟨h, hf, hh, hk⟩ := exists_find? there
  refine ⟨h, hh, hk, ?_, ?_⟩
  · rw [read_accounts, view, hf]
    rfl
  · rw [read_accounts, view, find?_founded, hf]
    rfl

end Table

end AccountLedger
