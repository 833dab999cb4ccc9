import AccountLedger.Proofs.Mirror
import AccountLedger.Proofs.Naming
/-!
# Inner calls on the ledger in memory

The ledger runs an inner call by giving the accounts of its instruction to a native program.  For a
table that is the draft of a store, these are the accounts of that store, and what the native
program makes of them is the next store that the table is a draft of.

* `request_of_instruction`: what is asked of the host for an instruction;
* `invoke_eq_ok_iff`: when it is carried out;
* `Table.Mirrors.called`: the table after a call that is carried out.
-/

namespace AccountLedger

namespace InnerCall

variable {f : Frame} {t t' : Table} {i : Instruction} {refs : List Ref} {seeds : List SignerSeeds}
  {base now : Store} {r : Request}

/-- What is asked of the host for an instruction: to run it on the accounts of the store that the
table is a draft of. -/
theorem request_of_instruction (mirrors : t.Mirrors base now)
    (hrefs : refsOf t i.metas = .ok refs)
    (hr : request f t i.program refs seeds i.data = .ok r) :
    r = ⟨i, i.keys.map now.read, i.signers, f.height + 1⟩ ∧
      (∀ h ∈ t.handles, h.key ∈ i.keys → h.account = now.read h.key) ∧
        ∀ m ∈ i.metas, ∃ h ∈ t.handles, h.key = m.key := by
  obtain ⟨⟨derived, cleared⟩, rfl⟩ := request_eq_ok_iff.1 hr
  have hmetas := metas_of_names (names_of_refsOf hrefs).1
  have hpassed : ∀ x ∈ referred t refs, x.2 ∈ t.handles ∧ x.2.account = now.read x.2.key := by
    intro x hx
    have hmem := List.mem_of_getElem? (mem_referred.1 hx).2
    exact ⟨hmem, mirrors.of_agree hmem (cleared.agree x hx)⟩
  refine ⟨requestOf_eq now.key_read hmetas fun x hx => (hpassed x hx).2, ?_, ?_⟩
  · intro h hh hk
    obtain ⟨m, hm, hmk⟩ := Instruction.mem_keys_iff.1 hk
    rw [← hmetas] at hm
    obtain ⟨x, hx, rfl⟩ := List.mem_map.1 hm
    have hsame := cleared.agree x hx h hh hmk.symm
    rw [hsame, (hpassed x hx).2, show x.2.key = h.key from hmk]
  · intro m hm
    rw [← hmetas] at hm
    obtain ⟨x, hx, rfl⟩ := List.mem_map.1 hm
    exact ⟨x.2, (hpassed x hx).1, rfl⟩

theorem voiced_of_invokeInstruction {σ : Type} {host : Host σ} {s s' : σ}
    (h : invokeInstruction host f i seeds s t = (.ok t', s')) {m : Meta} (hm : m ∈ i.metas)
    (signer : m.signer = true) : ∃ h ∈ t.handles, h.key = m.key ∧
      (h.signer = true ∨ ∃ x ∈ seeds, x.derive f.program = .ok m.key) := by
  unfold invokeInstruction at h
  cases hrefs : refsOf t i.metas with
  | error e => rw [hrefs] at h; cases h
  | ok refs =>
    rw [hrefs] at h
    simp only [invoke] at h
    cases hr : request f t i.program refs seeds i.data with
    | error stop => rw [hr] at h; cases h
    | ok r =>
      obtain ⟨⟨derived, cleared⟩, _⟩ := request_eq_ok_iff.1 hr
      obtain ⟨x, hx, rfl⟩ := exists_referred (names_of_refsOf hrefs).1 hm
      obtain ⟨hmem, voiced⟩ := cleared.voiced hx signer
      exact ⟨x.2, hmem, rfl, voiced⟩

end InnerCall

namespace Ledger

/-- A call is balanced if the program leaves the sum of the balances, and is then as it was. -/
theorem balanced_eq_ok_iff {n : Nat} {program : Key} {before : Slots n} {reply : Reply n} :
    (balanced program before reply).result = .ok () ↔
      reply.result = .ok () ∧ before.total = reply.accounts.total := by
  unfold balanced
  cases hr : reply.result with
  | error stop => simp [hr]
  | ok u =>
    simp only
    by_cases ht : before.total = reply.accounts.total
    · simp [ht, hr]
    · simp [ht]

theorem accounts_balanced {n : Nat} (program : Key) (before : Slots n) (reply : Reply n) :
    (balanced program before reply).accounts = reply.accounts := by
  unfold balanced
  cases reply.result with
  | error stop => rfl
  | ok u =>
    simp only
    split <;> rfl

/-- A native program does not see how many slots there are but by their list. -/
theorem native_congr (program : Native) (calls : List Request) (i : Instruction) (signers : List Key)
    {n m : Nat} {a : Slots n} {b : Slots m} (h : a.toList = b.toList) :
    (program calls i a signers).result = (program calls i b signers).result ∧
      (program calls i a signers).accounts.toList = (program calls i b signers).accounts.toList ∧
        a.total = b.total ∧ ((program calls i a signers).accounts.total =
          (program calls i b signers).accounts.total) := by
  have hn : n = m := by simpa using congrArg List.length h
  subst hn
  have hab : a = b := Vector.toList_inj.1 h
  subst hab
  exact ⟨rfl, rfl, rfl, rfl⟩

end Ledger

namespace InnerCall

variable {f : Frame} {t t' : Table} {i : Instruction} {refs : List Ref} {seeds : List SignerSeeds}
  {base now now' : Store} {l l' : Ledger}

/-- the reply of a native program to an instruction on the accounts of a store -/
def replyOf (program : Native) (calls : List Request) (i : Instruction) (s : Store) :
    Reply i.keys.length :=
  program calls i (s.slots i.keys) i.signers

/-- If the native program carries out the instruction on the accounts of a store, it makes of them
the accounts of another store, which has the property. -/
def Turns (program : Native) (calls : List Request) (i : Instruction) (s : Store)
    (P : Store → Prop) : Prop :=
  (replyOf program calls i s).result = .ok () →
    ∃ s', (replyOf program calls i s).accounts = s'.slots i.keys ∧ s.Within i.keys s' ∧ P s'

/-- On the ledger in memory, an instruction on the accounts of a store is carried out exactly if a
native program carries it out and leaves the sum of the balances and what it may not write. -/
theorem invoke_eq_ok_iff {height : Nat} (hr : request f t i.program refs seeds i.data =
    .ok ⟨i, i.keys.map now.read, i.signers, height⟩) :
    (invoke Ledger.host f i.program refs seeds i.data l t).1 = .ok t' ↔
      ∃ program, l.native? i.program = some program ∧
        (replyOf program l.calls i now).result = .ok () ∧
        Amount.total now.lamports i.keys = (replyOf program l.calls i now).accounts.total ∧
        trespass? (writableKeys i) (i.keys.map now.read)
          (replyOf program l.calls i now).accounts.toList = none ∧
        t' = adopt (writableKeys i) (replyOf program l.calls i now).accounts.toList t := by
  rw [invoke, hr]
  show conclude _ (l.execute i (i.keys.map now.read).toArray.toVector i.signers) t = .ok t' ↔ _
  rw [conclude_eq_ok_iff, ← Store.total_slots]
  unfold Ledger.execute
  cases hn : l.native? i.program with
  | none => simp
  | some program =>
    obtain ⟨hresult, hlist, hbefore, hafter⟩ := Ledger.native_congr program l.calls i i.signers
      (a := (i.keys.map now.read).toArray.toVector) (b := now.slots i.keys) rfl
    simp only [Ledger.balanced_eq_ok_iff, Ledger.accounts_balanced, Option.some.injEq,
      exists_eq_left', hresult, hlist, hbefore, hafter, and_assoc, replyOf]

/-- An instruction that is carried out was run by a native program, which left the sum of the
balances and what it may not write. -/
theorem returned_of_instruction (mirrors : t.Mirrors base now)
    (h : invokeInstruction Ledger.host f i seeds l t = (.ok t', l')) :
    (∃ program, l.native? i.program = some program ∧
      (replyOf program l.calls i now).result = .ok () ∧
        trespass? (writableKeys i) (i.keys.map now.read)
          (replyOf program l.calls i now).accounts.toList = none ∧
        t' = adopt (writableKeys i) (replyOf program l.calls i now).accounts.toList t) ∧
      l'.natives = l.natives ∧
      (∀ h ∈ t.handles, h.key ∈ i.keys → h.account = now.read h.key) ∧
        ∀ m ∈ i.metas, ∃ h ∈ t.handles, h.key = m.key := by
  unfold invokeInstruction at h
  cases hrefs : refsOf t i.metas with
  | error e => rw [hrefs] at h; cases h
  | ok refs =>
    rw [hrefs] at h
    cases hr : request f t i.program refs seeds i.data with
    | error stop => simp only [invoke, hr] at h; cases h
    | ok r =>
      obtain ⟨rfl, hshown, hpresent⟩ := request_of_instruction mirrors hrefs hr
      obtain ⟨program, loaded, hresult, _, htrespass, hadopt⟩ :=
        (invoke_eq_ok_iff hr).1 (congrArg Prod.fst h)
      simp only [invoke, hr] at h
      obtain ⟨_, rfl⟩ := Prod.mk.inj h
      exact ⟨⟨program, loaded, hresult, htrespass, hadopt⟩, rfl, hshown, hpresent⟩

theorem kept_of_trespass {writable : List Key} {keys : List Key}
    (h : trespass? writable (keys.map now.read) (keys.map now'.read) = none) {key : Key}
    (hk : key ∈ keys) (hw : key ∉ writable) : now'.read key = now.read key := by
  rw [trespass?, List.zip_map', List.findSome?_eq_none_iff] at h
  have hsame := h _ (List.mem_map_of_mem hk)
  by_cases heq : now.read key = now'.read key
  · exact heq.symm
  · simp [hw, heq] at hsame

end InnerCall

/-- The table after an instruction that is carried out is the draft of the store that the native
program made. -/
theorem Table.Mirrors.called {f : Frame} {t t' : Table} {i : Instruction}
    {seeds : List SignerSeeds} {base now : Store} {l l' : Ledger} {program : Native}
    {P : Store → Prop} (mirrors : t.Mirrors base now) (loaded : l.native? i.program = some program)
    (h : InnerCall.invokeInstruction Ledger.host f i seeds l t = (.ok t', l'))
    (turns : InnerCall.Turns program l.calls i now P) :
    (∃ now', P now' ∧ t'.Mirrors base now') ∧ l'.natives = l.natives := by
  obtain ⟨⟨_, hn, hresult, htrespass, rfl⟩, hnatives, hshown, hpresent⟩ :=
    InnerCall.returned_of_instruction mirrors h
  rw [loaded] at hn
  cases hn
  obtain ⟨now', hslots, within, hP⟩ := turns hresult
  rw [hslots, Store.toList_slots] at htrespass ⊢
  have hwritable : ∀ key ∈ InnerCall.writableKeys i, ∃ m ∈ i.metas, m.key = key := by
    intro key hk
    obtain ⟨m, hm, rfl⟩ := List.mem_map.1 hk
    exact ⟨m, (List.mem_filter.1 hm).1, rfl⟩
  refine ⟨⟨now', hP, mirrors.adopted i.nodup_keys ?_ hshown ?_ ?_ within.kind⟩, hnatives⟩
  · intro key hk
    exact Instruction.mem_keys_iff.2 (hwritable key hk)
  · intro key hk
    obtain ⟨m, hm, rfl⟩ := hwritable key hk
    exact hpresent m hm
  · intro key hk
    by_cases hkey : key ∈ i.keys
    · exact InnerCall.kept_of_trespass htrespass hkey hk
    · exact within.beyond key hkey

end AccountLedger
