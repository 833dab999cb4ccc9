import AccountLedger.Proofs.Privilege
/-!
# A host cannot touch what was not granted

The host answers an inner call with any accounts it likes, under other keys even, and the table
takes over what comes back under the key of a handle.  What protects a read-only position is that
its key is read-only at every position, so that no call can pass it for writing.

* `Table.Untouched.of_step`: no operation changes a position that the invocation did not grant for
  writing;
* `run_spares_ungranted`: that holds at every point of every run; and an inner call that returns an
  error, as it does when the host fails or when a read-only account comes back changed, leaves the
  whole table as it was.
-/

namespace AccountLedger

/-! ## the tables of a run -/

/-- the tables that a run goes through: what each operation found, and what the last one left -/
def Logic.tables {σ α : Type} (host : Host σ) (f : Frame) (m : Logic α) (scene : Scene σ) :
    List Table :=
  (m.history host f scene).map (·.table) ++ [(m.run host f scene).2.table]

/-- What every operation preserves of the table holds of all tables of a run. -/
theorem Logic.forall_tables {σ α : Type} {P : Table → Prop} (host : Host σ) (f : Frame)
    (step : ∀ t op result t', Table.Step f t op result t' → P t → P t')
    (m : Logic α) (scene : Scene σ) (init : P scene.table) :
    ∀ t ∈ m.tables host f scene, P t := by
  intro t ht
  rcases List.mem_append.1 ht with ht | ht
  · obtain ⟨now, hnow, rfl⟩ := List.mem_map.1 ht
    obtain ⟨before, after, hsplit⟩ := List.append_of_mem hnow
    exact history_induction (P := fun _ t => P t) host f
      (fun _ t op result t' h _ => step t op result t' h) m scene [] init hsplit
  · rw [List.mem_singleton.1 ht]
    exact run_induction (P := fun scene => P scene.table) host f
      (fun op scene => step _ op _ _ (op.run_step host f scene)) m scene init

/-! ## read-only positions -/

/-- each handle is that of its entry, and as it was bound if the entry is read-only -/
structure Table.Untouched (entries : List Entry) (t : Table) : Prop where
  length : t.handles.length = entries.length
  entry : ∀ (position : Nat) (h : Handle), t.handles[position]? = some h →
    ∃ e : Entry, entries[position]? = some e ∧ e.account.key = h.key ∧ e.writable = h.writable ∧
      (e.writable = false → h.account = e.account ∧ h.dirty = {})

/-- An update under a key that is not the handle's passes it by. -/
theorem Handle.adoptAll_of_ne {updates : List Account} {h : Handle}
    (other : ∀ a ∈ updates, a.key ≠ h.key) : h.adoptAll updates = h := by
  unfold adoptAll
  induction updates with
  | nil => rfl
  | cons a rest ih =>
    have hne : ¬ h.key = a.key := fun hk => other a (List.mem_cons_self ..) hk.symm
    rw [List.foldl_cons, if_neg hne]
    exact ih fun b hb => other b (List.mem_cons_of_mem _ hb)

/-- A change of a handle that is not writable is none, if no call may pass its key for writing. -/
theorem Handle.Changed.eq_of_not_writable {f : Frame} {t : Table} {op : Op}
    {result : Except (Stop Error) Unit} {h h' : Handle} (change : h.Changed f t op result h')
    (hw : h.writable = false)
    (readonly : ∀ r, op.request? f t = some r → h.key ∉ InnerCall.writableKeys r.instruction) :
    h' = h := by
  cases change with
  | same => rfl
  | lamports set =>
    have := (setLamports_eq_ok_iff.1 set).1
    rw [hw] at this
    cases this
  | save saved =>
    have := (save_eq_ok_iff.1 saved).1
    rw [hw] at this
    cases this
  | paid may => exact absurd (hw.symm.trans may.funder_writable) Bool.false_ne_true
  | allocated may => exact absurd (hw.symm.trans may.fresh_writable) Bool.false_ne_true
  | half may => exact absurd (hw.symm.trans may.fresh_writable) Bool.false_ne_true
  | adopted asked within =>
    exact adoptAll_of_ne fun a ha hk => readonly _ asked (hk ▸ within a ha)

/-- A key that a call passes for writing is the key of a handle that may be written. -/
theorem Op.writable_of_mem_writableKeys {f : Frame} {t : Table} {op : Op} {r : Request} {key : Key}
    (asked : op.request? f t = some r) (hk : key ∈ InnerCall.writableKeys r.instruction) :
    ∃ (position : Nat) (h : Handle), t.handles[position]? = some h ∧ h.key = key ∧
      h.writable = true := by
  obtain ⟨target, refs, data, hr⟩ : ∃ target refs data,
      InnerCall.request f t target refs op.callSeeds data = .ok r :=
    Op.request_of_request? asked
  obtain ⟨⟨derived, cleared⟩, rfl⟩ := InnerCall.request_eq_ok_iff.1 hr
  simp only [InnerCall.writableKeys, InnerCall.requestOf, List.mem_map, List.mem_filter] at hk
  obtain ⟨_, ⟨⟨x, hx, rfl⟩, hw⟩, rfl⟩ := hk
  exact ⟨x.1.position, x.2, (InnerCall.mem_referred.1 hx).2, rfl, (cleared.held x hx).1 hw⟩

namespace Table.Untouched

variable {entries : List Entry} {t t' : Table}

theorem of_bind {program : Key} {layout : Layout} (h : bind program entries layout = .ok t) :
    t.Untouched entries := by
  obtain ⟨_, _, _, rfl⟩ := binds_iff.1 h
  refine ⟨length_bound _ _, fun position g hg => ?_⟩
  obtain ⟨e, he, hb⟩ := getElem?_bound hg
  exact ⟨e, he, by rw [Handle.key, hb.account], hb.writable.symm, fun _ => ⟨hb.account, hb.clean⟩⟩

theorem of_step {f : Frame} {op : Op} {result : Except (Stop Error) Unit}
    (consistent : ∀ e ∈ entries, ∀ g ∈ entries, e.account.key = g.account.key →
      e.writable = g.writable)
    (step : Step f t op result t') (ht : t.Untouched entries) : t'.Untouched entries := by
  refine ⟨step.length_eq.trans ht.length, fun position h' here' => ?_⟩
  obtain ⟨h, here, change⟩ := step.changed here'
  obtain ⟨hkey, hwritable⟩ := change.fixed
  obtain ⟨e, he, hek, hew, hsame⟩ := ht.entry position h here
  refine ⟨e, he, hek.trans hkey.symm, hew.trans hwritable.symm, fun hreadonly => ?_⟩
  have hkept : h' = h := by
    refine change.eq_of_not_writable (hew.symm.trans hreadonly) fun r asked hmem => ?_
    obtain ⟨other, g, hg, hgk, hgw⟩ := Op.writable_of_mem_writableKeys asked hmem
    obtain ⟨d, hd, hdk, hdw, _⟩ := ht.entry other g hg
    -- the entry passed for writing names the same key, so both are writable or neither is
    have hboth := consistent e (List.mem_of_getElem? he) d (List.mem_of_getElem? hd)
      (hek.trans (hgk.symm.trans hdk.symm))
    rw [hreadonly, hdw, hgw] at hboth
    cases hboth
  rw [hkept]
  exact hsame hreadonly

end Table.Untouched

/-! ## void calls -/

/-- what the host answers to a request -/
def Host.reply {σ : Type} (host : Host σ) (s : σ) (r : Request) : Reply r.accounts.length :=
  (host.invoke s r.instruction r.accounts.toArray.toVector r.signers r.height).1

/-- an account came back changed that the instruction does not name as writable -/
def Request.Trespassed (r : Request) (after : List Account) : Prop :=
  ∃ (i : Nat) (old new : Account), r.accounts[i]? = some old ∧ after[i]? = some new ∧ old ≠ new ∧
    ∀ m ∈ r.instruction.metas, m.key = old.key → m.writable = false

namespace InnerCall

theorem not_mem_writableKeys_iff {i : Instruction} {key : Key} :
    key ∉ writableKeys i ↔ ∀ m ∈ i.metas, m.key = key → m.writable = false := by
  simp only [writableKeys, List.mem_map, List.mem_filter, not_exists, not_and, and_imp]
  refine ⟨?_, ?_⟩
  · intro h m hm hk
    cases hw : m.writable with
    | false => rfl
    | true => exact absurd hk (h m hm hw)
  · intro h m hm hw hk
    rw [h m hm hk] at hw
    cases hw

theorem trespass?_eq_none_iff {r : Request} {after : List Account} :
    trespass? (writableKeys r.instruction) r.accounts after = none ↔ ¬ r.Trespassed after := by
  rw [trespass?, List.findSome?_eq_none_iff]
  simp only [Request.Trespassed, ← not_mem_writableKeys_iff]
  refine ⟨?_, ?_⟩
  · intro hnone htrespass
    obtain ⟨i, old, new, hold, hnew, hne, hkey⟩ := htrespass
    have hzip : (r.accounts.zip after)[i]? = some (old, new) :=
      List.getElem?_zip_eq_some.2 ⟨hold, hnew⟩
    have := hnone (old, new) (List.mem_of_getElem? hzip)
    simp [hkey, hne] at this
  · intro h x hx
    obtain ⟨old, new⟩ := x
    obtain ⟨i, hi⟩ := List.getElem?_of_mem hx
    obtain ⟨hold, hnew⟩ := List.getElem?_zip_eq_some.1 hi
    by_cases hkey : old.key ∈ writableKeys r.instruction
    · simp [hkey]
    · by_cases hne : old = new
      · simp [hne]
      · exact absurd ⟨i, old, new, hold, hnew, hne, hkey⟩ h

theorem conclude_error_iff {n : Nat} {r : Request} {reply : Reply n} {t : Table} :
    (∃ stop, conclude r reply t = .error stop) ↔
      (∃ stop, reply.result = .error stop) ∨ r.Trespassed reply.accounts.toList := by
  have hkept : trespass? (writableKeys r.instruction) r.accounts reply.accounts.toList = none ↔
      ¬ r.Trespassed reply.accounts.toList := trespass?_eq_none_iff
  simp only [conclude]
  cases reply.result with
  | error stop => simp
  | ok u =>
    cases ht : trespass? (writableKeys r.instruction) r.accounts reply.accounts.toList with
    | none => simp [hkept.1 ht]
    | some key =>
      rw [ht] at hkept
      simpa using hkept

/-- A call that is carried out was a request, and its result was taken over. -/
theorem invoke_ok {σ : Type} {host : Host σ} {f : Frame} {target : Key} {refs : List Ref}
    {seeds : List SignerSeeds} {data : Bytes} {s : σ} {t t' : Table}
    (h : (invoke host f target refs seeds data s t).1 = .ok t') :
    ∃ r, request f t target refs seeds data = .ok r ∧
      (host.reply s r).result = .ok () ∧ ¬ r.Trespassed (host.reply s r).accounts.toList ∧
      t' = adopt (writableKeys r.instruction) (host.reply s r).accounts.toList t := by
  unfold invoke at h
  cases hr : request f t target refs seeds data with
  | error stop =>
    rw [hr] at h
    cases h
  | ok r =>
    rw [hr] at h
    obtain ⟨hresult, kept, hadopt⟩ := conclude_eq_ok_iff.1 h
    exact ⟨r, rfl, hresult, trespass?_eq_none_iff.1 kept, hadopt⟩

end InnerCall

namespace Op

variable {σ : Type}

/-- an operation that runs another program -/
def calls : Op → Bool
  | .invoke .. | .invokeInstruction .. => true
  | _ => false

/-- A call that fails: a check refuses it, so that nothing is asked of the host, or the host fails,
or an account that it may not write comes back changed. -/
def Fails (host : Host σ) (f : Frame) (scene : Scene σ) (op : Op) : Prop :=
  ∀ r, op.request? f scene.table = some r →
    (∃ stop, (host.reply scene.ledger r).result = .error stop) ∨
      r.Trespassed (host.reply scene.ledger r).accounts.toList

theorem onBoth_error_iff {result : Except (Stop Error) Table × σ} {scene : Scene σ}
    {stop : Stop Error} : (onBoth result scene).1 = .error stop ↔ result.1 = .error stop := by
  obtain ⟨result, s⟩ := result
  cases result <;> simp [onBoth]

theorem table_onBoth {result : Except (Stop Error) Table × σ} {scene : Scene σ} {stop : Stop Error}
    (h : (onBoth result scene).1 = .error stop) : (onBoth result scene).2.table = scene.table := by
  obtain ⟨result, s⟩ := result
  cases result with
  | error e => rfl
  | ok t => cases h

/-- A call that returns an error leaves the table as it was. -/
theorem table_of_void (host : Host σ) (f : Frame) (scene : Scene σ) {op : Op}
    (call : op.calls = true) {stop : Stop Error} (void : (op.run host f scene).1 = .error stop) :
    (op.run host f scene).2.table = scene.table := by
  cases op with
  | invoke target refs seeds data => exact table_onBoth void
  | invokeInstruction i seeds => exact table_onBoth void
  | _ => cases call

theorem invoke_error_iff (host : Host σ) (f : Frame) (target : Key) (refs : List Ref)
    (seeds : List SignerSeeds) (data : Bytes) (s : σ) (t : Table) :
    (∃ stop, (InnerCall.invoke host f target refs seeds data s t).1 = .error stop) ↔
      Fails host f ⟨s, t⟩ (.invoke target refs seeds data) := by
  unfold InnerCall.invoke Fails
  cases hr : InnerCall.request f t target refs seeds data with
  | error stop => simp [request?, hr, Except.toOption]
  | ok r =>
    simp only [request?, hr, Except.toOption, Option.some.injEq, forall_eq']
    exact InnerCall.conclude_error_iff

/-- A call returns an error exactly when it fails. -/
theorem error_iff_fails (host : Host σ) (f : Frame) (scene : Scene σ) {op : Op}
    (call : op.calls = true) :
    (∃ stop, (op.run host f scene).1 = .error stop) ↔ Fails host f scene op := by
  cases op with
  | invoke target refs seeds data =>
    simp only [run, onBoth_error_iff]
    exact invoke_error_iff host f target refs seeds data scene.ledger scene.table
  | invokeInstruction i seeds =>
    simp only [run, onBoth_error_iff, InnerCall.invokeInstruction]
    cases hi : InnerCall.refsOf scene.table i.metas with
    | error e => simp [Fails, request?, hi]
    | ok refs =>
      have h := invoke_error_iff host f i.program refs seeds i.data scene.ledger scene.table
      simp only [Fails, request?, hi] at h ⊢
      exact h
  | _ => cases call

end Op

/-! ## runs -/

/-- Whatever a host answers, a position that the invocation did not grant for writing keeps its
account and stays clean all through a run, and a call that fails is an error that leaves all of the
table as it was. -/
theorem Logic.run_spares_ungranted {σ α : Type} (limits : Limits) (i : Invocation)
    {layout : Layout} {t : Table} (bound : Table.bind i.program i.entries layout = .ok t)
    (host : Host σ) (s : σ) (m : Logic α) :
    let f : Frame := ⟨limits, i.program, i.height, i.callStack⟩
    (∀ now ∈ m.tables host f ⟨s, t⟩, ∀ (position : Nat) (e : Entry),
      i.entries[position]? = some e → e.writable = false →
        ∃ h, now.handles[position]? = some h ∧ h.account = e.account ∧ h.dirty = {}) ∧
    ∀ (scene : Scene σ) (op : Op), op.calls = true →
      ((∃ stop, (op.run host f scene).1 = .error stop) ↔ op.Fails host f scene) ∧
        ∀ stop, (op.run host f scene).1 = .error stop →
          (op.run host f scene).2.table = scene.table := by
  intro f
  refine ⟨?_, ?_⟩
  · intro now hnow position e he hreadonly
    have consistent := (Table.binds_iff.1 bound).2.1
    have untouched := Logic.forall_tables (P := fun t => t.Untouched i.entries) host f
      (fun _ _ _ _ step ht => ht.of_step consistent step) m ⟨s, t⟩ (.of_bind bound) now hnow
    have hlt : position < now.handles.length := by
      rw [untouched.length]
      exact (List.getElem?_eq_some_iff.1 he).1
    obtain ⟨d, hd, _, _, hsame⟩ := untouched.entry position _ (List.getElem?_eq_getElem hlt)
    rw [he] at hd
    cases hd
    exact ⟨_, List.getElem?_eq_getElem hlt, hsame hreadonly⟩
  · intro scene op call
    exact ⟨Op.error_iff_fails host f scene call, fun _ => Op.table_of_void host f scene call⟩

/-- a host that gives every account back emptied and under another key -/
def Host.renaming (key : Key) : Host Unit where
  take _ := (.error ⟨"nothing staged", none⟩, ())
  executing _ := .system
  minimumBalance _ _ := .ok 0
  invoke _ _ _ accounts _ _ :=
    (⟨.ok (), accounts.map fun a => { a with key, lamports := 0, data := [], owner := .system }⟩, ())
  settle _ _ := (.ok (), ())
  findAddress _ _ _ := none

theorem Invocation.errand_spares_program : ∃ t,
    Table.bind errand.program errand.entries ⟨"errand", []⟩ = .ok t ∧
      ∃ h : Handle, ((Logic.perform .handOver).run (Host.renaming .system)
          ⟨{}, errand.program, errand.height, errand.callStack⟩ ⟨(), t⟩).2.table.handles[1]? = some h ∧
        h.account = .program .system ∧ h.dirty = {} := by
  have bound : Table.bind errand.program errand.entries ⟨"errand", []⟩ =
      .ok ⟨errand.program, Table.bound [] errand.entries⟩ := rfl
  have spares := (Logic.run_spares_ungranted {} errand bound (Host.renaming .system) ()
    (Logic.perform .handOver)).1 _ (List.mem_append_right _ (List.mem_singleton.2 rfl))
  exact ⟨_, bound, spares 1 ⟨false, false, .program .system⟩ rfl rfl⟩

end AccountLedger
