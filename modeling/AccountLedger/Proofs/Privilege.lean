import AccountLedger.Ledger
import AccountLedger.Proofs.Aliases
import AccountLedger.Proofs.Binding
import AccountLedger.Proofs.Operation
/-!
# Inner calls escalate nothing

What a program may hand on comes from the invocation: from its flags, or from seeds that speak for
keys of the program.  The table remembers the seeds of a created account in a signer mark, so the
authority of a call depends on everything that was performed before it.

* `Table.Granted`: what the marks of a table mean, after any operations;
* `requests_within`: whatever is asked of the host is within what the invocation grants.
-/

namespace AccountLedger

/-- the seeds that an operation presents for its own inner call -/
def Op.callSeeds : Op → List SignerSeeds
  | .invoke _ _ seeds _ | .invokeInstruction _ seeds => seeds
  | _ => []

/-- an account was made at the key with seeds that speak for it -/
def Spoken (program : Key) (before : List Performed) (key : Key) : Prop :=
  ∃ p ∈ before, p.done = true ∧ ∃ payer target space owner seeds rent,
    p.op = .create payer target space owner (some seeds) rent ∧ seeds.derive program = .ok key

/-- the three ways for a key to sign in an inner call: the invocation says that it signs, the call
presents its seeds, or an account was made with them before -/
def Invocation.Signs (i : Invocation) (before : List Performed) (op : Op) (key : Key) : Prop :=
  (∃ e ∈ i.entries, e.account.key = key ∧ e.signer = true) ∨
    (∃ seeds ∈ op.callSeeds, seeds.derive i.program = .ok key) ∨ Spoken i.program before key

/-- a request is within what the invocation grants to an operation on a table, after others -/
structure Request.Within (limits : Limits) (i : Invocation) (before : List Performed)
    (now : Performed) (r : Request) : Prop where
  not_executing : r.instruction.program ≠ i.program
  not_waiting : r.instruction.program ∉ i.callStack
  executable : ∃ h ∈ now.table.handles,
    h.key = r.instruction.program ∧ h.account.executable = true
  height : r.height = i.height + 1
  height_le : r.height ≤ limits.stackHeight
  writable : ∀ m ∈ r.instruction.metas, m.writable = true →
    (∃ e ∈ i.entries, e.account.key = m.key) ∧
      ∀ e ∈ i.entries, e.account.key = m.key → e.writable = true
  signer : ∀ m ∈ r.instruction.metas, m.signer = true → i.Signs before now.op m.key
  nodup_signers : r.signers.Nodup
  mem_signers : ∀ key, key ∈ r.signers ↔
    ∃ m ∈ r.instruction.metas, m.signer = true ∧ m.key = key
  nodup_accounts : (r.accounts.map (·.key)).Nodup
  pending : ∀ a ∈ r.accounts, (∃ h ∈ now.table.handles, h.account = a) ∧
    ∀ h ∈ now.table.handles, h.key = a.key → h.account = a

/-! ## what the marks of a table mean -/

/-- each handle is that of its entry, and signs only if it may -/
structure Table.Granted (i : Invocation) (before : List Performed) (t : Table) : Prop where
  program : t.program = i.program
  entry : ∀ (position : Nat) (h : Handle), t.handles[position]? = some h →
    ∃ e : Entry, i.entries[position]? = some e ∧ e.account.key = h.key ∧ e.writable = h.writable ∧
      (h.signer = true → e.signer = true ∨ Spoken i.program before h.key)

namespace Spoken

variable {program key : Key} {before : List Performed}

theorem append (h : Spoken program before key) (added : List Performed) :
    Spoken program (before ++ added) key := by
  obtain ⟨p, hp, made⟩ := h
  exact ⟨p, List.mem_append_left _ hp, made⟩

end Spoken

namespace Table.Granted

variable {i : Invocation} {before : List Performed} {t t' : Table}

theorem of_bind {layout : Layout} (h : bind i.program i.entries layout = .ok t) :
    t.Granted i [] := by
  obtain ⟨_, _, _, rfl⟩ := binds_iff.1 h
  refine ⟨rfl, fun position g hg => ?_⟩
  obtain ⟨e, he, hb⟩ := getElem?_bound hg
  refine ⟨e, he, by rw [Handle.key, hb.account], hb.writable.symm, fun hs => .inl ?_⟩
  rw [← hb.signer]
  exact hs

theorem of_step {f : Frame} {op : Op} {result : Except (Stop Error) Unit}
    (step : Step f t op result t') (alive : ∀ c, result ≠ .error (.crashed c))
    (ht : t.Granted i before) : t'.Granted i (before ++ [⟨op, t, result.isOk⟩]) := by
  refine ⟨step.program_eq.trans ht.program, fun position h' here' => ?_⟩
  obtain ⟨h, here, change⟩ := step.changed here'
  obtain ⟨hkey, hwritable⟩ := change.fixed
  obtain ⟨e, he, hek, hew, hes⟩ := ht.entry position h here
  refine ⟨e, he, hek.trans hkey.symm, hew.trans hwritable.symm, fun hs => ?_⟩
  rw [hkey]
  rcases change.signer hs with hs | ⟨hresult, payer, target, space, owner, seeds, rent, rfl, hd⟩
  · rcases hes hs with h | h
    · exact .inl h
    · exact .inr (h.append _)
  · rw [ht.program] at hd
    rcases hresult with rfl | ⟨c, rfl⟩
    · exact .inr ⟨_, List.mem_append_right _ (List.mem_singleton.2 rfl), rfl, payer, target, space,
        owner, seeds, rent, rfl, hd⟩
    · exact absurd rfl (alive c)

end Table.Granted

/-! ## one request -/

theorem Op.request_of_request? {f : Frame} {t : Table} {op : Op} {r : Request}
    (h : op.request? f t = some r) :
    ∃ target refs data, InnerCall.request f t target refs op.callSeeds data = .ok r := by
  have hok : ∀ {x : Except (Stop Error) Request}, x.toOption = some r → x = .ok r := by
    intro x hx
    cases x with
    | error stop => cases hx
    | ok r' => cases hx; rfl
  cases op with
  | invoke target refs seeds data => exact ⟨target, refs, data, hok h⟩
  | invokeInstruction instruction seeds =>
    simp only [request?] at h
    cases hr : InnerCall.refsOf t instruction.metas with
    | error e => rw [hr] at h; cases h
    | ok refs =>
      rw [hr] at h
      exact ⟨instruction.program, refs, instruction.data, hok h⟩
  | _ => cases h

theorem InnerCall.exists_seeds_of_mem_derived {program key : Key} {passed : List (Ref × Handle)}
    {seeds : List SignerSeeds} {derived : List Key}
    (h : derivedSigners program passed seeds = .ok derived) (hk : key ∈ derived) :
    ∃ s ∈ seeds, s.derive program = .ok key := by
  have hmap := (derivedSigners_eq_ok_iff.1 h).1
  have : (.ok key : Except Error Key) ∈ seeds.map (·.derive program) :=
    hmap ▸ List.mem_map_of_mem hk
  exact List.mem_map.1 this

/-- Whoever signs in a call that may go out is marked as a signer, or the seeds of the call speak for
him. -/
theorem InnerCall.Cleared.voiced {f : Frame} {t : Table} {target : Key} {refs : List Ref}
    {seeds : List SignerSeeds} {data : Bytes} {derived : List Key}
    (cleared : Cleared f t target refs seeds data derived) {x : Ref × Handle}
    (hx : x ∈ referred t refs) (signer : x.1.signer = true) :
    x.2 ∈ t.handles ∧
      (x.2.signer = true ∨ ∃ s ∈ seeds, s.derive f.program = .ok x.2.key) :=
  ⟨List.mem_of_getElem? (mem_referred.1 hx).2,
    ((cleared.held x hx).2 signer).imp id (exists_seeds_of_mem_derived cleared.derives)⟩

theorem Request.within_of_granted {limits : Limits} {i : Invocation} {before : List Performed}
    {now : Performed} {r : Request} (granted : now.table.Granted i before)
    (consistent : ∀ e ∈ i.entries, ∀ g ∈ i.entries, e.account.key = g.account.key →
      e.writable = g.writable)
    (asked : now.op.request? ⟨limits, i.program, i.height, i.callStack⟩ now.table = some r) :
    r.Within limits i before now := by
  obtain ⟨target, refs, data, hr⟩ := Op.request_of_request? asked
  obtain ⟨⟨derived, cleared⟩, rfl⟩ := InnerCall.request_eq_ok_iff.1 hr
  refine {
    not_executing := cleared.not_executing
    not_waiting := cleared.not_waiting
    executable := cleared.program
    height := rfl
    height_le := cleared.height_le
    writable := ?_
    signer := ?_
    nodup_signers := nodup_distinctBy_id _
    mem_signers := ?_
    nodup_accounts := nodup_map_distinctBy _ _
    pending := ?_ }
  · intro m hm hw
    obtain ⟨x, hx, rfl⟩ := List.mem_map.1 hm
    obtain ⟨e, he, hek, hew, _⟩ := granted.entry _ _ (InnerCall.mem_referred.1 hx).2
    have hwritable : e.writable = true := hew.trans ((cleared.held x hx).1 hw)
    refine ⟨⟨e, List.mem_of_getElem? he, hek⟩, fun g hg hgk => ?_⟩
    rw [← consistent e (List.mem_of_getElem? he) g hg (hek.trans hgk.symm)]
    exact hwritable
  · intro m hm hs
    obtain ⟨x, hx, rfl⟩ := List.mem_map.1 hm
    obtain ⟨e, he, hek, _, hes⟩ := granted.entry _ _ (InnerCall.mem_referred.1 hx).2
    rcases (cleared.held x hx).2 hs with hsigner | hderived
    · rcases hes hsigner with h | h
      · exact .inl ⟨e, List.mem_of_getElem? he, hek, h⟩
      · exact .inr (.inr h)
    · exact .inr (.inl (InnerCall.exists_seeds_of_mem_derived cleared.derives hderived))
  · intro key
    simp only [InnerCall.requestOf, mem_distinctBy_id, List.mem_map, List.mem_filter]
    refine ⟨?_, ?_⟩
    · intro h
      obtain ⟨x, ⟨hx, hs⟩, rfl⟩ := h
      exact ⟨_, ⟨x, hx, rfl⟩, hs, rfl⟩
    · intro h
      obtain ⟨_, ⟨x, hx, rfl⟩, hs, rfl⟩ := h
      exact ⟨x, ⟨hx, hs⟩, rfl⟩
  · intro a ha
    obtain ⟨x, hx, rfl⟩ := List.mem_map.1 (mem_of_mem_distinctBy ha)
    refine ⟨⟨x.2, List.mem_of_getElem? (InnerCall.mem_referred.1 hx).2, rfl⟩, ?_⟩
    exact cleared.agree x hx

/-! ## every request of a run -/

/-- The calls that the host gets are the requests of the history, and each of them is within what the
invocation grants to its operation. -/
theorem Logic.requests_within {σ α : Type} (limits : Limits) (i : Invocation) {layout : Layout}
    {t : Table} (bound : Table.bind i.program i.entries layout = .ok t) (host : Host σ) (s : σ)
    (m : Logic α) :
    let f : Frame := ⟨limits, i.program, i.height, i.callStack⟩
    let history := m.history host f ⟨s, t⟩
    (m.run host.traced f ⟨(s, []), t⟩).2.ledger.2 =
        (history.filterMap fun p => p.op.request? f p.table).map .invoke ∧
      ∀ before now after, history = before ++ now :: after →
        ∀ r, now.op.request? f now.table = some r → r.Within limits i before now := by
  intro f history
  refine ⟨?_, ?_⟩
  · have h := m.run_traced host f ⟨s, t⟩ []
    exact congrArg (·.2.ledger.2) h
  · intro before now after hsplit r asked
    have granted := Logic.history_induction (P := fun before t => t.Granted i before) host f
      (fun _ _ _ _ _ step alive ht => ht.of_step step alive) m ⟨s, t⟩ []
      (Table.Granted.of_bind bound) hsplit
    exact Request.within_of_granted granted (Table.binds_iff.1 bound).2.1 asked

/-- an invocation by a signing user -/
def Invocation.errand : Invocation where
  program := .ofNat 9
  entries := [⟨true, true, { key := .ofNat 1, lamports := 500 }⟩, ⟨false, false, .program .system⟩]
  data := []
  height := 1
  callStack := []

/-- the inner call that hands the user on to the System Program -/
def Op.handOver : Op := .invoke .system [⟨0, true, true⟩] [] []

/-- what the host is then asked -/
def Request.handedOver : Request where
  instruction := ⟨.system, [⟨.ofNat 1, true, true⟩], []⟩
  accounts := [{ key := .ofNat 1, lamports := 500 }]
  signers := [.ofNat 1]
  height := 2

theorem Request.handedOver_within : ∃ (t : Table) (done : Bool),
    Table.bind Invocation.errand.program Invocation.errand.entries ⟨"errand", []⟩ = .ok t ∧
      handedOver.Within {} Invocation.errand [] ⟨.handOver, t, done⟩ := by
  have bound : Table.bind Invocation.errand.program Invocation.errand.entries ⟨"errand", []⟩ =
      .ok ⟨Invocation.errand.program, Table.bound [] Invocation.errand.entries⟩ := rfl
  have within := (Logic.requests_within {} Invocation.errand bound Ledger.host Ledger.start
    (Logic.perform .handOver)).2 [] _ [] (Logic.history_perform ..) handedOver rfl
  exact ⟨_, _, bound, within⟩

end AccountLedger
