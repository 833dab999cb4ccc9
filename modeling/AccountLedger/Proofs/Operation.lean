import AccountLedger.Proofs.Creation
import AccountLedger.Proofs.History
import AccountLedger.Proofs.InnerCall
/-!
# What an operation does to the table

`Table.Step` lists all that an operation of business logic can do to the table, with what it needed
to do so, and `Handle.Changed` what it can do to one handle.  Every invariant of business logic is a
case analysis on one of them.

* `Op.run_step`: an operation does one of these things; no other proof opens the operations;
* `Table.Step.changed`: every handle is the one that was at its position, changed;
* `Logic.history_induction`: what every operation preserves holds at every point of a history.
-/

namespace AccountLedger

/-! ## handles -/

namespace Handle

variable {h h' : Handle} {program : Key}

theorem require_eq_ok_iff {held : Bool} {missing : Capability} :
    require held missing = .ok () ↔ held = true := by
  unfold require
  split <;> simp_all

theorem requireModifiable_eq_ok_iff :
    h.requireModifiable = .ok () ↔ h.writable = true ∧ h.account.executable = false := by
  simp only [requireModifiable, bind_eq_ok_iff, exists_unit, require_eq_ok_iff, Bool.not_eq_true']

theorem setLamports_eq_ok_iff {amount : Amount} :
    h.setLamports program amount = .ok h' ↔
      h.writable = true ∧ h.account.executable = false ∧
        (amount < h.account.lamports → h.account.owner = program) ∧
        h' = { h with
          account := { h.account with lamports := amount }
          dirty := { h.dirty with lamports := true } } := by
  simp only [setLamports, bind_eq_ok_iff, exists_unit, requireModifiable_eq_ok_iff]
  by_cases hl : amount < h.account.lamports
  · simp only [if_pos hl, bind_eq_ok_iff, exists_unit, require_eq_ok_iff, pure_eq_ok_iff,
      decide_eq_true_eq]
    refine ⟨?_, ?_⟩
    · intro h
      obtain ⟨⟨hw, hx⟩, ho, rfl⟩ := h
      exact ⟨hw, hx, fun _ => ho, rfl⟩
    · intro h
      obtain ⟨hw, hx, ho, rfl⟩ := h
      exact ⟨⟨hw, hx⟩, ho hl, rfl⟩
  · simp only [if_neg hl, pure_eq_ok_iff]
    refine ⟨?_, ?_⟩
    · intro h
      obtain ⟨⟨hw, hx⟩, rfl⟩ := h
      exact ⟨hw, hx, fun h => absurd h hl, rfl⟩
    · intro h
      obtain ⟨hw, hx, _, rfl⟩ := h
      exact ⟨⟨hw, hx⟩, rfl⟩

theorem boundTag_eq_ok_iff {expected tag : Tag} :
    h.boundTag expected = .ok tag ↔ h.tag = some expected ∧ tag = expected := by
  unfold boundTag
  cases h.tag with
  | none => simp
  | some bound =>
    by_cases hb : bound = expected
    · simp [hb, eq_comm]
    · simp [hb]

theorem save_eq_ok_iff {expected : Tag} {payload : Bytes} :
    h.save program expected payload = .ok h' ↔
      h.writable = true ∧ h.account.executable = false ∧ h.account.owner = program ∧
        h.tag = some expected ∧ 8 + payload.length ≤ h.account.data.length ∧
        h' = { h with
          account := { h.account with data := expected.image payload h.account.data.length }
          dirty := { h.dirty with data := true } } := by
  simp only [save, bind_eq_ok_iff, exists_unit, requireModifiable_eq_ok_iff, require_eq_ok_iff,
    boundTag_eq_ok_iff, mapError_eq_ok_iff, Tag.refill_eq_ok_iff, pure_eq_ok_iff, decide_eq_true_eq]
  refine ⟨?_, ?_⟩
  · intro h
    obtain ⟨⟨hw, hx⟩, ho, _, ⟨ht, rfl⟩, data, ⟨hroom, rfl⟩, rfl⟩ := h
    exact ⟨hw, hx, ho, ht, hroom, rfl⟩
  · intro h
    obtain ⟨hw, hx, ho, ht, hroom, rfl⟩ := h
    exact ⟨⟨hw, hx⟩, ho, _, ⟨ht, rfl⟩, _, ⟨hroom, rfl⟩, rfl⟩

end Handle

/-! ## tables -/

/-- an operation that only looks -/
def Op.looks : Op → Bool
  | .look | .minimumBalance _ | .findAddress _ => true
  | _ => false

/-- what an operation can do to the table, and how it answers when it does -/
inductive Table.Step (f : Frame) (t : Table) : Op → Except (Stop Error) Unit → Table → Prop where
  | look {op result} (looks : op.looks = true) : Step f t op result t
  | refused {op} (stop : Stop Error) : Step f t op (.error stop) t
  | lamports {position amount h h'} (here : t.handles[position]? = some h)
      (set : h.setLamports t.program amount = .ok h') :
      Step f t (.setLamports position amount) (.ok ()) (t.put position h')
  | save {position expected payload h h'} (here : t.handles[position]? = some h)
      (saved : h.save t.program expected payload = .ok h') :
      Step f t (.save position expected payload) (.ok ()) (t.put position h')
  | create {payer target space owner seeds rent bySeeds funder fresh}
      (may : t.MayCreate payer target seeds rent bySeeds funder fresh)
      (fits : space < allocationLimit) :
      Step f t (.create payer target space owner seeds rent) (.ok ())
        (t.created payer target rent funder ((funded bySeeds rent fresh).allocate space owner))
  | half {payer target space owner seeds rent bySeeds funder fresh}
      (may : t.MayCreate payer target seeds rent bySeeds funder fresh) :
      Step f t (.create payer target space owner seeds rent) (.error (.crashed .capacity))
        (t.created payer target rent funder (funded bySeeds rent fresh))
  | inner {op r after} (asked : op.request? f t = some r)
      (same_length : after.length = r.accounts.length)
      (kept : InnerCall.trespass? (InnerCall.writableKeys r.instruction) r.accounts after = none) :
      Step f t op (.ok ()) (InnerCall.adopt (InnerCall.writableKeys r.instruction) after t)

namespace InnerCall

variable {σ : Type}

/-- An inner call that is carried out was asked of the host, and its result was taken over. -/
theorem invoke_cases (host : Host σ) (f : Frame) (target : Key) (refs : List Ref)
    (seeds : List SignerSeeds) (data : Bytes) (s : σ) (t : Table) :
    (∃ stop, (invoke host f target refs seeds data s t).1 = .error stop) ∨
      ∃ r after, request f t target refs seeds data = .ok r ∧
        after.length = r.accounts.length ∧
        trespass? (writableKeys r.instruction) r.accounts after = none ∧
        (invoke host f target refs seeds data s t).1 =
          .ok (adopt (writableKeys r.instruction) after t) := by
  unfold invoke
  cases hr : request f t target refs seeds data with
  | error stop => exact .inl ⟨stop, rfl⟩
  | ok r =>
    cases hc : conclude r
      (host.invoke s r.instruction r.accounts.toArray.toVector r.signers r.height).1 t with
    | error stop => exact .inl ⟨stop, hc⟩
    | ok t' =>
      obtain ⟨_, ht, rfl⟩ := conclude_eq_ok_iff.1 hc
      exact .inr ⟨r, _, rfl, by simp, ht, hc⟩

end InnerCall

namespace Op

variable {σ : Type}

/-- the answer with what it carries left out -/
def outcome {op : Op} (answer : Except (Stop Error) op.Answer) : Except (Stop Error) Unit :=
  answer.map fun _ => ()

theorem onBoth_step {f : Frame} {op : Op} {scene : Scene σ}
    {result : Except (Stop Error) Table × σ}
    (h : (∃ stop, result.1 = .error stop) ∨ ∃ t, result.1 = .ok t ∧
      Table.Step f scene.table op (.ok ()) t) :
    Table.Step f scene.table op ((onBoth result scene).1.map fun _ => ())
      (onBoth result scene).2.table := by
  obtain ⟨result, s⟩ := result
  rcases h with ⟨stop, rfl⟩ | ⟨t, rfl, hs⟩
  · exact .refused stop
  · exact hs

theorem run_step (host : Host σ) (f : Frame) (op : Op) (scene : Scene σ) :
    Table.Step f scene.table op (outcome (op.run host f scene).1)
      (op.run host f scene).2.table := by
  cases op with
  | look => exact .look rfl
  | minimumBalance space => exact .look rfl
  | findAddress seeds =>
    have h : (run host f scene (.findAddress seeds)).2 = scene := by
      simp only [run]
      split
      · rfl
      · split <;> rfl
    rw [h]
    exact .look rfl
  | setLamports position amount =>
    simp only [run]
    cases hs : scene.table.setLamports position amount with
    | error e => exact .refused _
    | ok t =>
      obtain ⟨h, h', here, set, rfl⟩ := Table.update_eq_ok_iff.1 hs
      exact .lamports here set
  | save position expected payload =>
    simp only [run]
    cases hs : scene.table.save position expected payload with
    | error e => exact .refused _
    | ok t =>
      obtain ⟨h, h', here, saved, rfl⟩ := Table.update_eq_ok_iff.1 hs
      exact .save here saved
  | create payer target space owner seeds rent =>
    simp only [run]
    rcases Table.create_cases scene.table payer target space owner seeds rent with
      ⟨e, h⟩ | ⟨bySeeds, funder, fresh, may, ⟨fits, h⟩ | h⟩
    · rw [h]; exact .refused _
    · rw [h]; exact .create may fits
    · rw [h]; exact .half may
  | invoke target refs seeds data =>
    apply onBoth_step
    rcases InnerCall.invoke_cases host f target refs seeds data scene.ledger scene.table with
      h | ⟨r, after, hr, hl, ht, h⟩
    · exact .inl h
    · exact .inr ⟨_, h, .inner (by rw [request?, hr]; rfl) hl ht⟩
  | invokeInstruction i seeds =>
    apply onBoth_step
    unfold InnerCall.invokeInstruction
    cases hi : InnerCall.refsOf scene.table i.metas with
    | error e => exact .inl ⟨_, rfl⟩
    | ok refs =>
      rcases InnerCall.invoke_cases host f i.program refs seeds i.data scene.ledger
        scene.table with h | ⟨r, after, hr, hl, ht, h⟩
      · exact .inl h
      · exact .inr ⟨_, h, .inner (by simp only [request?, hi, hr]; rfl) hl ht⟩

end Op

/-! ## what an operation does to one handle -/

/-- every update for the handle's key is taken over, in order -/
def Handle.adoptAll (updates : List Account) (h : Handle) : Handle :=
  updates.foldl (fun h a => if h.key = a.key then h.adopt a else h) h

theorem InnerCall.foldl_adoptOne (updates : List Account) (handles : List Handle) :
    updates.foldl (fun hs a => adoptOne a hs) handles = handles.map (·.adoptAll updates) := by
  induction updates generalizing handles with
  | nil => exact (List.map_id handles).symm
  | cons a rest ih =>
    rw [List.foldl_cons, ih, adoptOne, List.map_map]
    rfl

/-- what an operation, with its answer, can do to a handle of the table -/
inductive Handle.Changed (f : Frame) (t : Table) :
    Op → Except (Stop Error) Unit → Handle → Handle → Prop where
  | same {op result h} : Changed f t op result h h
  | lamports {position amount h h'} (set : h.setLamports t.program amount = .ok h') :
      Changed f t (.setLamports position amount) (.ok ()) h h'
  | save {position expected payload h h'} (saved : h.save t.program expected payload = .ok h') :
      Changed f t (.save position expected payload) (.ok ()) h h'
  | paid {payer target space owner seeds rent bySeeds funder fresh result}
      (may : t.MayCreate payer target seeds rent bySeeds funder fresh) :
      Changed f t (.create payer target space owner seeds rent) result funder
        (funder.moveLamports (funder.account.lamports - rent))
  | allocated {payer target space owner seeds rent bySeeds funder fresh}
      (may : t.MayCreate payer target seeds rent bySeeds funder fresh) :
      Changed f t (.create payer target space owner seeds rent) (.ok ()) fresh
        ((Table.funded bySeeds rent fresh).allocate space owner)
  | half {payer target space owner seeds rent bySeeds funder fresh}
      (may : t.MayCreate payer target seeds rent bySeeds funder fresh) :
      Changed f t (.create payer target space owner seeds rent) (.error (.crashed .capacity)) fresh
        (Table.funded bySeeds rent fresh)
  | adopted {op r h updates} (asked : op.request? f t = some r)
      (within : ∀ a ∈ updates, a.key ∈ InnerCall.writableKeys r.instruction) :
      Changed f t op (.ok ()) h (h.adoptAll updates)

namespace Table

variable {f : Frame} {t t' : Table} {op : Op} {result : Except (Stop Error) Unit} {i : Nat}

theorem getElem?_put_self {position : Nat} {g h : Handle} (here : t.handles[position]? = some h) :
    (t.put position g).handles[position]? = some g := by
  rw [handles_put, List.getElem?_set_self (List.getElem?_eq_some_iff.1 here).1]

theorem getElem?_put_ne {position : Nat} {g : Handle} (ne : position ≠ i) :
    (t.put position g).handles[i]? = t.handles[i]? := by
  rw [handles_put, List.getElem?_set_ne ne]

theorem getElem?_put {position : Nat} {g h' : Handle}
    (here : (t.put position g).handles[i]? = some h') :
    i = position ∧ h' = g ∨ t.handles[i]? = some h' := by
  rw [handles_put, List.getElem?_set] at here
  by_cases hp : position = i
  · rw [if_pos hp] at here
    split at here
    · exact .inl ⟨hp.symm, (Option.some.inj here).symm⟩
    · cases here
  · rw [if_neg hp] at here
    exact .inr here

theorem getElem?_created {payer target : Nat} {rent : Amount} {funder made h' : Handle}
    (here : (t.created payer target rent funder made).handles[i]? = some h') :
    i = target ∧ h' = made ∨
      i = payer ∧ h' = funder.moveLamports (funder.account.lamports - rent) ∨
        t.handles[i]? = some h' := by
  rcases getElem?_put here with h | h
  · exact .inl h
  · exact .inr (getElem?_put h)

theorem Step.program_eq (step : Step f t op result t') : t'.program = t.program := by
  cases step <;> rfl

theorem Step.length_eq (step : Step f t op result t') : t'.handles.length = t.handles.length := by
  cases step with
  | look | refused => rfl
  | lamports | save => exact List.length_set
  | create | half => exact List.length_set.trans List.length_set
  | inner => rw [InnerCall.adopt, InnerCall.foldl_adoptOne, List.length_map]

/-- Every handle after an operation is the one that was at its position, changed. -/
theorem Step.changed (step : Step f t op result t') {h' : Handle}
    (here : t'.handles[i]? = some h') :
    ∃ h, t.handles[i]? = some h ∧ h.Changed f t op result h' := by
  cases step with
  | look looks => exact ⟨h', here, .same⟩
  | refused stop => exact ⟨h', here, .same⟩
  | lamports hp set =>
    rcases getElem?_put here with ⟨rfl, rfl⟩ | h
    · exact ⟨_, hp, .lamports set⟩
    · exact ⟨h', h, .same⟩
  | save hp saved =>
    rcases getElem?_put here with ⟨rfl, rfl⟩ | h
    · exact ⟨_, hp, .save saved⟩
    · exact ⟨h', h, .same⟩
  | create may fits =>
    rcases getElem?_created here with ⟨rfl, rfl⟩ | ⟨rfl, rfl⟩ | h
    · exact ⟨_, may.fresh_at, .allocated may⟩
    · exact ⟨_, may.funder_at, .paid may⟩
    · exact ⟨h', h, .same⟩
  | half may =>
    rcases getElem?_created here with ⟨rfl, rfl⟩ | ⟨rfl, rfl⟩ | h
    · exact ⟨_, may.fresh_at, .half may⟩
    · exact ⟨_, may.funder_at, .paid may⟩
    · exact ⟨h', h, .same⟩
  | inner asked same_length kept =>
    rw [InnerCall.adopt, InnerCall.foldl_adoptOne, List.getElem?_map] at here
    obtain ⟨h, hh, rfl⟩ := Option.map_eq_some_iff.1 here
    refine ⟨h, hh, .adopted asked fun a ha => ?_⟩
    simpa using (List.mem_filter.1 ha).2

end Table

namespace Handle

theorem adoptAll_induction {P : Handle → Prop} (updates : List Account)
    (step : ∀ (h : Handle), ∀ a ∈ updates, h.key = a.key → P h → P (h.adopt a)) {h : Handle}
    (ph : P h) : P (h.adoptAll updates) := by
  unfold adoptAll
  induction updates generalizing h with
  | nil => exact ph
  | cons a rest ih =>
    rw [List.foldl_cons]
    apply ih fun h b hb => step h b (List.mem_cons_of_mem _ hb)
    split
    · rename_i hk
      exact step h a (List.mem_cons_self ..) hk ph
    · exact ph

theorem moveLamports_flags (amount : Amount) (h : Handle) :
    (h.moveLamports amount).signer = h.signer ∧ (h.moveLamports amount).writable = h.writable := by
  unfold moveLamports
  split <;> exact ⟨rfl, rfl⟩

variable {f : Frame} {t : Table} {op : Op} {result : Except (Stop Error) Unit} {h h' : Handle}

/-- A handle stays the handle of its account, and is as writable as it was bound. -/
theorem Changed.fixed (change : h.Changed f t op result h') :
    h'.key = h.key ∧ h'.writable = h.writable := by
  cases change with
  | same => exact ⟨rfl, rfl⟩
  | lamports set =>
    obtain ⟨_, _, _, rfl⟩ := setLamports_eq_ok_iff.1 set
    exact ⟨rfl, rfl⟩
  | save saved =>
    obtain ⟨_, _, _, _, _, rfl⟩ := save_eq_ok_iff.1 saved
    exact ⟨rfl, rfl⟩
  | paid may => exact ⟨key_moveLamports _ _, (moveLamports_flags _ _).2⟩
  | allocated may => exact ⟨key_moveLamports _ _, (moveLamports_flags _ _).2⟩
  | half may => exact ⟨key_moveLamports _ _, (moveLamports_flags _ _).2⟩
  | adopted asked within =>
    exact adoptAll_induction (P := fun g => g.key = h.key ∧ g.writable = h.writable) _
      (fun _ _ _ _ hg => hg) ⟨rfl, rfl⟩

/-- A handle that signs did so before, or an account was made at it with seeds of its key. -/
theorem Changed.signer (change : h.Changed f t op result h') (hs : h'.signer = true) :
    h.signer = true ∨
      (result = .ok () ∨ ∃ c, result = .error (.crashed c)) ∧
        ∃ payer target space owner seeds rent,
          op = .create payer target space owner (some seeds) rent ∧
            seeds.derive t.program = .ok h.key := by
  have hseeds : ∀ {payer target space owner seeds rent bySeeds funder},
      t.MayCreate payer target seeds rent bySeeds funder h → (h.signer || bySeeds) = true →
        h.signer = true ∨ ∃ payer' target' space' owner' seeds' rent',
          Op.create payer target space owner seeds rent =
            .create payer' target' space' owner' (some seeds') rent' ∧
              seeds'.derive t.program = .ok h.key := by
    intro payer target space owner seeds rent bySeeds funder may hs
    rcases Bool.or_eq_true_iff.1 hs with hs | hs
    · exact .inl hs
    · rcases Table.speaksFor_eq_ok_iff.1 may.spoken with ⟨_, hb⟩ | ⟨s, rfl, hd, _⟩
      · rw [hs] at hb; cases hb
      · exact .inr ⟨_, _, _, _, s, _, rfl, hd⟩
  cases change with
  | same => exact .inl hs
  | lamports set =>
    obtain ⟨_, _, _, rfl⟩ := setLamports_eq_ok_iff.1 set
    exact .inl hs
  | save saved =>
    obtain ⟨_, _, _, _, _, rfl⟩ := save_eq_ok_iff.1 saved
    exact .inl hs
  | paid may =>
    rw [(moveLamports_flags _ _).1] at hs
    exact .inl hs
  | allocated may =>
    exact (hseeds may ((moveLamports_flags _ _).1.symm.trans hs)).imp id
      fun made => ⟨.inl rfl, made⟩
  | half may =>
    exact (hseeds may ((moveLamports_flags _ _).1.symm.trans hs)).imp id
      fun made => ⟨.inr ⟨_, rfl⟩, made⟩
  | adopted asked within =>
    exact .inl (adoptAll_induction (P := fun g => g.signer = true → h.signer = true) _
      (fun _ _ _ _ hg => hg) id hs)

end Handle

/-! ## histories -/

/-- the history of an operation, and of what comes after it unless it is a crash -/
theorem Logic.history_call {α : Type} {σ : Type} (host : Host σ) (f : Frame) (op : Op)
    (next : Except Error op.Answer → Logic α) (scene : Scene σ) :
    (call op next).history host f scene =
      ⟨op, scene.table, (Op.outcome (op.run host f scene).1).isOk⟩ ::
        match op.run host f scene with
        | (.ok answer, after) => (next (.ok answer)).history host f after
        | (.error (.refused e), after) => (next (.error e)).history host f after
        | (.error (.crashed _), _) => [] := by
  simp only [history]
  cases op.run host f scene with
  | mk result after =>
    cases result with
    | ok answer => rfl
    | error stop => cases stop <;> rfl

theorem Logic.history_perform {σ : Type} (host : Host σ) (f : Frame) (op : Op)
    (scene : Scene σ) :
    (perform op).history host f scene =
      [⟨op, scene.table, (Op.outcome (op.run host f scene).1).isOk⟩] := by
  rw [perform, history_call]
  cases op.run host f scene with
  | mk result after =>
    cases result with
    | ok answer => rfl
    | error stop => cases stop <;> rfl

/-- What every operation preserves that is not a crash, of the table and of all that was performed
before, holds whenever an operation is performed. -/
theorem Logic.history_induction {α : Type} {σ : Type} {P : List Performed → Table → Prop}
    (host : Host σ) (f : Frame)
    (step : ∀ before t op result t', Table.Step f t op result t' →
      (∀ c, result ≠ .error (.crashed c)) → P before t →
        P (before ++ [⟨op, t, result.isOk⟩]) t')
    (m : Logic α) (scene : Scene σ) (before : List Performed) (init : P before scene.table)
    {front rest : List Performed} {now : Performed}
    (h : m.history host f scene = front ++ now :: rest) : P (before ++ front) now.table := by
  induction m generalizing scene before front with
  | done a => cases front <;> cases h
  | fail e => cases front <;> cases h
  | crash c => cases front <;> cases h
  | call op next ih =>
    rw [history_call] at h
    rcases List.cons_eq_append_iff.1 h with ⟨rfl, hnow⟩ | ⟨tail, rfl, htail⟩
    · cases hnow
      rw [List.append_nil]
      exact init
    · have hstep := step before scene.table op _ _ (op.run_step host f scene)
      cases hr : op.run host f scene with
      | mk result after =>
        rw [hr] at htail hstep
        cases result with
        | ok answer =>
          have := ih _ after _ (hstep (fun c hc => by cases hc) init) htail
          rwa [List.append_assoc] at this
        | error stop =>
          cases stop with
          | refused e =>
            have := ih _ after _ (hstep (fun c hc => by cases hc) init) htail
            rwa [List.append_assoc] at this
          | crashed c => cases tail <;> cases htail

end AccountLedger
