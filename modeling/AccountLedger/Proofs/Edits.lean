import AccountLedger.Proofs.Mirror
/-!
# What an edit may change

An edit sets a balance, fills a record or makes an account: the operations of business logic that
change the table and ask nothing of the host.  Whether an edit goes through depends on the owner,
the flags and the contents of the handles as earlier edits left them, so its law is stated for one
edit of a sequence, about the table before it and the table after it.

* `Edit.run_cases`: an edit is refused and leaves the table, or it does one thing;
* `Edited.Lawful`: what a refusal leaves, which handles are touched, and for each of them when its
  balance may drop and its data or owner change;
* `Table.Made`: what a payment and a creation leave on the two handles;
* `Edit.lawful_runs`: every edit of every sequence is lawful.
-/

namespace AccountLedger

/-- an operation that changes the table alone, with a size that memory can hold -/
inductive Edit where
  | setLamports (position : Nat) (amount : Amount)
  | save (position : Nat) (expected : Tag) (payload : Bytes)
  | create (payer target : Nat) (space : Fin allocationLimit) (owner : Key)
    (seeds : Option SignerSeeds) (rent : Amount)

/-- an edit as it went -/
structure Edited where
  edit : Edit
  before : Table
  answer : Except (Stop Error) Unit
  after : Table

namespace Edit

variable {σ : Type}

/-- the operation of business logic -/
def op : Edit → Op
  | setLamports position amount => .setLamports position amount
  | save position expected payload => .save position expected payload
  | create payer target space owner seeds rent => .create payer target space owner seeds rent

/-- the positions that an edit names -/
def positions : Edit → List Nat
  | setLamports position _ | save position _ _ => [position]
  | create payer target .. => [payer, target]

/-- performs an edit -/
def ran (host : Host σ) (f : Frame) (scene : Scene σ) (e : Edit) : Edited :=
  ⟨e, scene.table, Op.outcome (e.op.run host f scene).1, (e.op.run host f scene).2.table⟩

/-- performs edits one after the other, whatever became of those before -/
def runs (host : Host σ) (f : Frame) : List Edit → Scene σ → List Edited
  | [], _ => []
  | e :: rest, scene => e.ran host f scene :: runs host f rest (e.op.run host f scene).2

end Edit

/-- what a creation leaves on its two handles -/
structure Table.Made (before after : Table) (payer target space : Nat) (owner : Key)
    (rent : Amount) : Prop where
  apart : payer ≠ target
  /-- the payer had the balance, and has the rest of it -/
  paid : ∃ h h', before.handles[payer]? = some h ∧ after.handles[payer]? = some h' ∧
    rent ≤ h.account.lamports ∧
    h'.account = { h.account with lamports := h.account.lamports - rent }
  /-- the new account has what was paid, zeros and its owner -/
  made : ∃ h h', before.handles[target]? = some h ∧ after.handles[target]? = some h' ∧
    h'.account = { h.account with lamports := rent, data := List.replicate space 0, owner }

namespace Edited

/-- an account was made with the handle at a position -/
def Makes (x : Edited) (i : Nat) : Prop :=
  x.answer = .ok () ∧
    ∃ payer space owner seeds rent, x.edit = .create payer i space owner seeds rent

/-- an account was made and paid for with the handle at a position -/
def Pays (x : Edited) (i : Nat) : Prop :=
  x.answer = .ok () ∧
    ∃ target space owner seeds rent, x.edit = .create i target space owner seeds rent

/-- what an edit may change of a handle that it names -/
structure Allows (x : Edited) (i : Nat) (h h' : Handle) : Prop where
  balance : h'.account.lamports < h.account.lamports →
    h.writable = true ∧
      (h.account.owner = x.before.program ∨ h.signer = true ∧ x.Pays i)
  data : h'.account.data ≠ h.account.data →
    h.writable = true ∧
      ((h.account.owner = x.before.program ∧
          h'.account.data.length = h.account.data.length ∧
          ∃ expected payload, x.edit = .save i expected payload ∧ h.tag = some expected ∧
            h'.account.data = expected.image payload h.account.data.length) ∨
        h.account.isVacant = true ∧ x.Makes i)
  owner : h'.account.owner ≠ h.account.owner →
    h.writable = true ∧ h.account.isVacant = true ∧
      ∃ payer space seeds rent, x.edit = .create payer i space h'.account.owner seeds rent ∧
        (h.signer = true ∨ ∃ s, seeds = some s ∧ s.derive x.before.program = .ok h.key)

/-- an edit that changed nothing but what it may -/
structure Lawful (x : Edited) : Prop where
  refused : ∀ stop, x.answer = .error stop → x.after = x.before
  program : x.after.program = x.before.program
  others : ∀ i, i ∉ x.edit.positions → x.after.handles[i]? = x.before.handles[i]?
  named : ∀ (i : Nat) h, x.before.handles[i]? = some h →
    ∃ h', x.after.handles[i]? = some h' ∧ x.Allows i h h'
  made : ∀ payer target space owner seeds rent,
    x.edit = .create payer target space owner seeds rent → x.answer = .ok () →
      x.before.Made x.after payer target space owner rent

end Edited

/-! ## one edit -/

section Step

variable {σ : Type} {f : Frame} {stop : Stop Error}

theorem Op.onTable_stops {result : Except Error Table} {scene : Scene σ}
    (h : (onTable result scene).1 = .error stop) : (onTable result scene).2 = scene := by
  cases result with
  | ok t => cases h
  | error e => rfl

theorem Table.create_stops {t : Table} {payer target space : Nat} {owner : Key}
    {seeds : Option SignerSeeds} {rent : Amount} (fits : space < allocationLimit)
    (h : (t.create payer target space owner seeds rent).1 = .error stop) :
    (t.create payer target space owner seeds rent).2 = t := by
  unfold create at h ⊢
  cases hc : t.checkCreate payer target seeds rent with
  | error e => rfl
  | ok r =>
    rw [hc, checkAllocation, if_pos fits] at h
    cases h

theorem outcome_eq_error_iff {op : Op} {answer : Except (Stop Error) op.Answer} :
    Op.outcome answer = .error stop ↔ answer = .error stop := by
  cases answer <;> simp [Op.outcome, Except.map]

/-- An edit is refused and leaves the table as it was, or it does one thing and is done. -/
theorem Edit.run_cases (host : Host σ) (f : Frame) (e : Edit) (scene : Scene σ) :
    (∃ stop, Op.outcome (e.op.run host f scene).1 = .error stop ∧
        (e.op.run host f scene).2.table = scene.table) ∨
      Op.outcome (e.op.run host f scene).1 = .ok () ∧
        Table.Step f scene.table e.op (.ok ()) (e.op.run host f scene).2.table := by
  have step := Op.run_step host f e.op scene
  cases h : Op.outcome (e.op.run host f scene).1 with
  | ok u =>
    rw [h] at step
    exact .inr ⟨rfl, step⟩
  | error stop =>
    refine .inl ⟨stop, rfl, ?_⟩
    have hstop := outcome_eq_error_iff.1 h
    cases e with
    | setLamports position amount => exact congrArg Scene.table (Op.onTable_stops hstop)
    | save position expected payload => exact congrArg Scene.table (Op.onTable_stops hstop)
    | create payer target space owner seeds rent => exact Table.create_stops space.isLt hstop

namespace Edited

variable {t t' : Table} {e : Edit} {i position : Nat} {h h' : Handle}

theorem Allows.same {x : Edited} : x.Allows i h h where
  balance hlt := absurd hlt (UInt64.lt_irrefl _)
  data hne := absurd rfl hne
  owner hne := absurd rfl hne

theorem Lawful.of_refused : Lawful ⟨e, t, .error stop, t⟩ where
  refused _ _ := rfl
  program := rfl
  others _ _ := rfl
  named i h here := ⟨h, here, .same⟩
  made _ _ _ _ _ _ _ h := by cases h

/-- An edit of one position is lawful if it does to its handle what it may. -/
theorem Lawful.of_put (one : e.positions = [position])
    (here : t.handles[position]? = some h)
    (allows : Allows ⟨e, t, .ok (), t.put position h'⟩ position h h') :
    Lawful ⟨e, t, .ok (), t.put position h'⟩ where
  refused stop h := by cases h
  program := rfl
  others i hi := by
    rw [one, List.mem_singleton] at hi
    exact Table.getElem?_put_ne (Ne.symm hi)
  named i g hg := by
    by_cases hi : i = position
    · subst hi
      cases here.symm.trans hg
      exact ⟨h', Table.getElem?_put_self here, allows⟩
    · exact ⟨g, (Table.getElem?_put_ne (Ne.symm hi)).trans hg, .same⟩
  made _ _ _ _ _ _ he _ := by
    dsimp only at he
    rw [he] at one
    cases one

/-- A balance is lowered for the owner alone, and nothing else changes with it. -/
theorem Lawful.setLamports {amount : Amount} (here : t.handles[position]? = some h)
    (set : h.setLamports t.program amount = .ok h') :
    Lawful ⟨.setLamports position amount, t, .ok (), t.put position h'⟩ := by
  obtain ⟨hwritable, _, howner, rfl⟩ := Handle.setLamports_eq_ok_iff.1 set
  exact .of_put rfl here
    { balance := fun hlt => ⟨hwritable, .inl (howner hlt)⟩
      data := fun hne => absurd rfl hne
      owner := fun hne => absurd rfl hne }

/-- Data is changed for the owner alone, under the bound schema and at its length. -/
theorem Lawful.save {expected : Tag} {payload : Bytes} (here : t.handles[position]? = some h)
    (saved : h.save t.program expected payload = .ok h') :
    Lawful ⟨.save position expected payload, t, .ok (), t.put position h'⟩ := by
  obtain ⟨hwritable, _, howner, htag, hroom, rfl⟩ := Handle.save_eq_ok_iff.1 saved
  exact .of_put rfl here
    { balance := fun hlt => absurd hlt (UInt64.lt_irrefl _)
      data := fun _ => ⟨hwritable, .inl ⟨howner, Tag.length_image hroom, expected, payload, rfl,
        htag, rfl⟩⟩
      owner := fun hne => absurd rfl hne }

section Create

variable {payer target : Nat} {space : Fin allocationLimit} {owner : Key}
  {seeds : Option SignerSeeds} {rent : Amount} {bySeeds : Bool} {funder fresh : Handle}

theorem account_allocated :
    ((Table.funded bySeeds rent fresh).allocate space owner).account =
      { fresh.account with lamports := rent, data := List.replicate space 0, owner } := by
  simp only [Table.funded, Handle.allocate, Table.account_moveLamports]

/-- The payer of a creation signed, and nothing changes but its balance. -/
theorem Allows.paid (may : t.MayCreate payer target seeds rent bySeeds funder fresh) :
    Allows ⟨.create payer target space owner seeds rent, t, .ok (), t'⟩ payer funder
      (funder.moveLamports (funder.account.lamports - rent)) where
  balance _ := ⟨may.funder_writable, .inr ⟨may.funder_signer, rfl, target, space, owner, seeds,
    rent, rfl⟩⟩
  data hne := by
    rw [Table.account_moveLamports] at hne
    exact absurd rfl hne
  owner hne := by
    rw [Table.account_moveLamports] at hne
    exact absurd rfl hne

/-- The new account of a creation was vacant, and somebody speaks for it. -/
theorem Allows.allocated (may : t.MayCreate payer target seeds rent bySeeds funder fresh) :
    Allows ⟨.create payer target space owner seeds rent, t, .ok (), t'⟩ target fresh
      ((Table.funded bySeeds rent fresh).allocate space owner) where
  balance hlt := by
    rw [account_allocated, (Account.isVacant_iff.1 may.vacant).1] at hlt
    exact absurd hlt (UInt64.not_lt_zero)
  data _ := ⟨may.fresh_writable, .inr ⟨may.vacant, rfl, payer, space, owner, seeds, rent, rfl⟩⟩
  owner _ := by
    refine ⟨may.fresh_writable, may.vacant, payer, space, seeds, rent, rfl, ?_⟩
    rcases may.fresh_signer with hsigner | hseeds
    · exact .inl hsigner
    · rcases Table.speaksFor_eq_ok_iff.1 may.spoken with ⟨_, hno⟩ | ⟨s, hs, hderive, _⟩
      · rw [hno] at hseeds
        cases hseeds
      · exact .inr ⟨s, hs, hderive⟩

/-- A creation touches a payer that signed and a vacant account that somebody speaks for. -/
theorem Lawful.create (may : t.MayCreate payer target seeds rent bySeeds funder fresh) :
    Lawful ⟨.create payer target space owner seeds rent, t, .ok (),
      t.created payer target rent funder
        ((Table.funded bySeeds rent fresh).allocate space owner)⟩ := by
  let fresh' := (Table.funded bySeeds rent fresh).allocate space owner
  have hpayer : (t.created payer target rent funder fresh').handles[payer]? =
      some (funder.moveLamports (funder.account.lamports - rent)) :=
    (Table.getElem?_put_ne may.ne.symm).trans (Table.getElem?_put_self may.funder_at)
  have htarget : (t.created payer target rent funder fresh').handles[target]? = some fresh' :=
    Table.getElem?_put_self ((Table.getElem?_put_ne may.ne).trans may.fresh_at)
  have hothers : ∀ i, i ≠ payer → i ≠ target →
      (t.created payer target rent funder fresh').handles[i]? = t.handles[i]? :=
    fun i hp ht => (Table.getElem?_put_ne (Ne.symm ht)).trans (Table.getElem?_put_ne (Ne.symm hp))
  refine ⟨fun stop h => (by cases h), rfl, ?_, ?_, ?_⟩
  · intro i hi
    have hi : i ∉ [payer, target] := hi
    rw [List.mem_cons, List.mem_singleton, not_or] at hi
    exact hothers i hi.1 hi.2
  · intro i g hg
    by_cases hp : i = payer
    · subst hp
      cases may.funder_at.symm.trans hg
      exact ⟨_, hpayer, .paid may⟩
    · by_cases ht : i = target
      · subst ht
        cases may.fresh_at.symm.trans hg
        exact ⟨_, htarget, .allocated may⟩
      · exact ⟨g, (hothers i hp ht).trans hg, .same⟩
  · intro payer target space owner seeds rent he _
    cases he
    exact ⟨may.ne, ⟨funder, _, may.funder_at, hpayer, may.funds, Table.account_moveLamports _ _⟩,
      ⟨fresh, _, may.fresh_at, htarget, account_allocated⟩⟩

end Create

/-- An edit that is done touches the handles it names, as it may. -/
theorem Lawful.of_step (step : Table.Step f t e.op (.ok ()) t') :
    Lawful ⟨e, t, .ok (), t'⟩ := by
  cases e with
  | setLamports position amount =>
    cases step with
    | look looks => cases looks
    | lamports here set => exact .setLamports here set
    | inner asked => cases asked
  | save position expected payload =>
    cases step with
    | look looks => cases looks
    | save here saved => exact .save here saved
    | inner asked => cases asked
  | create payer target space owner seeds rent =>
    obtain ⟨space, fits⟩ := space
    cases step with
    | look looks => cases looks
    | create may _ => exact .create may
    | inner asked => cases asked

end Edited

end Step

/-! ## sequences -/

namespace Edit

variable {σ : Type}

theorem lawful_ran (host : Host σ) (f : Frame) (scene : Scene σ) (e : Edit) :
    (e.ran host f scene).Lawful := by
  unfold ran
  rcases e.run_cases host f scene with ⟨stop, hanswer, htable⟩ | ⟨hanswer, step⟩
  · rw [hanswer, htable]
    exact .of_refused
  · rw [hanswer]
    exact .of_step step

/-- Every edit of every sequence is lawful, whatever table it starts from and whatever became of
the edits before it. -/
theorem lawful_runs (host : Host σ) (f : Frame) (edits : List Edit) (scene : Scene σ) :
    ∀ x ∈ runs host f edits scene, x.Lawful := by
  induction edits generalizing scene with
  | nil => simp [runs]
  | cons e rest ih => exact List.forall_mem_cons.2 ⟨lawful_ran host f scene e, ih _⟩

/-- a builder, and a vacant account that is to be a hut -/
def site : Table :=
  ⟨.ofNat 9, Table.bound [⟨"builder", .writingSigner, none, false⟩,
      ⟨"hut", .writingSigner, some (.fresh ⟨"Hut", 1⟩), false⟩]
    [⟨true, true, { key := .ofNat 1, lamports := 500 }⟩, ⟨true, true, { key := .ofNat 3 }⟩]⟩

/-- The balance of the builder is not for the program to set, and the hut can be built once; when it is
there, its balance and its data are the program's. -/
def building : List Edit :=
  [.setLamports 0 400, .create 0 1 ⟨9, by decide⟩ (.ofNat 9) none 90, .setLamports 1 80,
    .save 1 ⟨"Hut", 1⟩ [7], .create 0 1 ⟨9, by decide⟩ (.ofNat 9) none 90]

theorem hut_built : ∃ x y,
    let went := runs Ledger.host ⟨{}, .ofNat 9, 1, []⟩ building ⟨Ledger.start, site⟩
    went.map (·.answer.isOk) = [false, true, true, true, false] ∧
      went[1]? = some x ∧ x.before.Made x.after 0 1 9 (.ofNat 9) 90 ∧
      went[3]? = some y ∧ y.after.handles.map (·.account) = [{ key := .ofNat 1, lamports := 410 },
        { key := .ofNat 3, lamports := 80, data := Tag.image ⟨"Hut", 1⟩ [7] 9, owner := .ofNat 9 }] := by
  refine ⟨_, _, rfl, rfl, ?_, rfl, rfl⟩
  exact (lawful_runs Ledger.host ⟨{}, .ofNat 9, 1, []⟩ building ⟨Ledger.start, site⟩ _
    (List.mem_of_getElem? (i := 1) rfl)).made 0 1 ⟨9, by decide⟩ (.ofNat 9) none 90 rfl rfl

end Edit

end AccountLedger
