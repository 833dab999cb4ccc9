import AccountLedger.Proofs.Ungranted
/-!
# What can change a program

A program is not for writing.  Business logic that sets a balance or saves a record is refused, but
the making of an account asks only whether its payer and the new account are writable and sign, and
an inner call gives back whatever was passed to it for writing.

* `Op.Reaches`: the operations that change a handle without asking whether it is a program;
* `Table.Step.spares_executable`: no other operation changes a program;
* `run_spares_executable`: so a program stays as it was bound as long as none of them goes through.
-/

namespace AccountLedger

/-- the operation pays for an account with the position, or makes one at it, or passes its key to a
call for writing -/
inductive Op.Reaches (f : Frame) (t : Table) (position : Nat) : Op → Prop where
  | payer {target space owner seeds rent} :
      Reaches f t position (.create position target space owner seeds rent)
  | made {payer space owner seeds rent} :
      Reaches f t position (.create payer position space owner seeds rent)
  | passed {op r h} (asked : op.request? f t = some r) (here : t.handles[position]? = some h)
      (writable : h.key ∈ InnerCall.writableKeys r.instruction) : Reaches f t position op

namespace Table

variable {f : Frame} {t t' : Table} {op : Op} {result : Except (Stop Error) Unit} {position : Nat}
  {h : Handle}

/-- An operation that does not reach a program leaves its handle as it was. -/
theorem Step.spares_executable (step : Step f t op result t') (here : t.handles[position]? = some h)
    (executable : h.account.executable = true) (uncrashed : ∀ c, result ≠ .error (.crashed c))
    (spared : result = .ok () → ¬ op.Reaches f t position) : t'.handles[position]? = some h := by
  cases step with
  | look looks => exact here
  | refused stop => exact here
  | @lamports other _ g _ there set =>
    have hne : other ≠ position := by
      rintro rfl
      rw [here] at there
      cases there
      rw [(Handle.setLamports_eq_ok_iff.1 set).2.1] at executable
      cases executable
    rw [getElem?_put_ne hne, here]
  | @save other _ _ g _ there saved =>
    have hne : other ≠ position := by
      rintro rfl
      rw [here] at there
      cases there
      rw [(Handle.save_eq_ok_iff.1 saved).2.1] at executable
      cases executable
    rw [getElem?_put_ne hne, here]
  | @create payer target _ _ _ _ _ _ _ may fits =>
    have hpayer : payer ≠ position := by
      rintro rfl
      exact spared rfl .payer
    have htarget : target ≠ position := by
      rintro rfl
      exact spared rfl .made
    rw [created, getElem?_put_ne htarget, getElem?_put_ne hpayer, here]
  | half may => exact absurd rfl (uncrashed _)
  | inner asked same_length kept =>
    rw [InnerCall.adopt, InnerCall.foldl_adoptOne, List.getElem?_map, here, Option.map_some]
    congr 1
    refine Handle.adoptAll_of_ne fun a ha hk => spared rfl (.passed asked here ?_)
    rw [← hk]
    simpa using (List.mem_filter.1 ha).2

end Table

/-! ## runs -/

/-- What every operation preserves that is not a crash holds at the end of a run that is none. -/
theorem Logic.last_induction {α σ : Type} {P : List Performed → Table → Prop}
    (host : Host σ) (f : Frame)
    (step : ∀ before t op result t', Table.Step f t op result t' →
      (∀ c, result ≠ .error (.crashed c)) → P before t →
        P (before ++ [⟨op, t, result.isOk⟩]) t')
    (m : Logic α) (scene : Scene σ) (before : List Performed) (init : P before scene.table)
    (uncrashed : ∀ c, (m.run host f scene).1 ≠ .error (.crashed c)) :
    P (before ++ m.history host f scene) (m.run host f scene).2.table := by
  induction m generalizing scene before with
  | done a => simpa [history, run] using init
  | fail e => simpa [history, run] using init
  | crash c => exact absurd rfl (uncrashed c)
  | call op next ih =>
    have hstep := step before scene.table op _ _ (op.run_step host f scene)
    rw [history_call]
    rw [run] at uncrashed ⊢
    cases hr : op.run host f scene with
    | mk result after =>
      rw [hr] at hstep uncrashed
      cases result with
      | ok answer =>
        have := ih _ after _ (hstep (fun c hc => by cases hc) init) uncrashed
        rwa [List.append_assoc] at this
      | error stop =>
        cases stop with
        | refused e =>
          have := ih _ after _ (hstep (fun c hc => by cases hc) init) uncrashed
          rwa [List.append_assoc] at this
        | crashed c => exact absurd rfl (uncrashed c)

/-- Whatever a host answers, a program that an invocation was given is at no position that the
layout wants for writing, and its handle stays as it was bound, and clean, until an account is made
with its position or its key is passed to a call for writing. -/
theorem Logic.run_spares_executable {σ α : Type} (limits : Limits) (i : Invocation)
    {layout : Layout} {t : Table} (bound : Table.bind i.program i.entries layout = .ok t)
    (host : Host σ) (s : σ) (m : Logic α) {position : Nat} {h : Handle}
    (here : t.handles[position]? = some h) (executable : h.account.executable = true) :
    let f : Frame := ⟨limits, i.program, i.height, i.callStack⟩
    let performed := m.history host f ⟨s, t⟩
    let ending := m.run host f ⟨s, t⟩
    (∀ spec, layout.specs[position]? = some spec → spec.access.writable = false) ∧
      h.dirty = {} ∧
      (∀ front now rest, performed = front ++ now :: rest →
        (∀ p ∈ front, p.done = true → ¬ p.op.Reaches f p.table position) →
          now.table.handles[position]? = some h) ∧
      ((∀ p ∈ performed, p.done = true → ¬ p.op.Reaches f p.table position) →
        (∀ c, ending.1 ≠ .error (.crashed c)) → ending.2.table.handles[position]? = some h) := by
  intro f performed ending
  have step : ∀ before t op result t', Table.Step f t op result t' →
      (∀ c, result ≠ .error (.crashed c)) →
        ((∀ p ∈ before, p.done = true → ¬ p.op.Reaches f p.table position) →
          t.handles[position]? = some h) →
        (∀ p ∈ before ++ [(⟨op, t, result.isOk⟩ : Performed)], p.done = true →
          ¬ p.op.Reaches f p.table position) → t'.handles[position]? = some h := by
    intro before t op result t' step uncrashed ih spared
    have hbefore := ih fun p hp => spared p (List.mem_append_left _ hp)
    refine step.spares_executable hbefore executable uncrashed fun hok => ?_
    exact spared ⟨op, t, result.isOk⟩ (List.mem_append_right _ (List.mem_singleton.2 rfl))
      (by rw [hok]; rfl)
  refine ⟨?_, ?_, ?_, ?_⟩
  · intro spec hspec
    obtain ⟨_, _, checked, rfl⟩ := Table.binds_iff.1 bound
    obtain ⟨e, he, hb⟩ := Table.getElem?_bound here
    have hcheck := checked position spec e hspec he
    rw [hb.account] at executable
    cases hw : spec.access.writable with
    | false => rfl
    | true =>
      simp only [Table.checkEntry, hw, executable, Bool.and_self] at hcheck
      split at hcheck
      · cases hcheck
      · split at hcheck
        · cases hcheck
        · simp at hcheck
  · obtain ⟨_, _, _, rfl⟩ := Table.binds_iff.1 bound
    obtain ⟨_, _, hb⟩ := Table.getElem?_bound here
    exact hb.clean
  · intro front now rest hsplit
    exact history_induction host f step m ⟨s, t⟩ [] (fun _ => here) hsplit
  · intro spared uncrashed
    exact last_induction host f step m ⟨s, t⟩ [] (fun _ => here) uncrashed spared

theorem Invocation.errand_keeps_program : ∃ t h,
    Table.bind errand.program errand.entries ⟨"errand", []⟩ = .ok t ∧ t.handles[1]? = some h ∧
      h.account.executable = true ∧
      ((Logic.perform .handOver).run (Host.renaming .system)
        ⟨{}, errand.program, errand.height, errand.callStack⟩ ⟨(), t⟩).2.table.handles[1]? =
          some h := by
  let t : Table := ⟨errand.program, Table.bound [] errand.entries⟩
  have bound : Table.bind errand.program errand.entries ⟨"errand", []⟩ = .ok t := rfl
  have returns : ((Logic.perform .handOver).run (Host.renaming .system)
      ⟨{}, errand.program, errand.height, errand.callStack⟩ ⟨(), t⟩).1.isOk = true := by
    decide +kernel
  refine ⟨t, _, bound, rfl, rfl, ?_⟩
  refine (Logic.run_spares_executable {} errand bound (Host.renaming .system) ()
    (Logic.perform .handOver) rfl rfl).2.2.2 ?_ ?_
  · intro p hp hdone reached
    rw [Logic.history_perform, List.mem_singleton] at hp
    subst hp
    -- the user alone is passed for writing
    cases reached with
    | passed asked here writable =>
      cases (show some Request.handedOver = some _ from asked)
      cases here
      exact absurd writable (by decide)
  · intro c hc
    rw [hc] at returns
    cases returns

/-- an invocation by a program that signs, with an account to be made -/
def Invocation.venture : Invocation where
  program := .ofNat 9
  entries := [⟨true, true, { key := .ofNat 2, lamports := 100, executable := true }⟩,
    ⟨true, true, .vacant (.ofNat 3)⟩]
  data := []
  height := 1
  callStack := []

/-- The program pays for the account, though it is a program. -/
theorem Invocation.venture_spends_program : ∃ t t' h h',
    Table.bind venture.program venture.entries ⟨"venture", []⟩ = .ok t ∧
      t.create 0 1 0 .system none 10 = (.ok (), t') ∧
      t.handles[0]? = some h ∧ h.account.executable = true ∧ h.account.lamports = 100 ∧
      t'.handles[0]? = some h' ∧ h'.account.lamports = 90 ∧ h'.isDirty = true :=
  ⟨_, _, _, _, rfl, rfl, rfl, rfl, rfl, rfl, rfl, rfl⟩

end AccountLedger
