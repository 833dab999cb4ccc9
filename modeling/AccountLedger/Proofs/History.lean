import AccountLedger.Logic
/-!
# What business logic did

The history of a run lists the operations that were performed, in order, each with the table that it
found.  A host sees of them only the inner calls whose checks passed, so its calls during a run can
be read off the history.

* `run_induction`: what every operation preserves, a run preserves;
* `run_traced`: the calls that a host gets while business logic runs are the requests of its
  history, and watching them changes nothing.
-/

namespace AccountLedger

/-- a call that can change the state of a host -/
inductive Effect where
  | take
  | invoke (request : Request)
  | settle (writes : List Write)

/-- the host with all calls on record that can change its state -/
def Host.traced {σ : Type} (host : Host σ) : Host (σ × List Effect) where
  take s := ((host.take s.1).1, (host.take s.1).2, s.2 ++ [.take])
  executing s := host.executing s.1
  minimumBalance s := host.minimumBalance s.1
  invoke s i _ accounts signers height :=
    ((host.invoke s.1 i accounts signers height).1, (host.invoke s.1 i accounts signers height).2,
      s.2 ++ [.invoke ⟨i, accounts.toList, signers, height⟩])
  settle s writes := ((host.settle s.1 writes).1, (host.settle s.1 writes).2, s.2 ++ [.settle writes])
  findAddress s := host.findAddress s.1

/-- an operation that business logic performed -/
structure Performed where
  op : Op
  /-- the table before it -/
  table : Table
  /-- it was neither refused nor a crash -/
  done : Bool

namespace Op

variable {σ : Type}

/-- what the operation asks of the host, if it is an inner call whose checks pass -/
def request? (f : Frame) (t : Table) : Op → Option Request
  | .invoke target refs seeds data => (InnerCall.request f t target refs seeds data).toOption
  | .invokeInstruction i seeds =>
    match InnerCall.refsOf t i.metas with
    | .ok refs => (InnerCall.request f t i.program refs seeds i.data).toOption
    | .error _ => none
  | _ => none

/-- a scene of the watched host, from one of the host and what was recorded -/
def watch (scene : Scene σ) (log : List Effect) : Scene (σ × List Effect) :=
  ⟨(scene.ledger, log), scene.table⟩

theorem invoke_traced (host : Host σ) (f : Frame) (target : Key) (refs : List Ref)
    (seeds : List SignerSeeds) (data : Bytes) (s : σ) (log : List Effect) (t : Table) :
    InnerCall.invoke host.traced f target refs seeds data (s, log) t =
      ((InnerCall.invoke host f target refs seeds data s t).1,
        (InnerCall.invoke host f target refs seeds data s t).2,
        log ++ (InnerCall.request f t target refs seeds data).toOption.toList.map .invoke) := by
  unfold InnerCall.invoke
  cases h : InnerCall.request f t target refs seeds data with
  | error stop => simp [Except.toOption]
  | ok r => simp [Except.toOption, Host.traced]

theorem onBoth_traced (result : Except (Stop Error) Table × σ) (scene : Scene σ)
    (log added : List Effect) :
    onBoth (result.1, result.2, log ++ added) (watch scene log) =
      ((onBoth result scene).1, watch (onBoth result scene).2 (log ++ added)) := by
  obtain ⟨result, s⟩ := result
  cases result <;> rfl

theorem onBoth_ledger (result : Except (Stop Error) Table × σ) (scene : Scene σ) :
    (onBoth result scene).2.ledger = result.2 := by
  obtain ⟨result, s⟩ := result
  cases result <;> rfl

theorem invoke_ledger (host : Host σ) (f : Frame) (target : Key) (refs : List Ref)
    (seeds : List SignerSeeds) (data : Bytes) (s : σ) (t : Table) :
    (InnerCall.invoke host f target refs seeds data s t).2 =
      match (InnerCall.request f t target refs seeds data).toOption with
      | some r => (host.invoke s r.instruction r.accounts.toArray.toVector r.signers r.height).2
      | none => s := by
  unfold InnerCall.invoke
  cases InnerCall.request f t target refs seeds data <;> rfl

theorem run_traced (host : Host σ) (f : Frame) (op : Op) (scene : Scene σ) (log : List Effect) :
    op.run host.traced f (watch scene log) =
      ((op.run host f scene).1,
        watch (op.run host f scene).2 (log ++ (op.request? f scene.table).toList.map .invoke)) := by
  cases op with
  | look => simp [run, watch, request?]
  | minimumBalance space => simp [run, watch, request?, Host.traced]
  | findAddress seeds =>
    simp only [run, request?, Option.toList_none, List.map_nil, List.append_nil]
    cases Address.checkLimits seeds with
    | error e => rfl
    | ok u =>
      have hf : host.traced.findAddress (watch scene log).ledger seeds f.program =
        host.findAddress scene.ledger seeds f.program := rfl
      simp only [hf]
      cases host.findAddress scene.ledger seeds f.program <;> rfl
  | setLamports position amount =>
    simp only [run, request?, Option.toList_none, List.map_nil, List.append_nil]
    show onTable (scene.table.setLamports position amount) _ = _
    cases scene.table.setLamports position amount <;> rfl
  | save position expected payload =>
    simp only [run, request?, Option.toList_none, List.map_nil, List.append_nil]
    show onTable (scene.table.save position expected payload) _ = _
    cases scene.table.save position expected payload <;> rfl
  | create payer target space owner seeds rent =>
    simp only [run, request?, Option.toList_none, List.map_nil, List.append_nil]
    rfl
  | invoke target refs seeds data =>
    show onBoth (InnerCall.invoke host.traced f target refs seeds data (scene.ledger, log)
      scene.table) _ = _
    rw [invoke_traced, onBoth_traced]
    rfl
  | invokeInstruction i seeds =>
    show onBoth (InnerCall.invokeInstruction host.traced f i seeds (scene.ledger, log)
      scene.table) _ = _
    simp only [run, request?, InnerCall.invokeInstruction]
    cases InnerCall.refsOf scene.table i.metas with
    | error e => simp [onBoth, watch]
    | ok refs =>
      simp only
      rw [invoke_traced, onBoth_traced]

/-- The host's state changes in the call of a request, and in nothing else. -/
theorem run_ledger (host : Host σ) (f : Frame) (op : Op) (scene : Scene σ) :
    (op.run host f scene).2.ledger =
      match op.request? f scene.table with
      | some r =>
        (host.invoke scene.ledger r.instruction r.accounts.toArray.toVector r.signers r.height).2
      | none => scene.ledger := by
  cases op with
  | look => rfl
  | minimumBalance space => rfl
  | findAddress seeds =>
    simp only [run, request?]
    split
    · rfl
    · split <;> rfl
  | setLamports position amount =>
    simp only [run, request?]
    cases scene.table.setLamports position amount <;> rfl
  | save position expected payload =>
    simp only [run, request?]
    cases scene.table.save position expected payload <;> rfl
  | create payer target space owner seeds rent => rfl
  | invoke target refs seeds data =>
    simp only [run, request?, onBoth_ledger]
    exact invoke_ledger host f target refs seeds data scene.ledger scene.table
  | invokeInstruction i seeds =>
    simp only [run, request?, onBoth_ledger, InnerCall.invokeInstruction]
    cases InnerCall.refsOf scene.table i.metas with
    | error e => rfl
    | ok refs => exact invoke_ledger host f i.program refs seeds i.data scene.ledger scene.table

end Op

namespace Logic

variable {α : Type} {σ : Type}

/-- What every operation preserves, a run preserves. -/
theorem run_induction {P : Scene σ → Prop} (host : Host σ) (f : Frame)
    (step : ∀ (op : Op) (scene : Scene σ), P scene → P (op.run host f scene).2)
    (m : Logic α) (scene : Scene σ) (h : P scene) : P (m.run host f scene).2 := by
  induction m generalizing scene with
  | done a => exact h
  | fail e => exact h
  | crash c => exact h
  | call op next ih =>
    have hop := step op scene h
    simp only [run]
    cases hr : op.run host f scene with
    | mk result after =>
      rw [hr] at hop
      cases result with
      | ok answer => exact ih _ _ hop
      | error stop =>
        cases stop with
        | refused e => exact ih _ _ hop
        | crashed c => exact hop

/-- What no call changes about the host's state, no run changes. -/
theorem run_ledger {β : Type} (host : Host σ) (f : Frame) (view : σ → β)
    (keep : ∀ (s : σ) (r : Request), view (host.invoke s r.instruction
      r.accounts.toArray.toVector r.signers r.height).2 = view s)
    (m : Logic α) (scene : Scene σ) : view (m.run host f scene).2.ledger = view scene.ledger := by
  refine run_induction (P := fun after => view after.ledger = view scene.ledger) host f ?_ m scene
    rfl
  intro op after h
  rw [Op.run_ledger]
  split
  · rw [keep, h]
  · exact h

/-- the operations that a run performs, in order -/
def history (host : Host σ) (f : Frame) : Logic α → Scene σ → List Performed
  | done _, _ => []
  | fail _, _ => []
  | crash _, _ => []
  | call op next, scene =>
    match op.run host f scene with
    | (.ok answer, after) => ⟨op, scene.table, true⟩ :: (next (.ok answer)).history host f after
    | (.error (.refused e), after) =>
      ⟨op, scene.table, false⟩ :: (next (.error e)).history host f after
    | (.error (.crashed _), _) => [⟨op, scene.table, false⟩]

/-- what a run asks of the host, in order -/
def requests (host : Host σ) (f : Frame) (m : Logic α) (scene : Scene σ) : List Request :=
  (m.history host f scene).filterMap fun p => p.op.request? f p.table

theorem requests_cons (f : Frame) (p : Performed) (rest : List Performed) :
    (p :: rest).filterMap (fun p => p.op.request? f p.table) =
      (p.op.request? f p.table).toList ++ rest.filterMap fun p => p.op.request? f p.table := by
  rw [List.filterMap_cons]
  cases p.op.request? f p.table <;> rfl

/-- A watched run ends as the run itself does, and the record grows by its requests. -/
theorem run_traced (host : Host σ) (f : Frame) (m : Logic α) (scene : Scene σ)
    (log : List Effect) :
    m.run host.traced f (Op.watch scene log) =
      ((m.run host f scene).1,
        Op.watch (m.run host f scene).2 (log ++ (m.requests host f scene).map .invoke)) := by
  induction m generalizing scene log with
  | done a => simp [run, requests, history]
  | fail e => simp [run, requests, history]
  | crash c => simp [run, requests, history]
  | call op next ih =>
    have hop := op.run_traced host f scene log
    simp only [run, requests, history]
    cases h : op.run host f scene with
    | mk result after =>
      rw [h] at hop
      rw [hop]
      cases result with
      | ok answer =>
        simp only [ih, requests, requests_cons, List.map_append, List.append_assoc]
      | error stop =>
        cases stop with
        | refused e =>
          simp only [ih, requests, requests_cons, List.map_append, List.append_assoc]
        | crashed c => simp only [requests_cons, List.filterMap_nil, List.append_nil]

end Logic

end AccountLedger
