import AccountLedger.Ledger
import AccountLedger.Program
import AccountLedger.Proofs.History
/-!
# Invocations from beginning to end

`Program.execution` is the middle of an invocation: how business logic ended, and what it left.

* `process_cases`: what an invocation does on any host, in terms of its execution;
* `process_traced`: the calls that it makes to the host that can change the host's state;
* `process_ledger`: what it does on the ledger in memory, whose accounts change in a settlement and
  in nothing else.
-/

namespace AccountLedger

/-! ## on any host -/

namespace Table

variable {σ : Type}

/-- the calls that settle a batch; there is none for an empty one -/
def settling : List Write → List Effect
  | [] => []
  | w :: rest => [.settle (w :: rest)]

/-- the calls that settle the table -/
def commitEffects (t : Table) : List Effect :=
  match t.pending with
  | .ok writes => settling writes
  | .error _ => []

theorem commit_traced (host : Host σ) (t : Table) (s : σ) (log : List Effect) :
    t.commit host.traced (s, log) =
      ((t.commit host s).1, (t.commit host s).2, log ++ t.commitEffects) := by
  unfold commit commitEffects
  cases t.pending with
  | error e => simp
  | ok writes =>
    cases writes with
    | nil => simp [settling]
    | cons w rest => rfl

end Table

namespace Program

variable {σ : Type}

/-- how the business logic of the staged invocation ends and what it leaves, if it is dispatched -/
def execution (p : Program) (host : Host σ) (s : σ) : Option (Ending Unit × Scene σ) :=
  match p.dispatch host s with
  | (.error _, _) => none
  | (.ok started, s) => some (started.logic.run host started.frame ⟨s, started.table⟩)

/-- what the business logic of the staged invocation asks of the host, in order -/
def requests (p : Program) (host : Host σ) (s : σ) : List Request :=
  match p.dispatch host s with
  | (.error _, _) => []
  | (.ok started, s) => started.logic.requests host started.frame ⟨s, started.table⟩

/-- the calls that settle what business logic left, if it returned -/
def finishEffects (ending : Ending Unit) (scene : Scene σ) : List Effect :=
  match ending with
  | .ok () => scene.table.commitEffects
  | .error _ => []

/-- the calls that settle what the execution left -/
def lastEffects (p : Program) (host : Host σ) (s : σ) : List Effect :=
  match p.execution host s with
  | some (ending, scene) => finishEffects ending scene
  | none => []

theorem execution_eq_some_iff {p : Program} {host : Host σ} {s : σ}
    {execution : Ending Unit × Scene σ} :
    p.execution host s = some execution ↔
      ∃ i s' started, host.take s = (.ok i, s') ∧
        p.start (host.executing s') i = .ok started ∧
        started.logic.run host started.frame ⟨s', started.table⟩ = execution := by
  unfold Program.execution dispatch
  rcases host.take s with ⟨taken, s'⟩
  cases taken with
  | error e => simp
  | ok i =>
    cases hs : p.start (host.executing s') i with
    | error e =>
      simp only [hs, reduceCtorEq, false_iff]
      intro h
      obtain ⟨_, _, started, ht, hs', _⟩ := h
      cases ht
      rw [hs] at hs'
      cases hs'
    | ok started =>
      simp only [hs, Option.some.injEq]
      refine ⟨?_, ?_⟩
      · intro hr
        exact ⟨i, s', started, rfl, hs, hr⟩
      · intro h
        obtain ⟨_, _, _, ht, hs', hr⟩ := h
        cases ht
        rw [hs] at hs'
        cases hs'
        exact hr

theorem dispatch_ledger (p : Program) (host : Host σ) (s : σ) :
    (p.dispatch host s).2 = (host.take s).2 := by
  unfold dispatch
  obtain ⟨taken, s'⟩ := host.take s
  cases taken <;> rfl

/-- An invocation is refused while it is dispatched, or its business logic does not return, or what
its business logic left is settled. -/
theorem process_cases (p : Program) (host : Host σ) (s : σ) :
    (∃ e, p.execution host s = none ∧
        p.process host s = (.aborted .dispatching e, (host.take s).2)) ∨
      (∃ stop scene, p.execution host s = some (.error stop, scene) ∧
        p.process host s = (.aborted .executing (abortError stop), scene.ledger)) ∨
      ∃ scene, p.execution host s = some (.ok (), scene) ∧
        p.process host s = finish host (.ok ()) scene := by
  rw [← p.dispatch_ledger host s]
  unfold process execution
  rcases p.dispatch host s with ⟨started, s'⟩
  cases started with
  | error e => exact .inl ⟨e, rfl, rfl⟩
  | ok started =>
    simp only
    rcases started.logic.run host started.frame ⟨s', started.table⟩ with ⟨ending, scene⟩
    cases ending with
    | error stop => exact .inr (.inl ⟨stop, scene, rfl, rfl⟩)
    | ok u => exact .inr (.inr ⟨scene, rfl, rfl⟩)

/-! ## on a watched host -/

theorem dispatch_traced (p : Program) (host : Host σ) (s : σ) (log : List Effect) :
    p.dispatch host.traced (s, log) =
      ((p.dispatch host s).1, (p.dispatch host s).2, log ++ [.take]) := by
  have ht : host.traced.take (s, log) =
    ((host.take s).1, (host.take s).2, log ++ [.take]) := rfl
  unfold dispatch
  rw [ht]
  rcases host.take s with ⟨taken, s'⟩
  cases taken <;> rfl

theorem finish_traced (host : Host σ) (ending : Ending Unit) (scene : Scene σ)
    (log : List Effect) :
    finish host.traced ending (Op.watch scene log) =
      ((finish host ending scene).1, (finish host ending scene).2,
        log ++ finishEffects ending scene) := by
  cases ending with
  | error stop => simp [finish, finishEffects, Op.watch]
  | ok u =>
    have h := scene.table.commit_traced host scene.ledger log
    simp only [finish, finishEffects, Op.watch, h]
    obtain ⟨result, s⟩ := scene.table.commit host scene.ledger
    cases result <;> rfl

/-- The host is asked for the invocation, then for the inner calls, and then for the settlement. -/
theorem process_traced (p : Program) (host : Host σ) (s : σ) (log : List Effect) :
    p.process host.traced (s, log) =
      ((p.process host s).1, (p.process host s).2,
        log ++ .take :: ((p.requests host s).map .invoke ++ p.lastEffects host s)) := by
  have hd := p.dispatch_traced host s log
  unfold process requests lastEffects execution
  rw [hd]
  obtain ⟨started, s'⟩ := p.dispatch host s
  cases started with
  | error e => simp
  | ok started =>
    have hr := started.logic.run_traced host started.frame ⟨s', started.table⟩ (log ++ [.take])
    simp only
    rw [show (⟨(s', log ++ [Effect.take]), started.table⟩ : Scene (σ × List Effect)) =
      Op.watch ⟨s', started.table⟩ (log ++ [.take]) from rfl, hr]
    simp only [finish_traced]
    obtain ⟨ending, scene⟩ := started.logic.run host started.frame ⟨s', started.table⟩
    simp only [List.append_assoc, List.cons_append]
    cases ending <;> rfl

end Program

/-! ## on the ledger in memory -/

namespace Ledger

/-- what a settlement alone may change -/
def books (l : Ledger) : Store × List Write × Nat := (l.store, l.writes, l.settlements)

/-- what the settlement of a batch, which may be empty, does to the books -/
structure Settled (l : Ledger) (writes : List Write) (l' : Ledger) : Prop where
  unfrozen : frozen? l.store writes = none
  balanced : totalBefore l.store writes = totalAfter l.store writes
  books : l'.books = (writes.foldl applyWrite l.store, l.writes ++ writes,
    l.settlements + if writes = [] then 0 else 1)

theorem settle_cases (l : Ledger) (w : Write) (rest : List Write) :
    (∃ e, l.settle (w :: rest) = (.error e, l)) ∨
      ∃ l', l.settle (w :: rest) = (.ok (), l') ∧ l.Settled (w :: rest) l' := by
  unfold settle
  cases hf : frozen? l.store (w :: rest) with
  | some key => exact .inl ⟨_, rfl⟩
  | none =>
    by_cases hb : totalBefore l.store (w :: rest) = totalAfter l.store (w :: rest)
    · simp only [ne_eq, hb, not_true_eq_false, if_false]
      exact .inr ⟨_, rfl, hf, hb, rfl⟩
    · simp only [ne_eq, hb, not_false_eq_true, if_true]
      exact .inl ⟨_, rfl⟩

theorem commit_cases (l : Ledger) (t : Table) :
    (∃ e, t.commit host l = (.error e, l)) ∨
      ∃ writes l', t.pending = .ok writes ∧
        t.commit host l = (.ok (.ofWrites writes), l') ∧ l.Settled writes l' := by
  unfold Table.commit
  cases t.pending with
  | error e => exact .inl ⟨e, rfl⟩
  | ok writes =>
    cases writes with
    | nil => exact .inr ⟨[], l, rfl, rfl, rfl, rfl, by simp [books]⟩
    | cons w rest =>
      have hh : host.settle l (w :: rest) = l.settle (w :: rest) := rfl
      simp only [hh]
      rcases l.settle_cases w rest with ⟨e, h⟩ | ⟨l', h, hs⟩
      · rw [h]; exact .inl ⟨.host e, rfl⟩
      · rw [h]; exact .inr ⟨w :: rest, l', rfl, rfl, hs⟩

theorem books_take (l : Ledger) : (host.take l).2.books = l.books := by
  show (l.take).2.books = l.books
  unfold take
  cases l.staged <;> rfl

theorem books_run {α : Type} (m : Logic α) (f : Frame) (scene : Scene Ledger) :
    (m.run host f scene).2.ledger.books = scene.ledger.books :=
  Logic.run_ledger host f books (fun _ _ => rfl) m scene

end Ledger

namespace Program

theorem execution_books {p : Program} {l : Ledger} {ending : Ending Unit} {scene : Scene Ledger}
    (h : p.execution Ledger.host l = some (ending, scene)) : scene.ledger.books = l.books := by
  revert h
  rw [← l.books_take, ← p.dispatch_ledger Ledger.host l]
  unfold execution
  rcases p.dispatch Ledger.host l with ⟨started, l'⟩
  intro h
  cases started with
  | error e => cases h
  | ok started =>
    have hr := Ledger.books_run started.logic started.frame ⟨l', started.table⟩
    rw [Option.some.inj h] at hr
    exact hr

/-- An invocation aborts and leaves the books alone, or it commits what its business logic left
pending. -/
theorem process_ledger (p : Program) (l : Ledger) :
    (∃ stage e l', p.process Ledger.host l = (.aborted stage e, l') ∧ l'.books = l.books) ∨
      ∃ scene writes l', p.execution Ledger.host l = some (.ok (), scene) ∧
        scene.table.pending = .ok writes ∧
        p.process Ledger.host l = (.committed (.ofWrites writes), l') ∧
        l.Settled writes l' := by
  rcases p.process_cases Ledger.host l with ⟨e, _, h⟩ | ⟨stop, scene, hx, h⟩ | ⟨scene, hx, h⟩
  · exact .inl ⟨_, e, _, h, l.books_take⟩
  · exact .inl ⟨_, _, _, h, execution_books hx⟩
  · have hb := execution_books hx
    rcases scene.ledger.commit_cases scene.table with ⟨e, hc⟩ | ⟨writes, l', hp, hc, hs⟩
    · exact .inl ⟨_, e, _, by rw [h, finish, hc], hb⟩
    · obtain ⟨hstore, hwrites, hcount⟩ : scene.ledger.store = l.store ∧
          scene.ledger.writes = l.writes ∧ scene.ledger.settlements = l.settlements := by
        simpa [Ledger.books] using hb
      refine .inr ⟨scene, writes, l', hx, hp, by rw [h, finish, hc], ?_⟩
      obtain ⟨hu, hbal, hbooks⟩ := hs
      rw [hstore] at hu hbal hbooks
      rw [hwrites, hcount] at hbooks
      exact ⟨hu, hbal, hbooks⟩

end Program

end AccountLedger
