import AccountLedger.Proofs.Process
/-!
# Invocations are atomic

* `process_atomic`: an invocation settles at most once, last, and only what business logic that
  returned left pending; on the ledger in memory it either leaves the accounts and the record of
  their writes as they were, or writes all that its receipt counts, in one settlement.
-/

namespace AccountLedger

/-! ## the calls of one settlement -/

theorem Table.settling_cases (writes : List Write) :
    settling writes = [] ∨ settling writes = [.settle writes] := by
  cases writes with
  | nil => exact .inl rfl
  | cons w rest => exact .inr rfl

namespace Program

variable {σ : Type}

/-- At most one settlement follows business logic, and only if it returned. -/
theorem lastEffects_cases (p : Program) (host : Host σ) (s : σ) :
    p.lastEffects host s = [] ∨ ∃ writes scene, p.lastEffects host s = [.settle writes] ∧
      p.execution host s = some (.ok (), scene) ∧ scene.table.pending = .ok writes := by
  unfold lastEffects
  cases hx : p.execution host s with
  | none => exact .inl rfl
  | some execution =>
    obtain ⟨ending, scene⟩ := execution
    cases ending with
    | error stop => exact .inl rfl
    | ok u =>
      simp only [finishEffects, Table.commitEffects]
      cases hp : scene.table.pending with
      | error e => exact .inl rfl
      | ok writes =>
        rcases Table.settling_cases writes with h | h
        · exact .inl h
        · exact .inr ⟨writes, scene, h, rfl, hp⟩

/-- An invocation is all or nothing. -/
theorem process_atomic (p : Program) (host : Host σ) (s : σ) (l : Ledger) :
    (∃ (requests : List Request) (last : List Effect),
      p.process host.traced (s, []) =
        ((p.process host s).1, (p.process host s).2,
          .take :: (requests.map .invoke ++ last)) ∧
      (last = [] ∨ ∃ writes scene, last = [.settle writes] ∧
        p.execution host s = some (.ok (), scene) ∧ scene.table.pending = .ok writes)) ∧
    match p.process Ledger.host l with
    | (.aborted _ _, l') =>
      l'.store = l.store ∧ l'.writes = l.writes ∧ l'.settlements = l.settlements
    | (.committed receipt, l') =>
      l'.settlements = l.settlements + (if receipt.written = [] then 0 else 1) ∧
        ∃ writes, l'.writes = l.writes ++ writes ∧
          receipt.written = writes.map (·.position) ∧
          receipt.lamportsWritten = writes.countP (·.lamports.isSome) ∧
          receipt.dataWritten = writes.countP (·.data.isSome) := by
  refine ⟨⟨p.requests host s, p.lastEffects host s, p.process_traced host s [],
    p.lastEffects_cases host s⟩, ?_⟩
  rcases p.process_ledger l with ⟨stage, e, l', h, hb⟩ | ⟨scene, writes, l', _, _, h, hs⟩
  · rw [h]
    simpa [Ledger.books] using hb
  · rw [h]
    obtain ⟨_, hwrites, hcount⟩ : l'.store = writes.foldl Ledger.applyWrite l.store ∧
        l'.writes = l.writes ++ writes ∧
        l'.settlements = l.settlements + if writes = [] then 0 else 1 := by
      simpa [Ledger.books] using hs.books
    refine ⟨?_, writes, hwrites, rfl, rfl, rfl⟩
    rw [hcount]
    simp [Receipt.ofWrites]

end Program

end AccountLedger
