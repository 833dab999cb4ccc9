import AccountLedger.Program
import AccountLedger.Proofs.Binding
/-!
# What reaches business logic

`start_eq_ok_iff` says which invocations a program accepts and what it makes of them.
-/

namespace AccountLedger.Program

variable {p : Program} {executing : Key} {i : Invocation} {started : Started}

theorem start_eq_ok_iff :
    p.start executing i = .ok started ↔
      i.program = p.key ∧ executing = p.key ∧ i.data.length ≤ p.limits.instructionData ∧
        i.entries.length ≤ p.limits.accounts ∧ i.height ≤ p.limits.stackHeight ∧
        8 ≤ i.data.length ∧
        ∃ r logic table, p.route? (i.data.take 8) = some r ∧
          r.decode (i.data.drop 8) = .ok logic ∧ Table.bind p.key i.entries r.layout = .ok table ∧
          started = ⟨logic, ⟨p.limits, p.key, i.height, i.callStack⟩, table⟩ := by
  simp only [start, throw_or_eq_ok_iff, bind_eq_ok_iff, exists_unit, not_or, ne_eq, Decidable.not_not,
    Nat.not_lt, checkSize_eq_ok_iff, and_assoc]
  cases p.route? (i.data.take 8) with
  | none => simp [throw, throwThe, MonadExceptOf.throw]
  | some r =>
    simp only [bind_eq_ok_iff, pure_eq_ok_iff, Option.some.injEq]
    refine ⟨?_, ?_⟩
    · intro h
      obtain ⟨hp, hx, hd, he, hh, h8, logic, hl, table, ht, rfl⟩ := h
      exact ⟨hp, hx, hd, he, hh, h8, r, logic, table, rfl, hl, ht, rfl⟩
    · intro h
      obtain ⟨hp, hx, hd, he, hh, h8, _, logic, table, rfl, hl, ht, rfl⟩ := h
      exact ⟨hp, hx, hd, he, hh, h8, logic, hl, table, ht, rfl⟩

end AccountLedger.Program
