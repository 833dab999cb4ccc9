import AccountLedger.Proofs.Guards
import AccountLedger.Table.Creation
/-!
# When an account can be made

`checkCreate_eq_ok_iff` says what the checks of a creation accept; `create_cases` says what a
creation does to the table, and `create_eq_ok_iff` when it goes through.  Of the two handles that it touches, the payer has signed and both may
be written, and the new account is vacant and speaks for itself or through seeds.
-/

namespace AccountLedger.Table

variable {t : Table} {payer target space : Nat} {owner : Key} {seeds : Option SignerSeeds}
  {rent : Amount} {bySeeds : Bool} {funder fresh : Handle}

theorem requireAt_eq_ok_iff {position : Nat} {h : Handle} {held : Bool} {missing : Capability} :
    requireAt position h held missing = .ok () ↔ held = true := by
  unfold requireAt
  split <;> simp_all

theorem speaksFor_eq_ok_iff {program key : Key} :
    speaksFor program seeds key = .ok bySeeds ↔
      (seeds = none ∧ bySeeds = false) ∨
        ∃ s, seeds = some s ∧ s.derive program = .ok key ∧ bySeeds = true := by
  cases seeds with
  | none => simp [speaksFor, eq_comm]
  | some s =>
    simp only [speaksFor, reduceCtorEq, false_and, false_or, Option.some.injEq, exists_eq_left']
    cases hs : s.derive program with
    | error e => simp
    | ok derived =>
      by_cases hk : derived = key
      · simp [hk, eq_comm]
      · simp [hk]

/-- what the making of an account needs of its two positions -/
structure MayCreate (t : Table) (payer target : Nat) (seeds : Option SignerSeeds) (rent : Amount)
    (bySeeds : Bool) (funder fresh : Handle) : Prop where
  funder_at : t.handles[payer]? = some funder
  fresh_at : t.handles[target]? = some fresh
  ne : payer ≠ target
  funder_writable : funder.writable = true
  funder_signer : funder.signer = true
  fresh_writable : fresh.writable = true
  fresh_signer : fresh.signer = true ∨ bySeeds = true
  spoken : speaksFor t.program seeds fresh.key = .ok bySeeds
  vacant : fresh.account.isVacant = true
  funds : rent ≤ funder.account.lamports

theorem checkCreate_eq_ok_iff :
    t.checkCreate payer target seeds rent = .ok (bySeeds, funder, fresh) ↔
      t.MayCreate payer target seeds rent bySeeds funder fresh := by
  simp only [checkCreate, bind_eq_ok_iff, exists_unit, handle_eq_ok_iff, requireAt_eq_ok_iff,
    throw_or_eq_ok_iff, pure_eq_ok_iff, checkPositions_eq_ok_iff, Prod.mk.injEq]
  refine ⟨?_, ?_⟩
  · intro h
    obtain ⟨_, g, hg, hgw, hgs, n, hn, hnw, b, hb, hs, hv, hf, rfl, rfl, rfl⟩ := h
    simp only [Bool.or_eq_true, decide_eq_true_eq, Bool.not_eq_true', not_or,
      Bool.not_eq_false] at hs hv
    exact ⟨hg, hn, hv.1, hgw, hgs, hnw, hs, hb, hv.2, UInt64.not_lt.1 hf⟩
  · intro h
    obtain ⟨hg, hn, hne, hgw, hgs, hnw, hs, hb, hv, hf⟩ := h
    refine ⟨?_, funder, hg, hgw, hgs, fresh, hn, hnw, bySeeds, hb, ?_, ?_, UInt64.not_lt.2 hf, rfl,
      rfl, rfl⟩
    · intro position hp
      simp only [List.mem_cons, List.not_mem_nil, or_false] at hp
      rcases hp with rfl | rfl
      · exact (List.getElem?_eq_some_iff.1 hg).1
      · exact (List.getElem?_eq_some_iff.1 hn).1
    · simpa using hs
    · simp [hne, hv]

/-- the table after an account was made or, without an allocation, after it was only paid for -/
def created (t : Table) (payer target : Nat) (rent : Amount) (funder made : Handle) : Table :=
  (t.put payer (funder.moveLamports (funder.account.lamports - rent))).put target made

/-- A creation is refused and changes nothing, or it pays for the new account and allocates it, or
it crashes between the two. -/
theorem create_cases (t : Table) (payer target space : Nat) (owner : Key)
    (seeds : Option SignerSeeds) (rent : Amount) :
    (∃ e, t.create payer target space owner seeds rent = (.error (.refused e), t)) ∨
      ∃ bySeeds funder fresh, t.MayCreate payer target seeds rent bySeeds funder fresh ∧
        ((space < allocationLimit ∧ t.create payer target space owner seeds rent =
            (.ok (), t.created payer target rent funder
              ((funded bySeeds rent fresh).allocate space owner))) ∨
          t.create payer target space owner seeds rent =
            (.error (.crashed .capacity), t.created payer target rent funder
              (funded bySeeds rent fresh))) := by
  cases hc : t.checkCreate payer target seeds rent with
  | error e => exact .inl ⟨e, by simp only [create, hc]⟩
  | ok r =>
    obtain ⟨bySeeds, funder, fresh⟩ := r
    refine .inr ⟨bySeeds, funder, fresh, checkCreate_eq_ok_iff.1 hc, ?_⟩
    by_cases hs : space < allocationLimit
    · exact .inl ⟨hs, by simp only [create, hc, checkAllocation, if_pos hs, created]⟩
    · exact .inr (by simp only [create, hc, checkAllocation, if_neg hs, created])

/-- A creation is carried out exactly if all that it needs is there and the size can be held. -/
theorem create_eq_ok_iff {t' : Table} :
    t.create payer target space owner seeds rent = (.ok (), t') ↔ space < allocationLimit ∧
      ∃ bySeeds funder fresh, t.MayCreate payer target seeds rent bySeeds funder fresh ∧
        t' = t.created payer target rent funder
          ((funded bySeeds rent fresh).allocate space owner) := by
  refine ⟨?_, ?_⟩
  · intro h
    rcases t.create_cases payer target space owner seeds rent with
      ⟨e, he⟩ | ⟨bySeeds, funder, fresh, may, ⟨fits, hc⟩ | hc⟩
    · cases he.symm.trans h
    · cases hc.symm.trans h
      exact ⟨fits, bySeeds, funder, fresh, may, rfl⟩
    · cases hc.symm.trans h
  · rintro ⟨fits, bySeeds, funder, fresh, may, rfl⟩
    simp only [create, checkCreate_eq_ok_iff.2 may, checkAllocation, if_pos fits, created]

end AccountLedger.Table
