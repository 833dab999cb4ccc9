import AccountLedger.Proofs.Batch
import AccountLedger.Proofs.Process
/-!
# What no run of the ledger changes

Instructions are staged and programs process them, in any order, for any business logic and any
native programs.

* `run_conserves`: the sum of the balances stays, an account that is a program stays as it is, and
  no account becomes or ceases to be a program or changes its rent epoch.
-/

namespace AccountLedger.Ledger

/-- one step in the life of a ledger -/
inductive Action where
  | submit (i : Instruction) (height : Nat) (callStack : List Key)
  | process (p : Program)

def act (l : Ledger) : Action → Ledger
  | .submit i height callStack => l.submitNested i height callStack
  | .process p => (p.process host l).2

/-- what stays the same from one ledger to a later one -/
structure Conserves (l l' : Ledger) : Prop where
  total : l'.store.total = l.store.total
  programs : ∀ key a, l.store.find? key = some a → a.executable = true →
    l'.store.find? key = some a
  executable : ∀ key, (l'.store.read key).executable = (l.store.read key).executable
  rentEpoch : ∀ key, (l'.store.read key).rentEpoch = (l.store.read key).rentEpoch

namespace Conserves

variable {l l' l'' : Ledger}

theorem of_store_eq (h : l'.store = l.store) : l.Conserves l' := by
  refine ⟨by rw [h], ?_, ?_, ?_⟩
  · intro key a ha _; rw [h]; exact ha
  · intro key
    rw [h]
  · intro key
    rw [h]

theorem trans (h : l.Conserves l') (h' : l'.Conserves l'') : l.Conserves l'' := by
  refine ⟨h'.total.trans h.total, ?_, ?_, ?_⟩
  · intro key a ha hx
    exact h'.programs key a (h.programs key a ha hx) hx
  · intro key
    rw [h'.executable, h.executable]
  · intro key
    rw [h'.rentEpoch, h.rentEpoch]

end Conserves

/-! ## one batch -/

variable {s : Store} {writes : List Write}

/-- A write is not for a field that is no business of programs. -/
theorem read_applyWrite_fixed (s : Store) (w : Write) (key : Key) :
    ((applyWrite s w).read key).executable = (s.read key).executable ∧
      ((applyWrite s w).read key).rentEpoch = (s.read key).rentEpoch := by
  rw [read_applyWrite]
  by_cases hk : w.key = key
  · rw [if_pos hk, ← hk]
    exact ⟨rfl, rfl⟩
  · rw [if_neg hk]
    exact ⟨rfl, rfl⟩

theorem read_batch_fixed (s : Store) (writes : List Write) (key : Key) :
    ((writes.foldl applyWrite s).read key).executable = (s.read key).executable ∧
      ((writes.foldl applyWrite s).read key).rentEpoch = (s.read key).rentEpoch := by
  induction writes generalizing s with
  | nil => exact ⟨rfl, rfl⟩
  | cons w rest ih =>
    obtain ⟨hx, hr⟩ := read_applyWrite_fixed s w key
    rw [List.foldl_cons, (ih _).1, (ih _).2]
    exact ⟨hx, hr⟩

/-- The key of a program is not among those of a batch that settles. -/
theorem key_ne_of_frozen?_eq_none (h : frozen? s writes = none) {key : Key}
    (hx : (s.read key).executable = true) : ∀ w ∈ writes, w.key ≠ key := by
  rintro w hw rfl
  simp only [frozen?, Option.map_eq_none_iff, List.find?_eq_none] at h
  exact h w hw hx

theorem Settled.conserves {l l' : Ledger} (distinct : (writes.map (·.key)).Nodup)
    (h : l.Settled writes l') : l.Conserves l' := by
  have hstore : l'.store = writes.foldl applyWrite l.store := congrArg (·.1) h.books
  refine ⟨?_, ?_, ?_, ?_⟩
  · have hsum := total_batch (s := l.store) distinct
    have hbal := h.balanced
    rw [hstore]
    omega
  · intro key a ha hx
    have hread : (l.store.read key).executable = true := by rw [Store.read, ha]; exact hx
    rw [hstore, find?_untouched (key_ne_of_frozen?_eq_none h.unfrozen hread), ha]
  · intro key
    rw [hstore]
    exact (read_batch_fixed l.store writes key).1
  · intro key
    rw [hstore]
    exact (read_batch_fixed l.store writes key).2

/-! ## steps and runs -/

theorem process_conserves (p : Program) (l : Ledger) : l.Conserves (p.process host l).2 := by
  rcases p.process_ledger l with ⟨stage, e, l', h, hb⟩ | ⟨scene, writes, l', _, hp, h, hs⟩
  · rw [h]
    exact .of_store_eq (congrArg (·.1) hb)
  · rw [h]
    exact hs.conserves (Table.nodup_keys_pending hp)

theorem act_conserves (l : Ledger) (action : Action) : l.Conserves (l.act action) := by
  cases action with
  | submit i height callStack => exact .of_store_eq rfl
  | process p => exact process_conserves p l

theorem run_conserves (l : Ledger) (actions : List Action) :
    l.Conserves (actions.foldl act l) := by
  induction actions generalizing l with
  | nil => exact .of_store_eq rfl
  | cons action rest ih => exact (l.act_conserves action).trans (ih (l.act action))

end AccountLedger.Ledger
