import AccountLedger.Proofs.Aliases
import AccountLedger.Proofs.Guards
import AccountLedger.Table.Binding
/-!
# When an account list binds

`binds_iff` says which account lists bind to a layout and what table they make: its handles
are those of the entries, in order, and untouched.
-/

namespace AccountLedger.Table

variable {program : Key} {entries : List Entry} {specs : List Spec} {layout : Layout} {t : Table}

theorem conflict?_eq_none_iff :
    conflict? entries = none ↔
      ∀ e ∈ entries, ∀ g ∈ entries, e.account.key = g.account.key → e.writable = g.writable := by
  have hzip : ∀ p : Entry → Prop, (∀ x ∈ entries.zipIdx, p x.1) ↔ ∀ e ∈ entries, p e := by
    intro p
    rw [← List.forall_mem_map, List.zipIdx_map_fst]
  have hpairs := agree_with_first_iff (fun x : Entry × Nat => x.1.account.key)
    (fun x => x.1.writable) entries.zipIdx
  rw [← hzip]
  conv => rhs; intro x hx; rw [← hzip]
  rw [← hpairs, conflict?, List.findSome?_eq_none_iff]
  refine forall_congr' fun x => forall_congr' fun hx => ?_
  obtain ⟨e, second⟩ := x
  dsimp only
  cases hf : entries.zipIdx.find? fun y => y.1.account.key = e.account.key with
  | none => simp
  | some first => by_cases hw : first.1.writable = e.writable <;> simp [hw]

/-- the handles of an account list -/
def bound : List Spec → List Entry → List Handle
  | _, [] => []
  | [], e :: entries => unnamed e :: bound [] entries
  | spec :: specs, e :: entries => named spec e :: bound specs entries

@[simp] theorem length_bound (specs : List Spec) (entries : List Entry) :
    (bound specs entries).length = entries.length := by
  induction entries generalizing specs with
  | nil => cases specs <;> rfl
  | cons e rest ih => cases specs <;> simp [bound, ih]

theorem bindFrom_eq_ok_iff {position : Nat} {handles : List Handle} :
    bindFrom program position specs entries = .ok handles ↔
      (∀ i spec e, specs[i]? = some spec → entries[i]? = some e →
        checkEntry program (position + i) spec e = .ok ()) ∧ handles = bound specs entries := by
  induction entries generalizing position specs handles with
  | nil => cases specs <;> simp [bindFrom, bound, eq_comm]
  | cons e rest ih =>
    cases specs with
    | nil =>
      simp only [bindFrom, bind_eq_ok_iff, pure_eq_ok_iff, ih, bound]
      simp [eq_comm]
    | cons spec specs =>
      simp only [bindFrom, bind_eq_ok_iff, pure_eq_ok_iff, exists_unit, ih, bound]
      refine ⟨?_, ?_⟩
      · intro h
        obtain ⟨hhead, _, ⟨htail, rfl⟩, rfl⟩ := h
        refine ⟨?_, rfl⟩
        intro i sp en hs he
        cases i with
        | zero =>
          cases hs; cases he
          exact hhead
        | succ i =>
          have := htail i sp en hs he
          rwa [Nat.add_assoc, Nat.add_comm 1 i] at this
      · intro h
        obtain ⟨hall, rfl⟩ := h
        refine ⟨hall 0 spec e rfl rfl, _, ⟨?_, rfl⟩, rfl⟩
        intro i sp en hs he
        rw [Nat.add_assoc, Nat.add_comm 1 i]
        exact hall (i + 1) sp en hs he

theorem binds_iff :
    bind program entries layout = .ok t ↔
      layout.specs.length ≤ entries.length ∧
        (∀ e ∈ entries, ∀ g ∈ entries, e.account.key = g.account.key →
          e.writable = g.writable) ∧
        (∀ i spec e, layout.specs[i]? = some spec → entries[i]? = some e →
          checkEntry program i spec e = .ok ()) ∧
        t = ⟨program, bound layout.specs entries⟩ := by
  unfold bind
  by_cases hlen : entries.length < layout.specs.length
  · rw [if_pos hlen]
    refine ⟨?_, ?_⟩
    · intro h
      cases h
    · intro h
      obtain ⟨h, _⟩ := h
      omega
  · rw [if_neg hlen, ← conflict?_eq_none_iff]
    cases conflict? entries with
    | some e => simp
    | none =>
      simp only [map_eq_ok_iff, bindFrom_eq_ok_iff, Nat.zero_add, true_and]
      refine ⟨?_, ?_⟩
      · intro h
        obtain ⟨_, ⟨hall, rfl⟩, rfl⟩ := h
        exact ⟨Nat.le_of_not_lt hlen, hall, rfl⟩
      · intro h
        obtain ⟨_, hall, rfl⟩ := h
        exact ⟨_, ⟨hall, rfl⟩, rfl⟩

/-- the handle of an entry, at the same position -/
structure Bound (e : Entry) (h : Handle) : Prop where
  account : h.account = e.account
  signer : h.signer = e.signer
  writable : h.writable = e.writable
  clean : h.dirty = {}

theorem getElem?_bound {i : Nat} {h : Handle} (here : (bound specs entries)[i]? = some h) :
    ∃ e, entries[i]? = some e ∧ Bound e h := by
  induction entries generalizing specs i with
  | nil => cases specs <;> simp [bound] at here
  | cons e rest ih =>
    cases specs with
    | nil =>
      cases i with
      | zero => cases here; exact ⟨e, rfl, rfl, rfl, rfl, rfl⟩
      | succ i => exact ih here
    | cons spec specs =>
      cases i with
      | zero => cases here; exact ⟨e, rfl, rfl, rfl, rfl, rfl⟩
      | succ i => exact ih here

end AccountLedger.Table
