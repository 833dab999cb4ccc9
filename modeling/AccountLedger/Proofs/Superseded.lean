import AccountLedger.Proofs.Conservation
/-!
# Batches that name a key twice

A settlement compares every write with the balance that the store has, and then applies the writes
one after the other.  A balance that a later write of the batch replaces is compared all the same,
though no account ends up with it.

* `superseded`, `standing`: the balances that a batch itself replaces, and those that it leaves;
* `total_standing`: the sum of the balances after any batch;
* `settle_cases_of_any`: what a settlement does for any list of writes.  It keeps the sum of the
  balances exactly if what is superseded is balanced in itself.
-/

namespace AccountLedger.Ledger

variable {s s' : Store} {w : Write} {writes : List Write} {key : Key}

/-! ## which balances of a batch are replaced -/

/-- some write of the list gives the key a balance -/
def Rebalances (writes : List Write) (key : Key) : Prop :=
  ∃ w ∈ writes, w.key = key ∧ w.lamports.isSome

instance : Decidable (Rebalances writes key) :=
  inferInstanceAs (Decidable (∃ w ∈ writes, w.key = key ∧ w.lamports.isSome))

/-- the writes with a balance that a later write of the batch replaces -/
def superseded : List Write → List Write
  | [] => []
  | w :: rest =>
    if w.lamports.isSome ∧ Rebalances rest w.key then w :: superseded rest else superseded rest

/-- the last write with a balance, for each key that gets one -/
def standing : List Write → List Write
  | [] => []
  | w :: rest =>
    if w.lamports.isSome ∧ ¬ Rebalances rest w.key then w :: standing rest else standing rest

theorem rebalances_cons {rest : List Write} :
    Rebalances (w :: rest) key ↔ (w.key = key ∧ w.lamports.isSome) ∨ Rebalances rest key := by
  simp [Rebalances]

theorem isSome_of_mem_standing (h : w ∈ standing writes) : w.lamports.isSome := by
  induction writes with
  | nil => cases h
  | cons v rest ih =>
    rw [standing] at h
    split at h
    · rename_i hv
      rcases List.mem_cons.1 h with rfl | h
      · exact hv.1
      · exact ih h
    · exact ih h

theorem rebalances_standing : Rebalances (standing writes) key ↔ Rebalances writes key := by
  induction writes with
  | nil => rfl
  | cons w rest ih =>
    rw [standing, rebalances_cons]
    split
    · rw [rebalances_cons, ih]
    · rename_i hw
      rw [ih]
      constructor
      · exact .inr
      · intro h
        rcases h with ⟨rfl, hsome⟩ | h
        · exact Decidable.not_not.1 fun hnot => hw ⟨hsome, hnot⟩
        · exact h

theorem standing_key_ne (h : ¬ Rebalances writes key) : ∀ w ∈ standing writes, w.key ≠ key :=
  fun w hw hk => h (rebalances_standing.1 ⟨w, hw, hk, isSome_of_mem_standing hw⟩)

theorem nodup_keys_standing (writes : List Write) : ((standing writes).map (·.key)).Nodup := by
  induction writes with
  | nil => exact .nil
  | cons w rest ih =>
    rw [standing]
    split
    · rename_i hw
      rw [List.map_cons, List.nodup_cons]
      refine ⟨fun h => ?_, ih⟩
      obtain ⟨v, hv, hk⟩ := List.mem_map.1 h
      exact standing_key_ne hw.2 v hv hk
    · exact ih

/-- No balance is replaced in a batch that gives each key one at most. -/
theorem superseded_eq_nil (once : ((writes.filter (·.lamports.isSome)).map (·.key)).Nodup) :
    superseded writes = [] := by
  induction writes with
  | nil => rfl
  | cons w rest ih =>
    rw [superseded]
    split
    · rename_i hw
      obtain ⟨hsome, v, hv, hk, hvsome⟩ := hw
      rw [List.filter_cons, if_pos hsome, List.map_cons, List.nodup_cons] at once
      exact absurd (List.mem_map.2 ⟨v, List.mem_filter.2 ⟨hv, hvsome⟩, hk⟩) once.1
    · refine ih (once.sublist ?_)
      exact ((List.sublist_cons_self w rest).filter _).map _

/-! ## the sum of the balances -/

/-- Writes without a balance weigh the same before and after. -/
theorem totals_split (s : Store) (writes : List Write) :
    totalBefore s writes + totalAfter s (superseded writes) + totalAfter s (standing writes) =
      totalAfter s writes + totalBefore s (superseded writes) +
        totalBefore s (standing writes) := by
  induction writes with
  | nil => rfl
  | cons w rest ih =>
    simp only [totalBefore, totalAfter] at ih
    simp only [superseded, standing, totalBefore, totalAfter]
    cases hl : w.lamports with
    | none =>
      simp only [Option.isSome_none, Bool.false_eq_true, false_and, if_false, Amount.total_cons, hl,
        Option.getD_none]
      omega
    | some b =>
      by_cases hr : Rebalances rest w.key
      · simp only [Option.isSome_some, hr, true_and, not_true_eq_false, if_true, if_false,
          Amount.total_cons]
        omega
      · simp only [Option.isSome_some, hr, true_and, not_false_eq_true, if_true, if_false,
          Amount.total_cons]
        omega

/-- What stands is wanted whatever the store is. -/
theorem totalAfter_standing (s s' : Store) (writes : List Write) :
    totalAfter s (standing writes) = totalAfter s' (standing writes) := by
  apply Amount.total_congr
  intro w hw
  obtain ⟨b, hb⟩ := Option.isSome_iff_exists.1 (isSome_of_mem_standing hw)
  rw [hb, Option.getD_some, Option.getD_some]

/-- A write moves the sum of what the store has under a batch that names its key, once. -/
theorem totalBefore_applyWrite (distinct : (writes.map (·.key)).Nodup)
    (named : w.key ∈ writes.map (·.key)) :
    totalBefore (applyWrite s w) writes + (s.lamports w.key).toNat =
      totalBefore s writes + (w.lamports.getD (s.lamports w.key)).toNat := by
  induction writes with
  | nil => cases named
  | cons v rest ih =>
    rw [List.map_cons, List.nodup_cons] at distinct
    simp only [totalBefore, Amount.total_cons] at ih ⊢
    by_cases hk : w.key = v.key
    · have hhere : (applyWrite s w).lamports v.key = w.lamports.getD (s.lamports w.key) := by
        rw [Store.lamports, read_applyWrite, if_pos hk]
        rfl
      have hrest : Amount.total (fun u => (applyWrite s w).lamports u.key) rest =
          Amount.total (fun u => s.lamports u.key) rest :=
        Amount.total_congr fun u hu => lamports_applyWrite fun hku =>
          distinct.1 (List.mem_map.2 ⟨u, hu, hku.symm.trans hk⟩)
      rw [hhere, hrest, hk]
      omega
    · have := ih distinct.2 ((List.mem_cons.1 named).resolve_left hk)
      rw [lamports_applyWrite hk]
      omega

/-- A batch moves the sum by what stands in it. -/
theorem total_standing (s : Store) (writes : List Write) :
    (writes.foldl applyWrite s).total + totalBefore s (standing writes) =
      s.total + totalAfter s (standing writes) := by
  induction writes generalizing s with
  | nil => rfl
  | cons w rest ih =>
    have hrest := ih (applyWrite s w)
    have hwrite := total_applyWrite s w
    rw [totalAfter_standing (applyWrite s w) s] at hrest
    rw [List.foldl_cons, standing]
    by_cases hr : Rebalances rest w.key
    · -- the balance of this write, if it has one, is replaced: what stands is what stood
      obtain ⟨v, hv, hk, _⟩ := rebalances_standing.2 hr
      have hbefore := totalBefore_applyWrite (s := s) (nodup_keys_standing rest)
        (List.mem_map.2 ⟨v, hv, hk⟩)
      rw [if_neg (by simp [hr])]
      omega
    · have hbefore : totalBefore (applyWrite s w) (standing rest) = totalBefore s (standing rest) :=
        Amount.total_congr fun v hv => lamports_applyWrite (Ne.symm (standing_key_ne hr v hv))
      cases hl : w.lamports with
      | none =>
        rw [hl, Option.getD_none] at hwrite
        rw [if_neg (by simp)]
        omega
      | some b =>
        rw [if_pos ⟨rfl, hr⟩]
        simp only [totalBefore, totalAfter, Amount.total_cons] at *
        omega

/-! ## settlements -/

/-- what the settlement of any list of writes does to a ledger -/
structure Settles (l : Ledger) (writes : List Write) (l' : Ledger) : Prop where
  /-- the sum of the balances moves by what was compared and then replaced -/
  moves : l'.store.total + totalAfter l.store (superseded writes) =
    l.store.total + totalBefore l.store (superseded writes)
  kept_iff : l'.store.total = l.store.total ↔
    totalBefore l.store (superseded writes) = totalAfter l.store (superseded writes)
  kept : ((writes.filter (·.lamports.isSome)).map (·.key)).Nodup →
    l'.store.total = l.store.total
  programs : ∀ key a, l.store.find? key = some a → a.executable = true →
    l'.store.find? key = some a
  others : ∀ key, (∀ w ∈ writes, w.key ≠ key) → l'.store.find? key = l.store.find? key
  log : l'.writes = l.writes ++ writes
  count : l'.settlements = l.settlements + 1

/-- A settlement that fails leaves the whole ledger as it was.  One that goes through spares
programs and the accounts that it does not name, and it keeps the sum of the balances exactly if
what it replaces of its own is balanced. -/
theorem settle_superseded (l : Ledger) (writes : List Write) :
    (∃ e, l.settle writes = (.error e, l)) ∨
      ∃ l', l.settle writes = (.ok (), l') ∧ l.Settles writes l' := by
  unfold settle
  cases hf : frozen? l.store writes with
  | some key => exact .inl ⟨_, rfl⟩
  | none =>
    by_cases hb : totalBefore l.store writes = totalAfter l.store writes
    · simp only [ne_eq, hb, not_true_eq_false, if_false]
      have hsplit := totals_split l.store writes
      have hstand := total_standing l.store writes
      have hmoves : (writes.foldl applyWrite l.store).total +
          totalAfter l.store (superseded writes) =
            l.store.total + totalBefore l.store (superseded writes) := by
        omega
      refine .inr ⟨_, rfl, hmoves, ?_, ?_, ?_, fun key hk => find?_untouched hk, rfl, rfl⟩
      · dsimp only
        omega
      · intro once
        rw [superseded_eq_nil once] at hmoves
        exact hmoves
      · intro key a ha hx
        have hread : (l.store.read key).executable = true := by rw [Store.read, ha]; exact hx
        exact (find?_untouched (key_ne_of_frozen?_eq_none hf hread)).trans ha
    · simp only [ne_eq, hb, not_false_eq_true, if_true]
      exact .inl ⟨_, rfl⟩

/-- a batch that takes five lamports from an account of ten, and then gives it five -/
def swing : List Write :=
  [⟨0, .ofNat 2, some 5, none, none⟩, ⟨1, .ofNat 2, some 15, none, none⟩]

/-- It balances against the ten that the account has at first, and leaves it with fifteen. -/
theorem swing_settles :
    let l := addAccount {} { key := .ofNat 2, lamports := 10 }
    (l.settle swing).1.isOk ∧ l.store.total = 10 ∧ (l.settle swing).2.store.total = 15 := by
  decide

end AccountLedger.Ledger
