import AccountLedger.Ledger
import AccountLedger.Proofs.Aliases
import AccountLedger.Proofs.Guards
import AccountLedger.Settlement
/-!
# Batches of writes

A batch names each key once, so every one of its writes is the last word on its account.

* `pending_error`, `pending_eq_ok_iff`: when a table has a batch, and which one;
* `find?_writes`, `find?_untouched`: the accounts after a batch;
* `total_batch`: the sum of the balances after a batch.
-/

namespace AccountLedger

theorem Amount.total_congr {α : Type} {f g : α → Amount} {l : List α} (h : ∀ a ∈ l, f a = g a) :
    total f l = total g l := by
  induction l with
  | nil => rfl
  | cons a rest ih =>
    rw [total_cons, total_cons, h a (List.mem_cons_self ..),
      ih fun b hb => h b (List.mem_cons_of_mem _ hb)]

theorem Amount.total_map {α β : Type} (amount : β → Amount) (g : α → β) (l : List α) :
    total amount (l.map g) = total (fun a => amount (g a)) l := by
  induction l with
  | nil => rfl
  | cons a rest ih => rw [List.map_cons, total_cons, total_cons, ih]

/-! ## the batch of a table -/

namespace Table

variable {t : Table}

theorem mem_touched {h : Handle} {i : Nat} :
    (h, i) ∈ t.touched ↔ t.handles[i]? = some h ∧ h.isDirty = true := by
  rw [touched, List.mem_filter, List.mem_zipIdx_iff_getElem?]

theorem touched_sorted (t : Table) : t.touched.Pairwise fun x y => x.2 < y.2 := by
  have h : (t.handles.zipIdx.map (·.2)).Pairwise (· < ·) := by
    rw [List.zipIdx_map_snd]
    exact List.pairwise_lt_range'
  exact (List.pairwise_map.1 h).sublist List.filter_sublist

/-- two touched positions name one account and want it in different states -/
structure Diverge (t : Table) (key : Key) (first second : Nat) : Prop where
  lt : first < second
  differ : ∃ g h, t.handles[first]? = some g ∧ t.handles[second]? = some h ∧
    g.isDirty = true ∧ h.isDirty = true ∧ g.key = key ∧ h.key = key ∧ g.account ≠ h.account

theorem divergence?_eq_none_iff :
    divergence? t.touched = none ↔
      ∀ x ∈ t.touched, ∀ y ∈ t.touched, x.1.key = y.1.key → x.1.account = y.1.account := by
  rw [← agree_with_first_iff (fun x : Handle × Nat => x.1.key) (fun x => x.1.account) t.touched,
    divergence?, List.findSome?_eq_none_iff]
  refine forall_congr' fun x => forall_congr' fun hx => ?_
  obtain ⟨h, second⟩ := x
  dsimp only
  cases hf : t.touched.find? fun y => y.1.key = h.key with
  | none => simp
  | some first => by_cases ha : first.1.account = h.account <;> simp [ha]

/-- A batch is refused for two positions that diverge, which it names. -/
theorem diverge_of_divergence? {e : Error} (h : divergence? t.touched = some e) :
    ∃ key first second, t.Diverge key first second ∧ e = .aliasing key first second := by
  obtain ⟨⟨h, second⟩, hx, he⟩ := List.exists_of_findSome?_eq_some h
  simp only at he
  cases hf : t.touched.find? fun y => y.1.key = h.key with
  | none => rw [hf] at he; cases he
  | some found =>
    obtain ⟨g, first⟩ := found
    rw [hf] at he
    by_cases ha : g.account = h.account
    · simp [ha] at he
    · obtain ⟨hg, hgd⟩ := mem_touched.1 (List.mem_of_find?_eq_some hf)
      obtain ⟨hh, hhd⟩ := mem_touched.1 hx
      have hk : g.key = h.key := by simpa using List.find?_some hf
      have hlt : first < second := by
        rcases eq_or_after_of_find? t.touched_sorted hf hx (by simp) with heq | hlt
        · cases heq; exact absurd rfl ha
        · exact hlt
      refine ⟨h.key, first, second, ⟨hlt, g, h, hg, hh, hgd, hhd, hk, rfl, ha⟩, ?_⟩
      simpa [ha, eq_comm] using he

theorem divergence?_of_diverge {key : Key} {first second : Nat} (h : t.Diverge key first second) :
    ∃ e, divergence? t.touched = some e := by
  obtain ⟨g, h, hg, hh, hgd, hhd, hgk, hhk, ha⟩ := h.differ
  cases hn : divergence? t.touched with
  | some e => exact ⟨e, rfl⟩
  | none =>
    have := divergence?_eq_none_iff.1 hn (g, first) (mem_touched.2 ⟨hg, hgd⟩) (h, second)
      (mem_touched.2 ⟨hh, hhd⟩) (hgk.trans hhk.symm)
    exact absurd this ha

/-- the lowest touched position of its key, with its handle -/
structure FirstDirty (t : Table) (i : Nat) (h : Handle) : Prop where
  here : t.handles[i]? = some h
  dirty : h.isDirty = true
  first : ∀ j g, j < i → t.handles[j]? = some g → g.isDirty = true → g.key ≠ h.key

theorem mem_distinctBy_touched {h : Handle} {i : Nat} :
    (h, i) ∈ distinctBy (fun x => x.1.key) t.touched ↔ t.FirstDirty i h := by
  rw [mem_distinctBy_iff]
  refine ⟨?_, ?_⟩
  · intro hf
    obtain ⟨here, dirty⟩ := mem_touched.1 (List.mem_of_find?_eq_some hf)
    refine ⟨here, dirty, fun j g hj hg hgd hk => ?_⟩
    rcases eq_or_after_of_find? t.touched_sorted hf (mem_touched.2 ⟨hg, hgd⟩) (by simpa using hk)
      with heq | hlt
    · cases heq; exact Nat.lt_irrefl _ hj
    · exact Nat.lt_asymm hj hlt
  · intro h
    obtain ⟨here, dirty, first⟩ := h
    have hx := mem_touched.2 ⟨here, dirty⟩
    cases hf : t.touched.find? fun y => y.1.key = h.key with
    | none => exact absurd (List.find?_eq_none.1 hf _ hx) (by simp)
    | some found =>
      rcases eq_or_after_of_find? t.touched_sorted hf hx (by simp) with heq | hlt
      · rw [heq]
      · obtain ⟨hg, hgd⟩ := mem_touched.1 (List.mem_of_find?_eq_some hf)
        exact absurd (by simpa using List.find?_some hf) (first found.2 found.1 hlt hg hgd)

theorem pending_error_iff {e : Error} : t.pending = .error e ↔ divergence? t.touched = some e := by
  unfold pending
  cases divergence? t.touched <;> simp

theorem pending_eq_ok_iff {writes : List Write} :
    t.pending = .ok writes ↔
      (∀ x ∈ t.touched, ∀ y ∈ t.touched, x.1.key = y.1.key → x.1.account = y.1.account) ∧
        writes = (distinctBy (fun x => x.1.key) t.touched).map fun x => writeOf x.1 x.2 := by
  rw [← divergence?_eq_none_iff]
  unfold pending
  cases divergence? t.touched <;> simp [eq_comm]

theorem nodup_keys_pending {writes : List Write} (h : t.pending = .ok writes) :
    (writes.map (·.key)).Nodup := by
  obtain ⟨_, rfl⟩ := pending_eq_ok_iff.1 h
  rw [List.map_map]
  exact nodup_map_distinctBy _ t.touched

end Table

/-! ## a batch on a store -/

namespace Ledger

variable {s : Store} {writes : List Write}

theorem find?_applyWrite (s : Store) (w : Write) (key : Key) :
    (applyWrite s w).find? key =
      if w.key = key then some (overwrite (s.read w.key) w) else s.find? key := by
  have hk : (overwrite (s.read w.key) w).key = w.key := s.key_read w.key
  rw [applyWrite, Store.find?_insert, hk]

theorem read_applyWrite (s : Store) (w : Write) (key : Key) :
    (applyWrite s w).read key =
      if w.key = key then overwrite (s.read w.key) w else s.read key := by
  unfold Store.read
  rw [find?_applyWrite]
  split <;> rfl

theorem find?_untouched {key : Key} (h : ∀ w ∈ writes, w.key ≠ key) :
    (writes.foldl applyWrite s).find? key = s.find? key := by
  induction writes generalizing s with
  | nil => rfl
  | cons w rest ih =>
    rw [List.foldl_cons, ih fun v hv => h v (List.mem_cons_of_mem _ hv), find?_applyWrite,
      if_neg (h w (List.mem_cons_self ..))]

theorem find?_writes (distinct : (writes.map (·.key)).Nodup) {w : Write} (h : w ∈ writes) :
    (writes.foldl applyWrite s).find? w.key = some (overwrite (s.read w.key) w) := by
  induction writes generalizing s with
  | nil => cases h
  | cons v rest ih =>
    rw [List.map_cons, List.nodup_cons] at distinct
    rw [List.foldl_cons]
    rcases List.mem_cons.1 h with rfl | h
    · have hrest : ∀ v ∈ rest, v.key ≠ w.key := fun v hv hk =>
        distinct.1 (hk ▸ List.mem_map_of_mem hv)
      rw [find?_untouched hrest, find?_applyWrite, if_pos rfl]
    · have hne : v.key ≠ w.key := fun hk => distinct.1 (hk ▸ List.mem_map_of_mem h)
      rw [ih distinct.2 h, read_applyWrite, if_neg hne]

/-! ## the sum of the balances -/

theorem total_applyWrite (s : Store) (w : Write) :
    (applyWrite s w).total + (s.lamports w.key).toNat =
      s.total + (w.lamports.getD (s.lamports w.key)).toNat := by
  have h := s.total_insert (overwrite (s.read w.key) w)
  rw [show (overwrite (s.read w.key) w).key = w.key from s.key_read w.key] at h
  exact h

theorem lamports_applyWrite {w : Write} {key : Key} (h : w.key ≠ key) :
    (applyWrite s w).lamports key = s.lamports key := by
  rw [Store.lamports, read_applyWrite, if_neg h, Store.lamports]

/-- A batch with distinct keys moves the sum by what it wants less what there was. -/
theorem total_batch (distinct : (writes.map (·.key)).Nodup) :
    (writes.foldl applyWrite s).total + totalBefore s writes =
      s.total + totalAfter s writes := by
  induction writes generalizing s with
  | nil => rfl
  | cons w rest ih =>
    rw [List.map_cons, List.nodup_cons] at distinct
    have hsame : ∀ v ∈ rest, (applyWrite s w).lamports v.key = s.lamports v.key := fun v hv =>
      lamports_applyWrite fun hk => distinct.1 (hk ▸ List.mem_map_of_mem hv)
    have hb : totalBefore (applyWrite s w) rest = totalBefore s rest :=
      Amount.total_congr fun v hv => hsame v hv
    have ha : totalAfter (applyWrite s w) rest = totalAfter s rest :=
      Amount.total_congr fun v hv => by rw [hsame v hv]
    have hrest := ih (s := applyWrite s w) distinct.2
    have hw := total_applyWrite s w
    rw [hb, ha] at hrest
    rw [List.foldl_cons]
    simp only [totalBefore, totalAfter, Amount.total_cons] at hrest ⊢
    omega

end Ledger

end AccountLedger
