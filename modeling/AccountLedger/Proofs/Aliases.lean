import AccountLedger.InnerCall
/-!
# The first item of a key

Several positions may name one account.  The checks on them compare each with the first one of its
key, and a batch takes the first of each key.

* `agree_with_first_iff`: to agree with the first item of one's key is to agree with all of them;
* `mem_distinctBy_iff`: what remains of a list is what is first of its key;
* `eq_of_nodup`: where all keys are different, the first item of a key is the only one.
-/

namespace AccountLedger

variable {α β γ : Type}

/-- What a search in an ordered list passes over does not count. -/
theorem eq_or_after_of_find? {r : α → α → Prop} {l : List α} (sorted : l.Pairwise r)
    {p : α → Bool} {first x : α} (h : l.find? p = some first) (hx : x ∈ l) (hp : p x = true) :
    x = first ∨ r first x := by
  obtain ⟨_, front, rest, rfl, hfront⟩ := List.find?_eq_some_iff_append.1 h
  rcases List.mem_append.1 hx with hx | hx
  · have := hfront x hx
    rw [hp] at this
    cases this
  · rcases List.mem_cons.1 hx with rfl | hx
    · exact .inl rfl
    · have := (List.pairwise_append.1 sorted).2.1
      exact .inr ((List.pairwise_cons.1 this).1 x hx)

/-- Where all keys are different, an item has its key to itself. -/
theorem position_eq_of_nodup.{u, v} {α : Type u} {β : Type v} {key : α → β} {l : List α}
    (distinct : (l.map key).Nodup) {i j : Nat} {a b : α} (ha : l[i]? = some a) (hb : l[j]? = some b)
    (hk : key a = key b) : i = j := by
  have hlt : i < (l.map key).length := by
    rw [List.length_map]
    exact (List.getElem?_eq_some_iff.1 ha).1
  refine (List.getElem?_inj hlt distinct).1 ?_
  rw [List.getElem?_map, List.getElem?_map, ha, hb, Option.map_some, Option.map_some, hk]

theorem eq_of_nodup.{u, v} {α : Type u} {β : Type v} {key : α → β} {l : List α}
    (distinct : (l.map key).Nodup) {a b : α} (ha : a ∈ l) (hb : b ∈ l) (hk : key a = key b) :
    a = b := by
  obtain ⟨i, hi⟩ := List.getElem?_of_mem ha
  obtain ⟨j, hj⟩ := List.getElem?_of_mem hb
  rw [position_eq_of_nodup distinct hi hj hk, hj] at hi
  exact (Option.some.inj hi).symm

variable [DecidableEq β]

theorem agree_with_first_iff (key : α → β) (view : α → γ) (l : List α) :
    (∀ x ∈ l, ∀ first, l.find? (fun y => key y = key x) = some first → view first = view x) ↔
      ∀ x ∈ l, ∀ y ∈ l, key x = key y → view x = view y := by
  refine ⟨?_, ?_⟩
  · intro h x hx y hy hk
    cases hf : l.find? (fun z => key z = key x) with
    | none => exact absurd (List.find?_eq_none.1 hf x hx) (by simp)
    | some first =>
      have hfy : l.find? (fun z => key z = key y) = some first := by rw [← hk]; exact hf
      exact (h x hx first hf).symm.trans (h y hy first hfy)
  · intro h x hx first hf
    have hk : key first = key x := by simpa using List.find?_some hf
    exact h first (List.mem_of_find?_eq_some hf) x hx hk

theorem mem_distinctBy_iff {key : α → β} {l : List α} {a : α} :
    a ∈ distinctBy key l ↔ l.find? (fun b => key b = key a) = some a := by
  induction l with
  | nil => simp [distinctBy]
  | cons c rest ih =>
    rw [distinctBy, List.mem_cons, List.mem_filter, ih, List.find?_cons]
    by_cases hk : key c = key a
    · simp [hk, eq_comm]
    · have hca : a ≠ c := by rintro rfl; exact hk rfl
      have hk' : key a ≠ key c := fun h => hk h.symm
      simp [hk, hk', hca]

theorem distinctBy_sublist (key : α → β) (l : List α) : (distinctBy key l).Sublist l := by
  induction l with
  | nil => exact .slnil
  | cons c rest ih => exact (List.filter_sublist.trans ih).cons_cons c

theorem mem_distinctBy_id {l : List β} {b : β} : b ∈ distinctBy id l ↔ b ∈ l := by
  refine ⟨?_, ?_⟩
  · exact mem_of_mem_distinctBy
  · intro h
    obtain ⟨c, hc, rfl⟩ : ∃ c ∈ distinctBy id l, id c = b := exists_mem_distinctBy h
    exact hc

theorem nodup_distinctBy_id (l : List β) : (distinctBy id l).Nodup := by
  have := nodup_map_distinctBy id l
  rwa [List.map_id] at this

end AccountLedger
