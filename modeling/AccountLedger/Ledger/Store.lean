import AccountLedger.Account
/-!
# The store

The accounts of the ledger, each under its key, in ascending order of keys.  A key without an
account reads as a vacant one.

* `find?_insert`: what is found after an insertion;
* `sum_insert`: what an insertion does to the sum of an amount over all accounts.
-/

namespace AccountLedger

/-- a sorted list with an account put in, over the one of its key -/
def insertAccount (a : Account) : List Account → List Account
  | [] => [a]
  | b :: rest =>
    if a.key = b.key then a :: rest
    else if a.key < b.key then a :: b :: rest
    else b :: insertAccount a rest

theorem mem_insertAccount {a x : Account} {l : List Account} (h : x ∈ insertAccount a l) :
    x = a ∨ x ∈ l := by
  induction l with
  | nil => simpa [insertAccount] using h
  | cons b rest ih =>
    simp only [insertAccount] at h
    split at h
    · rcases List.mem_cons.1 h with h | h
      · exact .inl h
      · exact .inr (List.mem_cons_of_mem _ h)
    · split at h
      · exact List.mem_cons.1 h
      · rcases List.mem_cons.1 h with rfl | h
        · exact .inr (List.mem_cons_self ..)
        · rcases ih h with h | h
          · exact .inl h
          · exact .inr (List.mem_cons_of_mem _ h)

theorem pairwise_insertAccount (a : Account) {l : List Account}
    (h : l.Pairwise fun x y => x.key < y.key) :
    (insertAccount a l).Pairwise fun x y => x.key < y.key := by
  induction l with
  | nil => simp [insertAccount]
  | cons b rest ih =>
    obtain ⟨hb, hrest⟩ := List.pairwise_cons.1 h
    simp only [insertAccount]
    split
    · rename_i hk
      exact List.pairwise_cons.2 ⟨fun x hx => hk ▸ hb x hx, hrest⟩
    · rename_i hk
      split
      · rename_i hlt
        refine List.pairwise_cons.2 ⟨fun x hx => ?_, h⟩
        rcases List.mem_cons.1 hx with rfl | hx
        · exact hlt
        · exact Nat.lt_trans hlt (hb x hx)
      · rename_i hlt
        refine List.pairwise_cons.2 ⟨fun x hx => ?_, ih hrest⟩
        rcases mem_insertAccount hx with rfl | hx
        · exact Key.lt_of_ne_of_not_lt hk hlt
        · exact hb x hx

structure Store where
  accounts : List Account
  sorted : accounts.Pairwise fun a b => a.key < b.key
deriving DecidableEq

namespace Store

def empty : Store := ⟨[], .nil⟩

/-- the account of a key -/
def find? (s : Store) (key : Key) : Option Account := s.accounts.find? (·.key = key)

/-- the account of a key, vacant if there is none -/
def read (s : Store) (key : Key) : Account := (s.find? key).getD (.vacant key)

/-- puts an account under its key -/
def insert (s : Store) (a : Account) : Store :=
  ⟨insertAccount a s.accounts, pairwise_insertAccount a s.sorted⟩

/-- the balance of a key, zero if there is no account -/
def lamports (s : Store) (key : Key) : Amount := (s.read key).lamports

/-- the sum of an amount over all accounts -/
def sum (s : Store) (amount : Account → Amount) : Nat := Amount.total amount s.accounts

/-- the sum of all balances -/
def total (s : Store) : Nat := Amount.total (·.lamports) s.accounts

theorem key_of_find? {s : Store} {key : Key} {a : Account} (h : s.find? key = some a) :
    a.key = key := by
  simpa using List.find?_some h

@[simp] theorem key_read (s : Store) (key : Key) : (s.read key).key = key := by
  unfold read
  cases h : s.find? key with
  | none => rfl
  | some a => simpa using key_of_find? h

theorem find?_insertAccount {a : Account} {l : List Account} {key : Key} :
    (insertAccount a l).find? (·.key = key) =
      if a.key = key then some a else l.find? (·.key = key) := by
  induction l with
  | nil => by_cases h : a.key = key <;> simp [insertAccount, h]
  | cons b rest ih =>
    simp only [insertAccount]
    split
    · rename_i hk
      by_cases h : a.key = key
      · simp [h]
      · simp [h, hk ▸ h]
    · rename_i hk
      split
      · by_cases h : a.key = key <;> simp [List.find?_cons, h]
      · rw [List.find?_cons, ih, List.find?_cons]
        by_cases h : b.key = key
        · have : a.key ≠ key := fun h' => hk (h'.trans h.symm)
          simp [h, this]
        · simp [h]

/-- an inserted account is found under its key, and nothing changes under the others -/
theorem find?_insert (s : Store) (a : Account) (key : Key) :
    (s.insert a).find? key = if a.key = key then some a else s.find? key :=
  find?_insertAccount

theorem read_insert (s : Store) (a : Account) (key : Key) :
    (s.insert a).read key = if a.key = key then a else s.read key := by
  unfold read
  rw [find?_insert]
  split <;> rfl

theorem total_insertAccount (amount : Account → Amount) (a : Account) {l : List Account}
    (h : l.Pairwise fun x y => x.key < y.key) :
    Amount.total amount (insertAccount a l) +
        ((l.find? (·.key = a.key)).map fun b => (amount b).toNat).getD 0 =
      Amount.total amount l + (amount a).toNat := by
  induction l with
  | nil => simp [insertAccount, Amount.total]
  | cons b rest ih =>
    obtain ⟨hb, hrest⟩ := List.pairwise_cons.1 h
    simp only [insertAccount]
    split
    · rename_i hk
      simp [hk, Amount.total]
      omega
    · rename_i hk
      have hk' : b.key ≠ a.key := fun h' => hk h'.symm
      split
      · rename_i hlt
        have hnone : rest.find? (·.key = a.key) = none := by
          rw [List.find?_eq_none]
          intro x hx
          have := Nat.lt_trans hlt (hb x hx)
          simp only [decide_eq_true_eq]
          intro hx'
          rw [hx'] at this
          exact Nat.lt_irrefl _ this
        simp [hk', hnone, Amount.total]
        omega
      · have := ih hrest
        simp only [Amount.total, List.find?_cons, hk', decide_false]
        omega

/-- an insertion replaces one amount in the sum -/
theorem sum_insert (s : Store) (amount : Account → Amount) (a : Account)
    (vacant : amount (.vacant a.key) = 0) :
    (s.insert a).sum amount + (amount (s.read a.key)).toNat = s.sum amount + (amount a).toNat := by
  have h := total_insertAccount amount a s.sorted
  have hread : (amount (s.read a.key)).toNat =
      ((s.accounts.find? (·.key = a.key)).map fun b => (amount b).toNat).getD 0 := by
    unfold read find?
    cases s.accounts.find? (·.key = a.key) with
    | none => exact congrArg UInt64.toNat vacant
    | some b => rfl
  rw [hread]
  exact h

theorem total_insert (s : Store) (a : Account) :
    (s.insert a).total + (s.lamports a.key).toNat = s.total + a.lamports.toNat :=
  s.sum_insert (·.lamports) a rfl

end Store

end AccountLedger
