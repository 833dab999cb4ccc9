import AccountLedger.Ledger
import AccountLedger.Proofs.Guards
/-!
# The slots of an inner call as a part of a store

An inner call gets each of its accounts once, as the store has it at that moment.  A native program
that changes its slots changes that part of the store, so what it does can be said about stores,
where accounts have keys, and not about slots, where they have places.

* `get_slots`, `put_slots`: a slot is the account of its key, and a change of a slot is an
  insertion;
* `position_eq_ok_iff`, `position_slots_iff`: the slot of a key is the first one that has it, and the
  only one in a part of a store;
* `Store.Within`: a change of some accounts in what programs may change about them.
-/

namespace AccountLedger

theorem get_inj_of_nodup {α : Type} {l : List α} (distinct : l.Nodup) {p q : Fin l.length} :
    l.get p = l.get q ↔ p = q := by
  refine ⟨?_, by rintro rfl; rfl⟩
  intro h
  apply Fin.ext
  rw [← List.getElem?_inj p.isLt distinct, List.getElem?_eq_getElem p.isLt,
    List.getElem?_eq_getElem q.isLt]
  exact congrArg some h

theorem exists_get_of_mem {α : Type} {l : List α} {a : α} (h : a ∈ l) : ∃ p, l.get p = a :=
  List.get_of_mem h

namespace Slots

variable {n : Nat} {accounts : Slots n} {key : Key} {p : Fin n}

theorem get_put (accounts : Slots n) (p : Fin n) (a : Account) (q : Fin n) :
    (accounts.put p a).get q = if p = q then a else accounts.get q := by
  show (accounts.set p.val a p.isLt)[q.val] = _
  rw [Vector.getElem_set]
  by_cases h : p = q
  · rw [if_pos h, if_pos (congrArg Fin.val h)]
  · rw [if_neg h, if_neg fun hv => h (Fin.ext hv)]
    rfl

/-- A key is at the first slot that has it. -/
theorem position_eq_ok_iff :
    accounts.position key = .ok p ↔
      (accounts.get p).key = key ∧ ∀ q < p, (accounts.get q).key ≠ key := by
  have hfound : accounts.position key = .ok p ↔ accounts.findFinIdx? (·.key = key) = some p := by
    unfold position
    split
    · rename_i q found
      rw [found, Except.ok.injEq, Option.some.injEq]
    · rename_i found
      simp [found]
  obtain ⟨xs, rfl⟩ := accounts
  have harray : Vector.findFinIdx? (fun a => decide (a.key = key)) ⟨xs, rfl⟩ =
      xs.findFinIdx? fun a => decide (a.key = key) := by simp [Vector.findFinIdx?]
  rw [hfound, harray, Array.findFinIdx?_eq_some_iff]
  simp [Vector.get]

theorem key_of_position (h : accounts.position key = .ok p) : (accounts.get p).key = key :=
  (position_eq_ok_iff.1 h).1

/-- Where a key is depends on the keys alone. -/
theorem position_of_keys {after : Slots n} (keys : ∀ q, (after.get q).key = (accounts.get q).key)
    (h : accounts.position key = .ok p) : after.position key = .ok p := by
  obtain ⟨here, first⟩ := position_eq_ok_iff.1 h
  exact position_eq_ok_iff.2 ⟨(keys p).trans here, fun q hq => keys q ▸ first q hq⟩

end Slots

namespace Store

/-- An owner of no stored account owns none, if it is not the one of vacant accounts. -/
theorem owner_read_ne {s : Store} {owner : Key} (claims : owner ≠ .system)
    (all : ∀ a ∈ s.accounts, a.owner ≠ owner) (key : Key) : (s.read key).owner ≠ owner := by
  unfold read
  cases h : s.find? key with
  | none => exact Ne.symm claims
  | some a => exact all a (List.mem_of_find?_eq_some h)

/-- the accounts of the keys, as slots -/
def slots (s : Store) (keys : List Key) : Slots keys.length :=
  ⟨(keys.map s.read).toArray, by simp⟩

/-- the store with other data under a key -/
def putData (s : Store) (key : Key) (data : Bytes) : Store := s.insert { s.read key with data }

/-- the store with another balance under a key -/
def putLamports (s : Store) (key : Key) (lamports : Amount) : Store :=
  s.insert { s.read key with lamports }

variable {s s' : Store} {keys : List Key} {key : Key} {p : Fin keys.length}

theorem read_putData (s : Store) (key : Key) (data : Bytes) (other : Key) :
    (s.putData key data).read other =
      if key = other then { s.read key with data } else s.read other := by
  rw [putData, read_insert, key_read]

theorem read_putLamports (s : Store) (key : Key) (lamports : Amount) (other : Key) :
    (s.putLamports key lamports).read other =
      if key = other then { s.read key with lamports } else s.read other := by
  rw [putLamports, read_insert, key_read]

/-! ## slots -/

@[simp] theorem toList_slots (s : Store) (keys : List Key) :
    (s.slots keys).toList = keys.map s.read := rfl

theorem slots_congr (h : ∀ key ∈ keys, s.read key = s'.read key) :
    s.slots keys = s'.slots keys := by
  apply Vector.toList_inj.1
  rw [toList_slots, toList_slots]
  exact List.map_congr_left h

@[simp] theorem get_slots (s : Store) (keys : List Key) (p : Fin keys.length) :
    (s.slots keys).get p = s.read (keys.get p) := by
  simp [slots, Vector.get]
  rfl

theorem put_slots (distinct : keys.Nodup) {a : Account} (ha : a.key = keys.get p) :
    (s.slots keys).put p a = (s.insert a).slots keys := by
  apply Vector.toList_inj.1
  rw [Slots.put, Vector.toList_set, toList_slots, toList_slots]
  apply List.ext_getElem (by simp)
  intro i hi hj
  have hlt : i < keys.length := by simpa using hj
  rw [List.getElem_map, read_insert, ha, List.getElem_set, List.getElem_map]
  have hinj : keys.get p = keys[i] ↔ p = ⟨i, hlt⟩ := get_inj_of_nodup distinct (q := ⟨i, hlt⟩)
  by_cases hp : p.val = i
  · rw [if_pos hp, if_pos (hinj.2 (Fin.ext hp))]
  · rw [if_neg hp, if_neg fun h => hp (congrArg Fin.val (hinj.1 h))]

theorem position_slots_iff (distinct : keys.Nodup) :
    (s.slots keys).position key = .ok p ↔ keys.get p = key := by
  have hkey : ∀ q, ((s.slots keys).get q).key = keys.get q := fun q => by rw [get_slots, key_read]
  rw [Slots.position_eq_ok_iff, hkey]
  refine and_iff_left_of_imp fun here q hq => ?_
  rw [hkey, ← here, Ne, get_inj_of_nodup distinct]
  exact Fin.ne_of_lt hq

/-! ## changes -/

theorem data_putLamports (s : Store) (key : Key) (lamports : Amount) (other : Key) :
    ((s.putLamports key lamports).read other).data = (s.read other).data := by
  rw [read_putLamports]
  split
  · rename_i h
    rw [h]
  · rfl

/-- no account becomes or ceases to be a program, or changes its rent epoch -/
def SameKind (s s' : Store) : Prop :=
  ∀ key, (s'.read key).executable = (s.read key).executable ∧
    (s'.read key).rentEpoch = (s.read key).rentEpoch

/-- only the accounts of the keys change, and none of them in kind -/
structure Within (s : Store) (keys : List Key) (s' : Store) : Prop where
  kind : s.SameKind s'
  beyond : ∀ key, key ∉ keys → s'.read key = s.read key

namespace Within

variable {s'' : Store}

theorem refl (s : Store) (keys : List Key) : s.Within keys s :=
  ⟨fun _ => ⟨rfl, rfl⟩, fun _ _ => rfl⟩

theorem trans (h : s.Within keys s') (h' : s'.Within keys s'') : s.Within keys s'' where
  kind key := ⟨(h'.kind key).1.trans (h.kind key).1, (h'.kind key).2.trans (h.kind key).2⟩
  beyond key hk := (h'.beyond key hk).trans (h.beyond key hk)

theorem insert (s : Store) {a : Account} (hk : key ∈ keys) (ha : a.key = key)
    (executable : a.executable = (s.read key).executable)
    (rentEpoch : a.rentEpoch = (s.read key).rentEpoch) : s.Within keys (s.insert a) where
  kind other := by
    rw [read_insert, ha]
    split
    · rename_i h
      rw [← h]
      exact ⟨executable, rentEpoch⟩
    · exact ⟨rfl, rfl⟩
  beyond other hother := by
    have hne : a.key ≠ other := fun h => hother (h ▸ ha ▸ hk)
    rw [read_insert, if_neg hne]

theorem putData (s : Store) (hk : key ∈ keys) (data : Bytes) :
    s.Within keys (s.putData key data) :=
  insert s hk (s.key_read key) rfl rfl

theorem putLamports (s : Store) (hk : key ∈ keys) (lamports : Amount) :
    s.Within keys (s.putLamports key lamports) :=
  insert s hk (s.key_read key) rfl rfl

end Within

/-- the store after an account was made at a vacant key -/
def made (s : Store) (payer target : Key) (rent : Amount) (space : Nat) (owner : Key) :
    Store :=
  (s.putLamports payer ((s.read payer).lamports - rent)).insert
    { s.read target with lamports := rent, data := List.replicate space 0, owner }

theorem read_made (s : Store) (payer target : Key) (rent : Amount) (space : Nat) (owner key : Key) :
    (s.made payer target rent space owner).read key =
      if target = key then
        { s.read target with lamports := rent, data := List.replicate space 0, owner }
      else if payer = key then { s.read payer with lamports := (s.read payer).lamports - rent }
      else s.read key := by
  rw [made, read_insert, key_read, read_putLamports]

theorem read_filled (s : Store) (payer target : Key) (rent : Amount) (space : Nat) (owner : Key)
    (data : Bytes) (key : Key) :
    ((s.made payer target rent space owner).putData target data).read key =
      if target = key then { s.read target with lamports := rent, data, owner }
      else if payer = key then { s.read payer with lamports := (s.read payer).lamports - rent }
      else s.read key := by
  rw [read_putData, read_made, if_pos rfl, read_made]
  by_cases h : target = key
  · rw [if_pos h, if_pos h]
  · rw [if_neg h, if_neg h, if_neg h]

/-! ## balances -/

theorem total_slots (s : Store) (keys : List Key) :
    (s.slots keys).total = Amount.total s.lamports keys := by
  rw [Slots.total, toList_slots]
  induction keys with
  | nil => rfl
  | cons key rest ih =>
    rw [List.map_cons, Amount.total_cons, Amount.total_cons, ih]
    rfl

end Store

end AccountLedger
