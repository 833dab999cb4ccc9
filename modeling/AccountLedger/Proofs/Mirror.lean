import AccountLedger.Proofs.Faithful
import AccountLedger.Proofs.Slots
import AccountLedger.Proofs.Ungranted
/-!
# A table as the draft of a store

While an invocation runs, its table is a draft of the store as it will be.  The touched positions
show the new accounts, all others still show the old ones, even where another position of the same
account was touched.  If the invocation commits, the ledger then holds the new store.

* `Mirrors.created`, `Mirrors.saved`: making an account in an untouched table, and filling its data;
* `Mirrors.adopted`: taking over the result of an inner call;
* `Persists.mirrors`: what a committed invocation leaves in the ledger.
-/

namespace AccountLedger

namespace Table

variable {base now now' : Store} {t : Table}

/-- the handles show the accounts of the store -/
def Shows (s : Store) (t : Table) : Prop := ∀ h ∈ t.handles, h.account = s.read h.key

/-- no handle was touched -/
def Clean (t : Table) : Prop := ∀ h ∈ t.handles, h.isDirty = false

/-- The touched handles show the new store and the others the old one; the stores differ only where
a handle was touched. -/
structure Mirrors (base now : Store) (t : Table) : Prop where
  touched : ∀ h ∈ t.handles, h.isDirty = true → h.account = now.read h.key
  clean : ∀ h ∈ t.handles, h.isDirty = false → h.account = base.read h.key
  beyond : ∀ key, (∀ h ∈ t.handles, h.isDirty = true → h.key ≠ key) → now.read key = base.read key

theorem Shows.mirrors (shown : t.Shows base) : t.Mirrors base base where
  touched h hh _ := shown h hh
  clean h hh _ := shown h hh
  beyond _ _ := rfl

theorem bound_clean {program : Key} {entries : List Entry} {layout : Layout}
    (h : bind program entries layout = .ok t) : t.Clean := by
  obtain ⟨_, _, _, rfl⟩ := binds_iff.1 h
  intro g hg
  obtain ⟨i, hi⟩ := List.getElem?_of_mem hg
  obtain ⟨e, _, hb⟩ := getElem?_bound hi
  rw [Handle.isDirty, hb.clean]
  rfl

theorem bound_shows {program : Key} {entries : List Entry} {layout : Layout} {s : Store}
    (h : bind program entries layout = .ok t)
    (stored : ∀ e ∈ entries, e.account = s.read e.account.key) : t.Shows s := by
  obtain ⟨_, _, _, rfl⟩ := binds_iff.1 h
  intro g hg
  obtain ⟨i, hi⟩ := List.getElem?_of_mem hg
  obtain ⟨e, he, hb⟩ := getElem?_bound hi
  rw [Handle.key, hb.account]
  exact stored e (List.mem_of_getElem? he)

namespace Mirrors

/-- A handle shows the new store if all handles of its key agree. -/
theorem of_agree (mirrors : t.Mirrors base now) {h : Handle} (hh : h ∈ t.handles)
    (agree : ∀ g ∈ t.handles, g.key = h.key → g.account = h.account) :
    h.account = now.read h.key := by
  by_cases hd : ∃ g ∈ t.handles, g.isDirty = true ∧ g.key = h.key
  · obtain ⟨g, hg, hgd, hk⟩ := hd
    rw [← agree g hg hk, mirrors.touched g hg hgd, hk]
  · have hclean : h.isDirty = false := by
      rw [← Bool.not_eq_true]
      intro hhd
      exact hd ⟨h, hh, hhd, rfl⟩
    rw [mirrors.beyond h.key fun g hg hgd hk => hd ⟨g, hg, hgd, hk⟩, mirrors.clean h hh hclean]

/-! ## making an account -/

/-- A touched handle in the place of one of its key, which no other touched position shares. -/
theorem put (mirrors : t.Mirrors base now) {position : Nat} {h h' : Handle}
    (here : t.handles[position]? = some h) (hkey : h'.key = h.key) (hdirty : h'.isDirty = true)
    (alone : ∀ other g, t.handles[other]? = some g → g.isDirty = true → g.key = h.key →
      other = position) :
    (t.put position h').Mirrors base (now.insert h'.account) := by
  have hread : ∀ key, (now.insert h'.account).read key =
      if h.key = key then h'.account else now.read key := by
    intro key
    rw [Store.read_insert]
    show (if h'.key = key then _ else _) = _
    rw [hkey]
  have hlt : position < t.handles.length := (List.getElem?_eq_some_iff.1 here).1
  refine ⟨?_, ?_, ?_⟩
  · intro g hg hd
    obtain ⟨other, hother⟩ := List.getElem?_of_mem hg
    rcases getElem?_put hother with ⟨rfl, rfl⟩ | hold
    · rw [hread, if_pos hkey.symm]
    · rw [hread]
      by_cases hk : h.key = g.key
      -- a touched position of the key was the one that is replaced
      · have := alone other g hold hd hk.symm
        subst this
        rw [handles_put, List.getElem?_set_self hlt] at hother
        cases hother
        rw [if_pos hk]
      · rw [if_neg hk]
        exact mirrors.touched g (List.mem_of_getElem? hold) hd
  · intro g hg hd
    obtain ⟨other, hother⟩ := List.getElem?_of_mem hg
    rcases getElem?_put hother with ⟨rfl, rfl⟩ | hold
    · rw [hdirty] at hd
      cases hd
    · exact mirrors.clean g (List.mem_of_getElem? hold) hd
  · intro key hnone
    have hmem : h' ∈ (t.put position h').handles := by
      rw [handles_put]
      exact List.mem_of_getElem? (List.getElem?_set_self hlt)
    have hne : h.key ≠ key := hkey ▸ hnone h' hmem hdirty
    rw [hread, if_neg hne]
    refine mirrors.beyond key fun g hg hd => ?_
    obtain ⟨other, hother⟩ := List.getElem?_of_mem hg
    by_cases ho : other = position
    · subst ho
      rw [here] at hother
      cases hother
      exact hne
    · refine hnone g ?_ hd
      rw [handles_put]
      refine List.mem_of_getElem? (i := other) ?_
      rw [List.getElem?_set_ne (Ne.symm ho)]
      exact hother

end Mirrors

theorem account_moveLamports (amount : Amount) (h : Handle) :
    (h.moveLamports amount).account = { h.account with lamports := amount } := by
  unfold Handle.moveLamports
  split
  · rename_i heq
    rw [heq]
  · rfl

theorem isDirty_moveLamports {amount : Amount} {h : Handle} (changed : amount ≠ h.account.lamports) :
    (h.moveLamports amount).isDirty = true := by
  rw [Handle.moveLamports, if_neg changed]
  rfl

variable {payer target space : Nat} {owner : Key} {seeds : Option SignerSeeds} {rent : Amount}
  {bySeeds : Bool} {funder fresh : Handle}

/-- Nobody pays for an account of his own key. -/
theorem MayCreate.key_ne (may : t.MayCreate payer target seeds rent bySeeds funder fresh)
    (shown : t.Shows base) (paid : rent ≠ 0) : funder.key ≠ fresh.key := by
  intro hk
  have hf := shown funder (List.mem_of_getElem? may.funder_at)
  rw [hk, ← shown fresh (List.mem_of_getElem? may.fresh_at)] at hf
  have hfunds := may.funds
  rw [hf, (Account.isVacant_iff.1 may.vacant).1] at hfunds
  exact paid (UInt64.le_zero_iff.1 hfunds)

/-- In an untouched table, a new account is the only touched position of its key. -/
theorem Mirrors.created (space : Nat) (owner : Key) (shown : t.Shows base) (clean : t.Clean)
    (may : t.MayCreate payer target seeds rent bySeeds funder fresh) (paid : rent ≠ 0) :
    let t' := t.created payer target rent funder ((funded bySeeds rent fresh).allocate space owner)
    t'.Mirrors base (base.made funder.key fresh.key rent space owner) ∧
      ∀ other g, t'.handles[other]? = some g → g.isDirty = true → g.key = fresh.key →
        other = target := by
  have hne := may.key_ne shown paid
  have hfunder := shown funder (List.mem_of_getElem? may.funder_at)
  have hfresh := shown fresh (List.mem_of_getElem? may.fresh_at)
  let funder' := funder.moveLamports (funder.account.lamports - rent)
  let made := (funded bySeeds rent fresh).allocate space owner
  have hchanged : funder.account.lamports - rent ≠ funder.account.lamports := by
    have hle := UInt64.le_iff_toNat_le.1 may.funds
    have hsub := UInt64.toNat_sub_of_le _ _ may.funds
    rw [ne_eq, ← UInt64.toNat_inj] at paid ⊢
    rw [hsub]
    rw [UInt64.toNat_zero] at paid
    omega
  have hfirst : (t.put payer funder').Mirrors base (base.insert funder'.account) :=
    shown.mirrors.put may.funder_at (Handle.key_moveLamports _ _) (isDirty_moveLamports hchanged)
      fun other g hg hd => absurd hd (by simp [clean g (List.mem_of_getElem? hg)])
  have hother : ∀ other g, (t.put payer funder').handles[other]? = some g → g.isDirty = true →
      g.key = fresh.key → other = target := by
    intro other g hg hd hk
    rcases getElem?_put hg with ⟨rfl, rfl⟩ | hold
    · exact absurd ((Handle.key_moveLamports _ _).symm.trans hk) hne
    · rw [clean g (List.mem_of_getElem? hold)] at hd
      cases hd
  have hthere : (t.put payer funder').handles[target]? = some fresh := by
    rw [handles_put, List.getElem?_set_ne may.ne]
    exact may.fresh_at
  have hsecond : ((t.put payer funder').put target made).Mirrors base
      ((base.insert funder'.account).insert made.account) :=
    hfirst.put hthere (Handle.key_moveLamports _ _)
      (by simp [made, Handle.isDirty, Handle.allocate, Dirty.any]) hother
  have hstore : (base.insert funder'.account).insert made.account =
      base.made funder.key fresh.key rent space owner := by
    have hmade : made.account = { base.read fresh.key with
        lamports := rent, data := List.replicate space 0, owner } := by
      rw [← hfresh]
      simp only [made, funded, Handle.allocate, account_moveLamports]
    rw [hmade, Store.made, Store.putLamports, ← hfunder]
    simp only [funder', account_moveLamports]
  refine ⟨hstore ▸ hsecond, fun other g hg hd hk => ?_⟩
  rcases getElem?_put hg with ⟨h, _⟩ | hold
  · exact h
  · exact hother other g hold hd hk

theorem Mirrors.saved (mirrors : t.Mirrors base now) {position : Nat} {h h' : Handle}
    (here : t.handles[position]? = some h) (shows : h.account = now.read h.key)
    (alone : ∀ other g, t.handles[other]? = some g → g.isDirty = true → g.key = h.key →
      other = position) {program : Key} {expected : Tag} {payload : Bytes}
    (saved : h.save program expected payload = .ok h') :
    (t.put position h').Mirrors base
      (now.putData h.key (expected.image payload h.account.data.length)) := by
  obtain ⟨_, _, _, _, _, rfl⟩ := Handle.save_eq_ok_iff.1 saved
  let filled : Handle := { h with
    account := { h.account with data := expected.image payload h.account.data.length }
    dirty := { h.dirty with data := true } }
  have hput : (t.put position filled).Mirrors base (now.insert filled.account) :=
    mirrors.put here rfl (by simp [filled, Handle.isDirty, Dirty.any]) alone
  rw [Store.putData, ← shows]
  exact hput

/-! ## inner calls -/

theorem adoptAll_of_mem {updates : List Account} (distinct : (updates.map (·.key)).Nodup)
    {h : Handle} {a : Account} (ha : a ∈ updates) (hk : a.key = h.key) :
    h.adoptAll updates = h.adopt a := by
  unfold Handle.adoptAll
  induction updates with
  | nil => cases ha
  | cons b rest ih =>
    rw [List.map_cons, List.nodup_cons] at distinct
    rw [List.foldl_cons]
    rcases List.mem_cons.1 ha with rfl | ha
    · rw [if_pos hk.symm]
      refine Handle.adoptAll_of_ne (h := h.adopt a) fun b hb hbk => distinct.1 ?_
      rw [hk, ← show b.key = h.key from hbk]
      exact List.mem_map_of_mem hb
    · have hne : ¬ h.key = b.key := fun hb =>
        distinct.1 (by rw [← hb, ← hk]; exact List.mem_map_of_mem ha)
      rw [if_neg hne]
      exact ih distinct.2 ha

theorem adoptAll_returned {keys writable : List Key} (distinct : keys.Nodup)
    (passed : ∀ key ∈ writable, key ∈ keys) (s : Store) (h : Handle) :
    h.adoptAll ((keys.map s.read).filter fun a => writable.contains a.key) =
      if h.key ∈ writable then h.adopt (s.read h.key) else h := by
  by_cases hw : h.key ∈ writable
  · rw [if_pos hw]
    have hkeys : (keys.map s.read).map (·.key) = keys := by
      rw [List.map_map]
      exact (List.map_congr_left fun key _ => s.key_read key).trans (List.map_id keys)
    refine adoptAll_of_mem ?_ (List.mem_filter.2 ⟨List.mem_map_of_mem (passed _ hw), ?_⟩)
      (s.key_read _)
    · exact (hkeys ▸ distinct).sublist (List.filter_sublist.map _)
    · rw [Store.key_read, List.contains_iff_mem]
      exact hw
  · rw [if_neg hw]
    refine Handle.adoptAll_of_ne fun a ha hk => hw ?_
    rw [← hk]
    exact List.contains_iff_mem.1 (List.mem_filter.1 ha).2

section

variable {keys writable : List Key}

/-- The table after a call took over the accounts of a store. -/
theorem adopt_returned (t : Table) (distinct : keys.Nodup) (passed : ∀ key ∈ writable, key ∈ keys)
    (s : Store) : InnerCall.adopt writable (keys.map s.read) t = { t with
      handles := t.handles.map fun h => if h.key ∈ writable then h.adopt (s.read h.key) else h } := by
  rw [InnerCall.adopt, InnerCall.foldl_adoptOne]
  exact congrArg (Table.mk t.program) (List.map_congr_left fun h _ =>
    adoptAll_returned distinct passed s h)

theorem mem_adopted (distinct : keys.Nodup) (passed : ∀ key ∈ writable, key ∈ keys)
    {s : Store} {h' : Handle}
    (hh' : h' ∈ (InnerCall.adopt writable (keys.map s.read) t).handles) :
    ∃ h ∈ t.handles, h' = if h.key ∈ writable then h.adopt (s.read h.key) else h := by
  rw [adopt_returned t distinct passed] at hh'
  obtain ⟨h, hh, rfl⟩ := List.mem_map.1 hh'
  exact ⟨h, hh, rfl⟩

/-- A handle that takes over a new state of the account that it shows then shows the new state. -/
theorem account_adopt {h : Handle} (shown : h.account = now.read h.key)
    (kind : now.SameKind now') : (h.adopt (now'.read h.key)).account = now'.read h.key := by
  obtain ⟨hx, he⟩ := kind h.key
  have hkey := now'.key_read h.key
  simp only [Handle.adopt]
  rw [show h.account.executable = (now'.read h.key).executable by rw [shown, hx],
    show h.account.rentEpoch = (now'.read h.key).rentEpoch by rw [shown, he],
    show h.account.key = (now'.read h.key).key from hkey.symm]

theorem Shows.adopted (shown : t.Shows now) (distinct : keys.Nodup)
    (passed : ∀ key ∈ writable, key ∈ keys)
    (kept : ∀ key, key ∉ writable → now'.read key = now.read key) (kind : now.SameKind now') :
    (InnerCall.adopt writable (keys.map now'.read) t).Shows now' := by
  intro h' hh'
  obtain ⟨h, hh, rfl⟩ := mem_adopted distinct passed hh'
  by_cases hw : h.key ∈ writable
  · rw [if_pos hw]
    exact account_adopt (shown h hh) kind
  · rw [if_neg hw, kept _ hw]
    exact shown h hh

theorem Mirrors.adopted (mirrors : t.Mirrors base now) (distinct : keys.Nodup)
    (passed : ∀ key ∈ writable, key ∈ keys)
    (shown : ∀ h ∈ t.handles, h.key ∈ keys → h.account = now.read h.key)
    (present : ∀ key ∈ writable, ∃ h ∈ t.handles, h.key = key)
    (kept : ∀ key, key ∉ writable → now'.read key = now.read key) (kind : now.SameKind now') :
    (InnerCall.adopt writable (keys.map now'.read) t).Mirrors base now' := by
  have hdirty : ∀ (h : Handle) (a : Account), (h.adopt a).isDirty = true := fun h a => by
    simp [Handle.isDirty, Handle.adopt, Dirty.any]
  refine ⟨?_, ?_, ?_⟩
  · intro h' hh' hd
    obtain ⟨h, hh, rfl⟩ := mem_adopted distinct passed hh'
    by_cases hw : h.key ∈ writable
    · rw [if_pos hw]
      exact account_adopt (shown h hh (passed _ hw)) kind
    · rw [if_neg hw] at hd ⊢
      rw [kept _ hw]
      exact mirrors.touched h hh hd
  · intro h' hh' hd
    obtain ⟨h, hh, rfl⟩ := mem_adopted distinct passed hh'
    by_cases hw : h.key ∈ writable
    · rw [if_pos hw, hdirty] at hd
      cases hd
    · rw [if_neg hw] at hd ⊢
      exact mirrors.clean h hh hd
  · intro key hnone
    have hmem : ∀ h ∈ t.handles, (if h.key ∈ writable then h.adopt (now'.read h.key) else h) ∈
        (InnerCall.adopt writable (keys.map now'.read) t).handles := by
      intro h hh
      rw [adopt_returned t distinct passed]
      exact List.mem_map.2 ⟨h, hh, rfl⟩
    have hkw : key ∉ writable := by
      intro hw
      obtain ⟨h, hh, rfl⟩ := present key hw
      have := hnone _ (hmem h hh)
      rw [if_pos hw] at this
      exact this (hdirty _ _) rfl
    rw [kept key hkw]
    refine mirrors.beyond key fun h hh hd hk => ?_
    have hw : h.key ∉ writable := hk ▸ hkw
    have := hnone _ (hmem h hh)
    rw [if_neg hw] at this
    exact this hd hk

end

end Table

/-! ## what is left in the ledger -/

/-- A table is the draft of one store only. -/
theorem Table.Mirrors.read_eq {base now now' : Store} {t : Table} (mirrors : t.Mirrors base now)
    (mirrors' : t.Mirrors base now') (key : Key) : now.read key = now'.read key := by
  by_cases hd : ∃ h ∈ t.handles, h.isDirty = true ∧ h.key = key
  · obtain ⟨h, hh, hd, rfl⟩ := hd
    rw [← mirrors.touched h hh hd, mirrors'.touched h hh hd]
  · have hnone : ∀ h ∈ t.handles, h.isDirty = true → h.key ≠ key :=
      fun h hh hhd hk => hd ⟨h, hh, hhd, hk⟩
    rw [mirrors.beyond key hnone, mirrors'.beyond key hnone]

/-- A handle without a mark shows the account that it tracks. -/
theorem Handle.Tracks.account_eq {base : Account} {h : Handle} (tracks : h.Tracks base)
    (clean : h.isDirty = false) : h.account = base := by
  simp only [Handle.isDirty, Dirty.any, Bool.or_eq_false_iff] at clean
  obtain ⟨⟨hlamports, hdata⟩, howner⟩ := clean
  have hl := tracks.lamports hlamports
  have hd := tracks.data hdata
  have ho := tracks.owner howner
  have hk := tracks.key
  have hx := tracks.executable
  have he := tracks.rentEpoch
  cases base
  cases ha : h.account
  simp only [ha] at hk hl hd ho hx he
  rw [hk, hl, hd, ho, hx, he]

/-- What a committed invocation leaves in the ledger is the store that its table is a draft of. -/
theorem Ledger.Persists.mirrors {l l' : Ledger} {t : Table} {receipt : Receipt}
    (persists : l.Persists t receipt l') (tracks : t.Tracks l.store) :
    t.Mirrors l.store l'.store where
  touched h hh hd := by
    rw [Store.read, persists.touched h hh hd, Option.getD_some]
  clean h hh hd := (tracks h hh).account_eq hd
  beyond key hnone := by
    rw [Store.read, Store.read, persists.untouched key hnone]

end AccountLedger
