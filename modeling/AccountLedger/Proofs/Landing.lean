import AccountLedger.Proofs.Ungranted
/-!
# Where the results of an inner call land

Every account of an inner call goes to the host in a slot of its own, and every slot comes back with
a result.  The table does not look at the slots again: it takes a result over at the handles of the
key that the result carries, and a host may give a result another key than that of its slot.

* `Handle.takes_adoptAll`: of the results that carry its key, a handle holds the last;
* `InnerCall.invoke_lands`: so a call that is carried out gives every handle that a reference may
  write the last result of its key and leaves all others alone; and if the host keeps the keys of
  its slots, every result lands at the handles of the account that its slot was given for.
-/

namespace AccountLedger

/-! ## one handle -/

/-- the last of some accounts that carries the key -/
def lastOf? (accounts : List Account) (key : Key) : Option Account :=
  accounts.reverse.find? (·.key = key)

namespace Handle

/-- The handle now has balance, data and owner of a result, with balance and data marked as touched.
All else is as it was, but for the mark of the owner. -/
def Holds (result : Account) (h h' : Handle) : Prop :=
  h' = { h with
    account := { h.account with
      lamports := result.lamports, data := result.data, owner := result.owner }
    dirty := { lamports := true, data := true, owner := h'.dirty.owner } }

/-- the handle now holds the result, if there is one, and is as it was if there is none -/
def Takes (result? : Option Account) (h h' : Handle) : Prop :=
  match result? with
  | some result => h.Holds result h'
  | none => h' = h

variable {h g : Handle} {a b : Account}

theorem holds_adopt (a : Account) (h : Handle) : h.Holds a (h.adopt a) := rfl

/-- A result that is taken over later stands alone. -/
theorem Holds.adopt (holds : h.Holds a g) (b : Account) : h.Holds b (g.adopt b) := by
  rw [Holds] at holds
  rw [holds]
  rfl

theorem Takes.key_eq {result? : Option Account} (takes : h.Takes result? g) : g.key = h.key := by
  cases result? with
  | none => exact congrArg (·.key) takes
  | some result =>
    rw [Takes, Holds] at takes
    rw [takes]

theorem takes_adoptAll (updates : List Account) (h : Handle) :
    h.Takes (lastOf? updates h.key) (h.adoptAll updates) := by
  unfold adoptAll lastOf?
  rw [← List.foldr_reverse]
  -- what is folded last came first, so the induction is on the updates from the back
  induction updates.reverse with
  | nil => rfl
  | cons a rest ih =>
    rw [List.foldr_cons, List.find?_cons, ih.key_eq]
    by_cases hk : h.key = a.key
    · rw [if_pos hk, decide_eq_true hk.symm]
      cases hf : rest.find? (·.key = h.key) with
      | none =>
        rw [hf] at ih
        rw [show _ = h from ih]
        exact holds_adopt a h
      | some b =>
        rw [hf] at ih
        exact Holds.adopt ih a
    · rw [if_neg hk, decide_eq_false fun h' => hk h'.symm]
      exact ih

end Handle

/-! ## the results of a call -/

theorem lastOf?_filter_of_pos {accounts : List Account} {key : Key} {keep : Key → Bool}
    (hk : keep key = true) :
    lastOf? (accounts.filter fun a => keep a.key) key = lastOf? accounts key := by
  rw [lastOf?, ← List.filter_reverse, List.find?_filter, lastOf?]
  congr 1
  funext a
  by_cases h : a.key = key
  · simp [h, hk]
  · simp [h]

/-- Among accounts of different keys, each is the last of its key. -/
theorem lastOf?_of_nodup {accounts : List Account} (distinct : (accounts.map (·.key)).Nodup)
    {a : Account} (ha : a ∈ accounts) : lastOf? accounts a.key = some a := by
  cases hf : lastOf? accounts a.key with
  | none =>
    have := List.find?_eq_none.1 hf a (List.mem_reverse.2 ha)
    simp at this
  | some b =>
    have hb : b ∈ accounts := List.mem_reverse.1 (List.mem_of_find?_eq_some hf)
    have hk : b.key = a.key := by simpa using List.find?_some hf
    rw [eq_of_nodup distinct hb ha hk]

/-- a reference to the key is for writing -/
def Table.Writes (t : Table) (refs : List Ref) (key : Key) : Prop :=
  ∃ r ∈ refs, r.writable = true ∧ ∃ h, t.handles[r.position]? = some h ∧ h.key = key

/-- Every result is where it belongs.  The accounts that are referred to were each given to the host
once; the handles of the account of a slot now hold the result of that slot, if a reference may
write it, and otherwise neither they nor the result have changed; all other handles are as they
were. -/
structure Table.Lands (refs : List Ref) (given results : List Account) (t t' : Table) : Prop where
  passed : ∀ r ∈ refs, ∃ h, t.handles[r.position]? = some h ∧ h.account ∈ given
  distinct : (given.map (·.key)).Nodup
  length : t'.handles.length = t.handles.length
  landed : ∀ (slot : Nat) (a result : Account), given[slot]? = some a →
    results[slot]? = some result → ∀ (position : Nat) (h : Handle),
      t.handles[position]? = some h → h.key = a.key → ∃ h', t'.handles[position]? = some h' ∧
        (t.Writes refs a.key → h.Holds result h') ∧ (¬ t.Writes refs a.key → h' = h ∧ result = a)
  beyond : ∀ (position : Nat) (h : Handle), t.handles[position]? = some h →
    (∀ a ∈ given, a.key ≠ h.key) → t'.handles[position]? = some h

namespace InnerCall

variable {σ : Type} {f : Frame} {t t' : Table} {target : Key} {refs : List Ref}
  {seeds : List SignerSeeds} {data : Bytes} {r : Request}

theorem mem_writableKeys_iff {key : Key} (asked : request f t target refs seeds data = .ok r) :
    key ∈ writableKeys r.instruction ↔ t.Writes refs key := by
  obtain ⟨_, rfl⟩ := request_eq_ok_iff.1 asked
  simp only [writableKeys, requestOf, List.mem_map, List.mem_filter, Table.Writes]
  refine ⟨?_, ?_⟩
  · intro h
    obtain ⟨_, ⟨⟨x, hx, rfl⟩, hw⟩, rfl⟩ := h
    obtain ⟨hr, hh⟩ := mem_referred.1 hx
    exact ⟨x.1, hr, hw, x.2, hh, rfl⟩
  · intro h
    obtain ⟨ref, hr, hw, g, hg, rfl⟩ := h
    exact ⟨_, ⟨⟨(ref, g), mem_referred.2 ⟨hr, hg⟩, rfl⟩, hw⟩, rfl⟩

/-- The handle at a position after the results were taken over. -/
theorem getElem?_adopt (results : List Account) (asked : request f t target refs seeds data = .ok r)
    {position : Nat} {h : Handle} (here : t.handles[position]? = some h) :
    ∃ h', (adopt (writableKeys r.instruction) results t).handles[position]? = some h' ∧
      (t.Writes refs h.key → h.Takes (lastOf? results h.key) h') ∧
      (¬ t.Writes refs h.key → h' = h) := by
  rw [← mem_writableKeys_iff asked]
  let updates := results.filter fun a => (writableKeys r.instruction).contains a.key
  refine ⟨h.adoptAll updates, ?_, ?_, ?_⟩
  · rw [adopt, foldl_adoptOne, List.getElem?_map, here, Option.map_some]
  · intro hw
    have takes := Handle.takes_adoptAll updates h
    rwa [lastOf?_filter_of_pos (by simpa using hw)] at takes
  · intro hw
    refine Handle.adoptAll_of_ne fun a ha hk => hw ?_
    rw [← hk]
    simpa using (List.mem_filter.1 ha).2

/-- A result of an account that no reference may write is the account itself. -/
theorem eq_of_not_writes (asked : request f t target refs seeds data = .ok r)
    {results : List Account} (kept : ¬ r.Trespassed results) {slot : Nat} {a result : Account}
    (ha : r.accounts[slot]? = some a) (hresult : results[slot]? = some result)
    (hw : ¬ t.Writes refs a.key) : result = a := by
  rw [← mem_writableKeys_iff asked, not_mem_writableKeys_iff] at hw
  by_cases heq : a = result
  · exact heq.symm
  · exact absurd ⟨slot, a, result, ha, hresult, heq, hw⟩ kept

/-- An account that is referred to is given to the host. -/
theorem mem_accounts_of_ref (asked : request f t target refs seeds data = .ok r) {ref : Ref}
    (hr : ref ∈ refs) : ∃ h, t.handles[ref.position]? = some h ∧ h.account ∈ r.accounts := by
  obtain ⟨⟨derived, cleared⟩, rfl⟩ := request_eq_ok_iff.1 asked
  have hlt : ref.position < t.handles.length := by
    have hlimits := cleared.limits
    simp only [checkLimits, bind_eq_ok_iff, exists_unit, throw_or_eq_ok_iff,
      checkPositions_eq_ok_iff, List.forall_mem_map] at hlimits
    exact hlimits.2.2.2 ref hr
  have here : t.handles[ref.position]? = some t.handles[ref.position] :=
    List.getElem?_eq_getElem hlt
  have hx : (ref, t.handles[ref.position]) ∈ referred t refs := mem_referred.2 ⟨hr, here⟩
  obtain ⟨b, hb, hk⟩ : ∃ b ∈ distinctBy Account.key ((referred t refs).map (·.2.account)),
      b.key = t.handles[ref.position].account.key :=
    exists_mem_distinctBy (List.mem_map_of_mem (f := fun x : Ref × Handle => x.2.account) hx)
  obtain ⟨y, hy, rfl⟩ := List.mem_map.1 (mem_of_mem_distinctBy hb)
  -- the first handle of the key speaks for all of them
  have hsame : y.2.account = t.handles[ref.position].account :=
    cleared.agree _ hx y.2 (List.mem_of_getElem? (mem_referred.1 hy).2) hk
  exact ⟨_, here, hsame ▸ hb⟩

/-- A host that keeps the keys of its slots has all its results land. -/
theorem lands_of_kept (asked : request f t target refs seeds data = .ok r)
    {results : List Account} (untrespassed : ¬ r.Trespassed results)
    (kept : results.map (·.key) = r.accounts.map (·.key)) :
    t.Lands refs r.accounts results (adopt (writableKeys r.instruction) results t) := by
  have distinct : (r.accounts.map (·.key)).Nodup := by
    obtain ⟨_, rfl⟩ := request_eq_ok_iff.1 asked
    exact nodup_map_distinctBy _ _
  refine ⟨fun ref hr => mem_accounts_of_ref asked hr, distinct, ?_, ?_, ?_⟩
  · rw [adopt, foldl_adoptOne, List.length_map]
  · intro slot a result ha hresult position h here hk
    have hkey : result.key = a.key := by
      have := congrArg (·[slot]?) kept
      simpa [ha, hresult] using this
    obtain ⟨h', here', hwritten, hspared⟩ := getElem?_adopt results asked here
    have hlast := lastOf?_of_nodup (kept ▸ distinct) (List.mem_of_getElem? hresult)
    rw [hkey, ← hk] at hlast
    rw [hlast] at hwritten
    rw [← hk]
    refine ⟨h', here', hwritten, fun hw => ⟨hspared hw, ?_⟩⟩
    exact eq_of_not_writes asked untrespassed ha hresult (hk ▸ hw)
  · intro position h here hbeyond
    obtain ⟨h', here', _, hspared⟩ := getElem?_adopt results asked here
    rw [here', hspared]
    rintro ⟨ref, hr, _, g, hg, hk⟩
    obtain ⟨g', hg', hgiven⟩ := mem_accounts_of_ref asked hr
    rw [hg] at hg'
    cases hg'
    exact hbeyond _ hgiven hk

/-- A call that is carried out gives every handle that a reference may write the last result of its
key, and leaves the others as they were.  So if the host has kept the keys of its slots, all results
land where they belong. -/
theorem invoke_lands (host : Host σ) (f : Frame) (target : Key) (refs : List Ref)
    (seeds : List SignerSeeds) (data : Bytes) (s : σ) {t t' : Table}
    (done : (invoke host f target refs seeds data s t).1 = .ok t') :
    ∃ r, request f t target refs seeds data = .ok r ∧
      let results := (host.reply s r).accounts.toList
      (∀ (position : Nat) (h : Handle), t.handles[position]? = some h →
        ∃ h', t'.handles[position]? = some h' ∧
          (t.Writes refs h.key → h.Takes (lastOf? results h.key) h') ∧
          (¬ t.Writes refs h.key → h' = h)) ∧
      (results.map (·.key) = r.accounts.map (·.key) → t.Lands refs r.accounts results t') := by
  obtain ⟨r, asked, _, untrespassed, rfl⟩ := invoke_ok done
  exact ⟨r, asked, fun _ _ here => getElem?_adopt _ asked here, lands_of_kept asked untrespassed⟩

end InnerCall

/-- a host that carries out every call by changing each account in the same way -/
def Host.answering (change : Account → Account) : Host Unit :=
  { Host.renaming .system with
    invoke := fun _ _ _ accounts _ _ =>
      (⟨.ok (), ⟨(accounts.toList.map change).toArray, by simp⟩⟩, ()) }

namespace Invocation

/-- an invocation with two accounts for writing, the first at two positions, and a program -/
def barter : Invocation where
  program := .ofNat 9
  entries := [⟨false, true, { key := .ofNat 2, lamports := 100 }⟩,
    ⟨false, true, { key := .ofNat 3, lamports := 50 }⟩,
    ⟨false, true, { key := .ofNat 2, lamports := 100 }⟩, ⟨false, false, .program (.ofNat 6)⟩]
  data := []
  height := 1
  callStack := []

/-- a call of the program with both accounts, each for writing -/
def bartering (change : Account → Account) (t : Table) : Except (Stop Error) Table :=
  (InnerCall.invoke (Host.answering change) ⟨{}, barter.program, barter.height, barter.callStack⟩
    (.ofNat 6) [⟨0, true, false⟩, ⟨1, true, false⟩] [] [] () t).1

theorem barter_lands : ∃ t t' h, Table.bind barter.program barter.entries ⟨"barter", []⟩ = .ok t ∧
    bartering (fun a => { a with data := [1] }) t = .ok t' ∧ t'.handles[2]? = some h ∧
      h.account = { key := .ofNat 2, lamports := 100, data := [1] } ∧ h.dirty.data = true := by
  let t : Table := ⟨barter.program, Table.bound [] barter.entries⟩
  have bound : Table.bind barter.program barter.entries ⟨"barter", []⟩ = .ok t := rfl
  obtain ⟨r, asked, _, lands⟩ := InnerCall.invoke_lands
    (Host.answering fun a => { a with data := [1] })
    ⟨{}, barter.program, barter.height, barter.callStack⟩ (.ofNat 6)
    [⟨0, true, false⟩, ⟨1, true, false⟩] [] [] () (t := t) rfl
  cases asked
  have writes : t.Writes [⟨0, true, false⟩, ⟨1, true, false⟩] (.ofNat 2) :=
    ⟨⟨0, true, false⟩, List.mem_cons_self .., rfl, _, rfl, rfl⟩
  -- the position that was not passed has the key of the first slot
  obtain ⟨h, here, hwritten, _⟩ := (lands rfl).landed 0 _ _ rfl rfl 2 _ rfl rfl
  refine ⟨t, _, h, bound, rfl, here, ?_, ?_⟩
  · rw [hwritten writes]
    rfl
  · rw [hwritten writes]

/-- The host gives both results back, each under the key of the other: the first account, which came
back with its 100 lamports, is left with the 50 of the second. -/
theorem barter_crossed : ∃ t t' h r,
    let crossing := fun a : Account => { a with key := if a.key = .ofNat 2 then .ofNat 3 else .ofNat 2 }
    let results := (Host.answering crossing).reply () r
    Table.bind barter.program barter.entries ⟨"barter", []⟩ = .ok t ∧ bartering crossing t = .ok t' ∧
      InnerCall.request ⟨{}, barter.program, barter.height, barter.callStack⟩ t (.ofNat 6)
        [⟨0, true, false⟩, ⟨1, true, false⟩] [] [] = .ok r ∧
      (results.accounts.toList.map (·.lamports)) = [100, 50] ∧
      t'.handles[0]? = some h ∧ h.account.lamports = 50 ∧
      ¬ t.Lands [⟨0, true, false⟩, ⟨1, true, false⟩] r.accounts results.accounts.toList t' := by
  refine ⟨_, _, _, _, rfl, rfl, rfl, rfl, rfl, rfl, ?_⟩
  intro lands
  obtain ⟨h, here, hwritten, _⟩ := lands.landed 0 _ _ rfl rfl 0 _ rfl rfl
  cases here
  have holds := hwritten ⟨⟨0, true, false⟩, List.mem_cons_self .., rfl, _, rfl, rfl⟩
  have := congrArg (·.account.lamports) holds
  exact absurd this (by decide)

end Invocation

end AccountLedger
