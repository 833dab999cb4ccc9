import AccountLedger.Proofs.Ungranted
/-!
# Two ways to name the accounts of a call

Accounts may be named by position or, in an instruction, by key.  A key stands for its first
position, and the same key may be held at others too.  All positions of a key have one account and
are equally writable; only in the signer mark they may differ.

* `InnerCall.request_iff`: what a call needs for any choice of positions, and what is needed of the
  chosen positions themselves, which is that they sign;
* `InnerCall.request_eq_asked`: the request does not depend on the choice;
* `Logic.run_named_alike`: so the two ways agree in all tables of a run, but for keys whose first
  position does not sign while another one does.
-/

namespace AccountLedger

/-- the keys of an instruction, each once -/
def Instruction.keys (i : Instruction) : List Key := distinctBy id (i.metas.map (·.key))

def Instruction.signers (i : Instruction) : List Key :=
  distinctBy id ((i.metas.filter (·.signer)).map (·.key))

namespace Instruction

variable {i : Instruction}

theorem nodup_keys (i : Instruction) : i.keys.Nodup := nodup_distinctBy_id _

theorem mem_keys_iff {key : Key} : key ∈ i.keys ↔ ∃ m ∈ i.metas, m.key = key := by
  rw [keys, mem_distinctBy_id, List.mem_map]

theorem mem_keys {m : Meta} (h : m ∈ i.metas) : m.key ∈ i.keys :=
  mem_keys_iff.2 ⟨m, h, rfl⟩

theorem mem_keys_of_writable (i : Instruction) : ∀ key ∈ InnerCall.writableKeys i, key ∈ i.keys := by
  intro key hk
  obtain ⟨m, hm, rfl⟩ := List.mem_map.1 hk
  exact mem_keys (List.mem_filter.1 hm).1

end Instruction

theorem distinctBy_map {α β γ : Type} [DecidableEq γ] (key : β → γ) (g : α → β) (l : List α) :
    distinctBy key (l.map g) = (distinctBy (fun a => key (g a)) l).map g := by
  induction l with
  | nil => rfl
  | cons a rest ih =>
    rw [List.map_cons, distinctBy, distinctBy, ih, List.map_cons, List.filter_map]
    rfl

/-! ## references that stand for metas -/

namespace Table

/-- what a reference asks for, by key -/
def metaOf? (t : Table) (r : Ref) : Option Meta :=
  (t.handles[r.position]?).map fun h => ⟨h.key, r.signer, r.writable⟩

/-- the references stand for the metas, in order: for the same keys with the same flags -/
def Names (t : Table) (refs : List Ref) (metas : List Meta) : Prop :=
  refs.map t.metaOf? = metas.map some

end Table

namespace InnerCall

variable {t : Table} {refs : List Ref} {metas : List Meta}

theorem names_cons_iff {r : Ref} : t.Names (r :: refs) metas ↔
    ∃ h rest, t.handles[r.position]? = some h ∧ metas = ⟨h.key, r.signer, r.writable⟩ :: rest ∧
      t.Names refs rest := by
  cases metas with
  | nil => simp [Table.Names]
  | cons m rest =>
    simp only [Table.Names, Table.metaOf?, List.map_cons, List.cons.injEq, Option.map_eq_some_iff]
    refine ⟨?_, ?_⟩
    · rintro ⟨⟨h, here, rfl⟩, names⟩
      exact ⟨h, rest, here, ⟨rfl, rfl⟩, names⟩
    · rintro ⟨h, _, here, ⟨rfl, rfl⟩, names⟩
      exact ⟨⟨h, here, rfl⟩, names⟩

theorem metas_of_names (names : t.Names refs metas) :
    (referred t refs).map (fun x => (⟨x.2.key, x.1.signer, x.1.writable⟩ : Meta)) = metas := by
  induction refs generalizing metas with
  | nil => exact (List.map_eq_nil_iff.1 names.symm).symm
  | cons r refs ih =>
    obtain ⟨h, rest, here, rfl, hrest⟩ := names_cons_iff.1 names
    simp only [referred, here, List.map_cons, ih hrest]

theorem position_lt_of_names (names : t.Names refs metas) :
    ∀ r ∈ refs, r.position < t.handles.length := by
  induction refs generalizing metas with
  | nil => simp
  | cons r refs ih =>
    obtain ⟨h, rest, here, _, hrest⟩ := names_cons_iff.1 names
    exact List.forall_mem_cons.2 ⟨(List.getElem?_eq_some_iff.1 here).1, ih hrest⟩

theorem length_of_names (names : t.Names refs metas) : refs.length = metas.length := by
  simpa using congrArg List.length names

/-- The references that an instruction is resolved to stand for its metas, each at the first position
of its key. -/
theorem names_of_refsOf (h : refsOf t metas = .ok refs) :
    t.Names refs metas ∧
      ∀ x ∈ referred t refs, t.handles.find? (·.key = x.2.key) = some x.2 := by
  induction metas generalizing refs with
  | nil =>
    cases h
    exact ⟨rfl, by simp [referred]⟩
  | cons m rest ih =>
    simp only [refsOf] at h
    cases hp : t.positionOfKey? m.key with
    | none => rw [hp] at h; cases h
    | some position =>
      rw [hp] at h
      obtain ⟨tail, htail, rfl⟩ := map_eq_ok_iff.1 h
      obtain ⟨names, firsts⟩ := ih htail
      obtain ⟨hlt, hkey, _⟩ := List.findIdx?_eq_some_iff_getElem.1 hp
      have here : t.handles[position]? = some t.handles[position] := List.getElem?_eq_getElem hlt
      have hk : (t.handles[position]).key = m.key := by simpa using hkey
      refine ⟨names_cons_iff.2 ⟨_, rest, here, by rw [hk], names⟩, ?_⟩
      simp only [referred, here, List.forall_mem_cons]
      refine ⟨?_, firsts⟩
      rw [hk, List.find?_eq_some_iff_getElem]
      obtain ⟨_, _, before⟩ := List.findIdx?_eq_some_iff_getElem.1 hp
      exact ⟨hkey, position, hlt, rfl, fun j hj => by simpa using before j hj⟩

theorem exists_refsOf_iff :
    (∃ refs, refsOf t metas = .ok refs) ↔ ∀ m ∈ metas, ∃ h ∈ t.handles, h.key = m.key := by
  induction metas with
  | nil => simp [refsOf]
  | cons m rest ih =>
    rw [List.forall_mem_cons, ← ih]
    simp only [refsOf]
    cases hp : t.positionOfKey? m.key with
    | none =>
      rw [Table.positionOfKey?, List.findIdx?_eq_none_iff] at hp
      simp only [reduceCtorEq, exists_false, false_iff, not_and]
      rintro ⟨h, hh, hk⟩
      exact absurd hk (by simpa using hp h hh)
    | some position =>
      obtain ⟨hlt, hkey, _⟩ := List.findIdx?_eq_some_iff_getElem.1 hp
      have here : ∃ h ∈ t.handles, h.key = m.key :=
        ⟨_, List.getElem_mem hlt, by simpa using hkey⟩
      simp only [map_eq_ok_iff, here, true_and]
      refine ⟨?_, ?_⟩
      · rintro ⟨_, refs, hrefs, _⟩
        exact ⟨refs, hrefs⟩
      · rintro ⟨refs, hrefs⟩
        exact ⟨_, refs, hrefs, rfl⟩

end InnerCall

/-! ## what a call needs -/

/-- the frame leaves room for a call -/
structure Frame.Allows (f : Frame) (i : Instruction) (seeds : List SignerSeeds) : Prop where
  not_executing : i.program ≠ f.program
  not_waiting : i.program ∉ f.callStack
  height_fits : f.height + 1 < UInt64.size
  height_le : f.height + 1 ≤ f.limits.stackHeight
  data : i.data.length ≤ f.limits.innerData
  accounts : i.metas.length ≤ f.limits.innerAccounts
  seedLists : seeds.length ≤ f.limits.signerSeeds

/-- Frame and table allow a call, whichever positions stand for its keys.  Only the signatures are
left out. -/
structure Table.Allows (f : Frame) (t : Table) (i : Instruction) (seeds : List SignerSeeds) : Prop
    extends f.Allows i seeds where
  program : ∃ h ∈ t.handles, h.key = i.program ∧ h.account.executable = true
  asked : ∀ s ∈ seeds, ∃ m ∈ i.metas, m.signer = true ∧ s.derive f.program = .ok m.key
  writable : ∀ m ∈ i.metas, m.writable = true → ∀ h ∈ t.handles, h.key = m.key → h.writable = true
  agree : ∀ m ∈ i.metas, ∀ h ∈ t.handles, h.key = m.key → ∀ g ∈ t.handles, g.key = m.key →
    g.account = h.account

/-- the handle signs, or seeds speak for its key -/
def Handle.Voiced (program : Key) (seeds : List SignerSeeds) (h : Handle) : Prop :=
  h.signer = true ∨ ∃ s ∈ seeds, s.derive program = .ok h.key

theorem Handle.voiced_congr {program : Key} {seeds : List SignerSeeds} {h g : Handle}
    (hk : g.key = h.key) (hs : g.signer = h.signer) :
    g.Voiced program seeds ↔ h.Voiced program seeds := by
  rw [Voiced, Voiced, hk, hs]

/-- the first position of the key signs, or seeds speak for the key -/
def Table.FirstVoiced (t : Table) (program : Key) (seeds : List SignerSeeds) (key : Key) : Prop :=
  ∃ h, t.handles.find? (·.key = key) = some h ∧ h.Voiced program seeds

/-- the positions of one key are all writable, or none is -/
def Table.Aligned (t : Table) : Prop :=
  ∀ h ∈ t.handles, ∀ g ∈ t.handles, g.key = h.key → g.writable = h.writable

/-- the account under a key, as its first position has it -/
def Table.view (t : Table) (key : Key) : Account :=
  ((t.handles.find? (·.key = key)).map (·.account)).getD (.vacant key)

/-- what an instruction asks of the host -/
def Table.asked (f : Frame) (t : Table) (i : Instruction) : Request :=
  ⟨i, i.keys.map t.view, i.signers, f.height + 1⟩

namespace InnerCall

variable {f : Frame} {t : Table} {i : Instruction} {refs : List Ref} {seeds : List SignerSeeds}
  {r : Request}

theorem exists_derived {program : Key} (derive : ∀ s ∈ seeds, ∃ key, s.derive program = .ok key) :
    ∃ derived : List Key, seeds.map (·.derive program) = derived.map .ok := by
  induction seeds with
  | nil => exact ⟨[], rfl⟩
  | cons s rest ih =>
    obtain ⟨⟨key, hkey⟩, hrest⟩ := List.forall_mem_cons.1 derive
    obtain ⟨derived, hderived⟩ := ih hrest
    exact ⟨key :: derived, by rw [List.map_cons, List.map_cons, hkey, hderived]⟩

/-- What is asked of the host with references that stand for the metas of an instruction, if their
handles hold what a view of the accounts has under their keys. -/
theorem requestOf_eq {view : Key → Account} (keyed : ∀ key, (view key).key = key)
    (hmetas : (referred t refs).map (fun x => (⟨x.2.key, x.1.signer, x.1.writable⟩ : Meta)) = i.metas)
    (shown : ∀ x ∈ referred t refs, x.2.account = view x.2.key) :
    requestOf f i.program (referred t refs) i.data =
      ⟨i, i.keys.map view, i.signers, f.height + 1⟩ := by
  have haccounts : (referred t refs).map (·.2.account) = (i.metas.map (·.key)).map view := by
    rw [← hmetas, List.map_map, List.map_map]
    exact List.map_congr_left shown
  have hsigners : ((referred t refs).filter (·.1.signer)).map (·.2.key) =
      (i.metas.filter (·.signer)).map (·.key) := by
    rw [← hmetas, List.filter_map, List.map_map]
    rfl
  have hinstruction : (⟨i.program, (referred t refs).map fun x => ⟨x.2.key, x.1.signer, x.1.writable⟩,
      i.data⟩ : Instruction) = i := by
    rw [hmetas]
  have hid : (fun key => (view key).key) = id := funext keyed
  rw [requestOf, haccounts, distinctBy_map, hid, hsigners]
  exact congrArg (Request.mk · _ _ _) hinstruction

/-- A handle that is referred to, and the meta that the reference stands for. -/
theorem meta_of_referred (names : t.Names refs i.metas) {x : Ref × Handle}
    (hx : x ∈ referred t refs) :
    x.2 ∈ t.handles ∧ (⟨x.2.key, x.1.signer, x.1.writable⟩ : Meta) ∈ i.metas := by
  refine ⟨List.mem_of_getElem? (mem_referred.1 hx).2, ?_⟩
  rw [← metas_of_names names]
  exact List.mem_map_of_mem hx

theorem exists_referred (names : t.Names refs i.metas) {m : Meta} (hm : m ∈ i.metas) :
    ∃ x ∈ referred t refs, m = ⟨x.2.key, x.1.signer, x.1.writable⟩ := by
  rw [← metas_of_names names] at hm
  obtain ⟨x, hx, rfl⟩ := List.mem_map.1 hm
  exact ⟨x, hx, rfl⟩

theorem checkLimits_eq_ok_iff (names : t.Names refs i.metas) :
    checkLimits f t refs seeds i.data = .ok () ↔ i.data.length ≤ f.limits.innerData ∧
      i.metas.length ≤ f.limits.innerAccounts ∧ seeds.length ≤ f.limits.signerSeeds := by
  simp only [checkLimits, bind_eq_ok_iff, exists_unit, checkSize_eq_ok_iff, throw_or_eq_ok_iff,
    checkPositions_eq_ok_iff, Nat.not_lt, List.forall_mem_map, length_of_names names]
  refine and_congr_right fun _ => and_congr_right fun _ => ?_
  exact and_iff_left (position_lt_of_names names)

theorem allows_of_request (aligned : t.Aligned) (names : t.Names refs i.metas)
    (hr : request f t i.program refs seeds i.data = .ok r) : t.Allows f i seeds := by
  obtain ⟨⟨derived, cleared⟩, _⟩ := request_eq_ok_iff.1 hr
  obtain ⟨data, accounts, seedLists⟩ := (checkLimits_eq_ok_iff names).1 cleared.limits
  refine ⟨⟨cleared.not_executing, cleared.not_waiting, cleared.height_fits, cleared.height_le,
    data, accounts, seedLists⟩, cleared.program, ?_, ?_, ?_⟩
  · intro s hs
    obtain ⟨hderived, hasked⟩ := derivedSigners_eq_ok_iff.1 cleared.derives
    have hmem : s.derive f.program ∈ derived.map .ok := hderived ▸ List.mem_map_of_mem hs
    obtain ⟨key, hkey, hd⟩ := List.mem_map.1 hmem
    obtain ⟨x, hx, signer, rfl⟩ := hasked key hkey
    exact ⟨_, (meta_of_referred names hx).2, signer, hd.symm⟩
  · intro m hm hw h hh hk
    obtain ⟨x, hx, rfl⟩ := exists_referred names hm
    rw [aligned x.2 (meta_of_referred names hx).1 h hh hk]
    exact (cleared.held x hx).1 hw
  · intro m hm h hh hk g hg hgk
    obtain ⟨x, hx, rfl⟩ := exists_referred names hm
    rw [cleared.agree x hx g hg hgk, cleared.agree x hx h hh hk]

theorem request_of_allows (names : t.Names refs i.metas) (allows : t.Allows f i seeds)
    (voiced : ∀ x ∈ referred t refs, x.1.signer = true → x.2.Voiced f.program seeds) :
    ∃ r, request f t i.program refs seeds i.data = .ok r := by
  obtain ⟨derived, hderived⟩ : ∃ derived : List Key,
      seeds.map (·.derive f.program) = derived.map .ok := by
    refine exists_derived fun s hs => ?_
    obtain ⟨m, _, _, hd⟩ := allows.asked s hs
    exact ⟨m.key, hd⟩
  refine ⟨_, request_eq_ok_iff.2 ⟨⟨derived, allows.not_executing, allows.not_waiting,
    allows.height_fits, allows.height_le, ?_, allows.program, ?_, ?_, ?_⟩, rfl⟩⟩
  · exact (checkLimits_eq_ok_iff names).2 ⟨allows.data, allows.accounts, allows.seedLists⟩
  · refine derivedSigners_eq_ok_iff.2 ⟨hderived, fun key hkey => ?_⟩
    have hmem : (.ok key : Except Error Key) ∈ seeds.map (·.derive f.program) :=
      hderived ▸ List.mem_map_of_mem hkey
    obtain ⟨s, hs, hd⟩ := List.mem_map.1 hmem
    obtain ⟨m, hm, signer, hd'⟩ := allows.asked s hs
    obtain ⟨x, hx, rfl⟩ := exists_referred names hm
    rw [hd'] at hd
    exact ⟨x, hx, signer, Except.ok.inj hd⟩
  · intro x hx
    obtain ⟨hh, hm⟩ := meta_of_referred names hx
    refine ⟨fun hw => allows.writable _ hm hw x.2 hh rfl, fun hs => ?_⟩
    refine (voiced x hx hs).imp id ?_
    rintro ⟨s, hs, hd⟩
    have hmem : (.ok x.2.key : Except Error Key) ∈ derived.map .ok :=
      hderived ▸ hd ▸ List.mem_map_of_mem hs
    obtain ⟨key, hkey, hk⟩ := List.mem_map.1 hmem
    exact Except.ok.inj hk ▸ hkey
  · intro x hx g hg hk
    obtain ⟨hh, hm⟩ := meta_of_referred names hx
    exact allows.agree _ hm x.2 hh rfl g hg hk

/-- What a call needs, apart from the signatures, does not depend on the positions that stand for
its keys.  What these need is to sign. -/
theorem request_iff (aligned : t.Aligned) (names : t.Names refs i.metas) :
    (∃ r, request f t i.program refs seeds i.data = .ok r) ↔ t.Allows f i seeds ∧
      ∀ x ∈ referred t refs, x.1.signer = true → x.2.Voiced f.program seeds := by
  refine ⟨?_, ?_⟩
  · rintro ⟨r, hr⟩
    obtain ⟨⟨derived, cleared⟩, _⟩ := request_eq_ok_iff.1 hr
    exact ⟨allows_of_request aligned names hr, fun x hx signer => (cleared.voiced hx signer).2⟩
  · rintro ⟨allows, voiced⟩
    exact request_of_allows names allows voiced

theorem key_view (t : Table) (key : Key) : (t.view key).key = key := by
  unfold Table.view
  cases hf : t.handles.find? (·.key = key) with
  | none => rfl
  | some h => simpa using List.find?_some hf

/-- The request does not depend on the positions that stand for the keys. -/
theorem request_eq_asked (names : t.Names refs i.metas)
    (hr : request f t i.program refs seeds i.data = .ok r) : r = t.asked f i := by
  obtain ⟨⟨derived, cleared⟩, rfl⟩ := request_eq_ok_iff.1 hr
  refine requestOf_eq (key_view t) (metas_of_names names) fun x hx => ?_
  unfold Table.view
  cases hf : t.handles.find? (·.key = x.2.key) with
  | none =>
    have := List.find?_eq_none.1 hf x.2 (meta_of_referred names hx).1
    simp at this
  | some h =>
    exact (cleared.agree x hx h (List.mem_of_find?_eq_some hf)
      (by simpa using List.find?_some hf)).symm

/-- An instruction that names its accounts by key needs that the first positions sign. -/
theorem request_refsOf_iff (aligned : t.Aligned) (hrefs : refsOf t i.metas = .ok refs) :
    (∃ r, request f t i.program refs seeds i.data = .ok r) ↔ t.Allows f i seeds ∧
      ∀ m ∈ i.metas, m.signer = true → t.FirstVoiced f.program seeds m.key := by
  obtain ⟨names, firsts⟩ := names_of_refsOf hrefs
  rw [request_iff aligned names]
  refine and_congr_right fun _ => ⟨?_, ?_⟩
  · intro voiced m hm signer
    obtain ⟨x, hx, rfl⟩ := exists_referred names hm
    exact ⟨x.2, firsts x hx, voiced x hx signer⟩
  · intro voiced x hx signer
    obtain ⟨h, hf, hv⟩ := voiced _ (meta_of_referred names hx).2 signer
    rw [firsts x hx] at hf
    cases hf
    exact hv

/-- Where no key is divided over its signer marks, any position signs if the first one does. -/
theorem firstVoiced_iff (undivided : ∀ h ∈ t.handles, ∀ g ∈ t.handles, g.key = h.key →
    g.signer = h.signer) {program : Key} {h : Handle} (hh : h ∈ t.handles) :
    t.FirstVoiced program seeds h.key ↔ h.Voiced program seeds := by
  cases hf : t.handles.find? (·.key = h.key) with
  | none =>
    have := List.find?_eq_none.1 hf h hh
    simp at this
  | some g =>
    have hg := List.mem_of_find?_eq_some hf
    have hk : g.key = h.key := by simpa using List.find?_some hf
    simp only [Table.FirstVoiced, hf, Option.some.injEq, exists_eq_left']
    exact Handle.voiced_congr hk (undivided h hh g hg hk)

end InnerCall

/-! ## operations -/

namespace Op

variable {f : Frame} {t : Table} {i : Instruction} {refs : List Ref} {seeds : List SignerSeeds}

/-- all checks of a call pass, so that the host is asked -/
def Passes (f : Frame) (t : Table) (op : Op) : Prop := ∃ r, op.request? f t = some r

theorem toOption_eq_some_iff {ε α : Type} {x : Except ε α} {a : α} :
    x.toOption = some a ↔ x = .ok a := by
  cases x <;> simp [Except.toOption]

theorem invoke_passes_iff {target : Key} {data : Bytes} :
    (Op.invoke target refs seeds data).Passes f t ↔
      ∃ r, InnerCall.request f t target refs seeds data = .ok r :=
  exists_congr fun _ => toOption_eq_some_iff

/-- By key, a call is the one by position with the first positions of the keys. -/
theorem invokeInstruction_of_refsOf (f : Frame) (seeds : List SignerSeeds)
    (hrefs : InnerCall.refsOf t i.metas = .ok refs) :
    (Op.invokeInstruction i seeds).request? f t =
        (Op.invoke i.program refs seeds i.data).request? f t ∧
      ∀ {σ : Type} (host : Host σ) (s : σ), InnerCall.invokeInstruction host f i seeds s t =
        InnerCall.invoke host f i.program refs seeds i.data s t := by
  refine ⟨?_, fun host s => ?_⟩
  · simp only [request?, hrefs]
  · simp only [InnerCall.invokeInstruction, hrefs]

end Op

namespace InnerCall

variable {f : Frame} {t : Table} {i : Instruction} {refs refs' : List Ref} {seeds : List SignerSeeds}

theorem request?_eq_asked (names : t.Names refs i.metas)
    (passes : (Op.invoke i.program refs seeds i.data).Passes f t) :
    (Op.invoke i.program refs seeds i.data).request? f t = some (t.asked f i) := by
  obtain ⟨r, hr⟩ := passes
  rw [hr, request_eq_asked names (Op.toOption_eq_some_iff.1 hr)]

/-- Calls that ask the same of the host end in the same way. -/
theorem invoke_congr {r : Request} (h : request f t i.program refs seeds i.data = .ok r)
    (h' : request f t i.program refs' seeds i.data = .ok r) {σ : Type} (host : Host σ) (s : σ) :
    invoke host f i.program refs seeds i.data s t =
      invoke host f i.program refs' seeds i.data s t := by
  rw [invoke, invoke, h, h']

end InnerCall

/-! ## runs -/

/-- The two ways to name the accounts of a call agree on a table.  By key, all checks pass exactly
if they pass for some choice of positions and the first position of each key that is to sign does.
Whatever the choice, the host is asked the same, and the call ends the same.  Without a conflict in
the signer marks, the choice does not count at all. -/
structure Table.NamedAlike (f : Frame) (t : Table) (i : Instruction) (seeds : List SignerSeeds) :
    Prop where
  decision : (Op.invokeInstruction i seeds).Passes f t ↔
    (∃ refs, t.Names refs i.metas ∧ (Op.invoke i.program refs seeds i.data).Passes f t) ∧
      ∀ m ∈ i.metas, m.signer = true → t.FirstVoiced f.program seeds m.key
  asked : ∀ refs, t.Names refs i.metas → (Op.invoke i.program refs seeds i.data).Passes f t →
    (Op.invoke i.program refs seeds i.data).request? f t = some (t.asked f i)
  outcome : (Op.invokeInstruction i seeds).Passes f t →
    (Op.invokeInstruction i seeds).request? f t = some (t.asked f i) ∧
      ∀ refs, t.Names refs i.metas → (Op.invoke i.program refs seeds i.data).Passes f t →
        ∀ {σ : Type} (host : Host σ) (s : σ), InnerCall.invokeInstruction host f i seeds s t =
          InnerCall.invoke host f i.program refs seeds i.data s t
  undivided : (∀ h ∈ t.handles, ∀ g ∈ t.handles, g.key = h.key → g.signer = h.signer) →
    ∀ refs, t.Names refs i.metas →
      ((Op.invokeInstruction i seeds).Passes f t ↔
        (Op.invoke i.program refs seeds i.data).Passes f t)

theorem Table.Aligned.named_alike {t : Table} (aligned : t.Aligned) (f : Frame) {i : Instruction}
    (seeds : List SignerSeeds) (present : ∀ m ∈ i.metas, ∃ h ∈ t.handles, h.key = m.key) :
    t.NamedAlike f i seeds := by
  obtain ⟨firsts, hrefs⟩ := InnerCall.exists_refsOf_iff.2 present
  obtain ⟨names, _⟩ := InnerCall.names_of_refsOf hrefs
  obtain ⟨hrequest, hinvoke⟩ := Op.invokeInstruction_of_refsOf f seeds hrefs
  have hpasses : (Op.invokeInstruction i seeds).Passes f t ↔
      (Op.invoke i.program firsts seeds i.data).Passes f t := by
    rw [Op.Passes, Op.Passes, hrequest]
  have hby : (Op.invokeInstruction i seeds).Passes f t ↔ t.Allows f i seeds ∧
      ∀ m ∈ i.metas, m.signer = true → t.FirstVoiced f.program seeds m.key := by
    rw [hpasses, Op.invoke_passes_iff, InnerCall.request_refsOf_iff aligned hrefs]
  refine ⟨?_, fun refs hn => InnerCall.request?_eq_asked hn, ?_, ?_⟩
  · refine ⟨fun h => ⟨⟨firsts, names, hpasses.1 h⟩, (hby.1 h).2⟩, ?_⟩
    rintro ⟨⟨refs, hn, h⟩, voiced⟩
    obtain ⟨r, hr⟩ := Op.invoke_passes_iff.1 h
    exact hby.2 ⟨InnerCall.allows_of_request aligned hn hr, voiced⟩
  · intro h
    refine ⟨hrequest.trans (InnerCall.request?_eq_asked names (hpasses.1 h)), ?_⟩
    intro refs hn h' σ host s
    obtain ⟨r, hr⟩ := Op.invoke_passes_iff.1 (hpasses.1 h)
    obtain ⟨r', hr'⟩ := Op.invoke_passes_iff.1 h'
    cases InnerCall.request_eq_asked names hr
    cases InnerCall.request_eq_asked hn hr'
    rw [hinvoke, InnerCall.invoke_congr hr hr']
  · intro undivided refs hn
    rw [hby, Op.invoke_passes_iff, InnerCall.request_iff aligned hn]
    refine and_congr_right fun _ => ⟨?_, ?_⟩
    · intro voiced x hx signer
      obtain ⟨hh, hm⟩ := InnerCall.meta_of_referred hn hx
      exact (InnerCall.firstVoiced_iff undivided hh).1 (voiced _ hm signer)
    · intro voiced m hm signer
      obtain ⟨x, hx, rfl⟩ := InnerCall.exists_referred hn hm
      exact (InnerCall.firstVoiced_iff undivided (InnerCall.meta_of_referred hn hx).1).2
        (voiced x hx signer)

theorem Table.Untouched.aligned {entries : List Entry} {t : Table} (ht : t.Untouched entries)
    (consistent : ∀ e ∈ entries, ∀ g ∈ entries, e.account.key = g.account.key →
      e.writable = g.writable) : t.Aligned := by
  intro h hh g hg hk
  obtain ⟨position, here⟩ := List.getElem?_of_mem hh
  obtain ⟨other, there⟩ := List.getElem?_of_mem hg
  obtain ⟨e, he, hek, hew, _⟩ := ht.entry position h here
  obtain ⟨d, hd, hdk, hdw, _⟩ := ht.entry other g there
  rw [← hew, ← hdw]
  exact consistent d (List.mem_of_getElem? hd) e (List.mem_of_getElem? he)
    (hdk.trans (hk.trans hek.symm))

/-- In every table that an invocation goes through, whatever was done to it before, it makes no
difference whether the accounts of a call are named by position or by key, as far as the first
positions of the keys are marked as signers whenever another one is. -/
theorem Logic.run_named_alike {σ α : Type} {program : Key} {entries : List Entry} {layout : Layout}
    {t : Table} (bound : Table.bind program entries layout = .ok t) (host : Host σ) (f : Frame)
    (s : σ) (m : Logic α) :
    ∀ now ∈ m.tables host f ⟨s, t⟩, ∀ (i : Instruction) (seeds : List SignerSeeds),
      (∀ m ∈ i.metas, ∃ h ∈ now.handles, h.key = m.key) → now.NamedAlike f i seeds := by
  intro now hnow i seeds present
  have consistent := (Table.binds_iff.1 bound).2.1
  have untouched := Logic.forall_tables (P := fun t => t.Untouched entries) host f
    (fun _ _ _ _ step ht => ht.of_step consistent step) m ⟨s, t⟩ (.of_bind bound) now hnow
  exact (untouched.aligned consistent).named_alike f seeds present

namespace Invocation

/-- an invocation with one account at two positions, of which the second signs, and a program -/
def twins (first : Bool) : Invocation where
  program := .ofNat 9
  entries := [⟨first, false, { key := .ofNat 2, lamports := 100 }⟩,
    ⟨true, false, { key := .ofNat 2, lamports := 100 }⟩, ⟨false, false, .program (.ofNat 6)⟩]
  data := []
  height := 1
  callStack := []

/-- an instruction that the account is to sign -/
def vouching : Instruction := ⟨.ofNat 6, [⟨.ofNat 2, true, false⟩], []⟩

/-- the same by the second position of the account -/
def vouchingSecond : List Ref := [⟨1, false, true⟩]

theorem twins_named_alike : ∃ t,
    Table.bind (twins true).program (twins true).entries ⟨"twins", []⟩ = .ok t ∧
      (Op.invokeInstruction vouching []).Passes ⟨{}, .ofNat 9, 1, []⟩ t ∧
      ∀ l : Ledger, InnerCall.invokeInstruction Ledger.host ⟨{}, .ofNat 9, 1, []⟩ vouching [] l t =
        InnerCall.invoke Ledger.host ⟨{}, .ofNat 9, 1, []⟩ vouching.program vouchingSecond []
          vouching.data l t := by
  have bound : Table.bind (twins true).program (twins true).entries ⟨"twins", []⟩ =
      .ok ⟨.ofNat 9, Table.bound [] (twins true).entries⟩ := rfl
  have alike := Logic.run_named_alike bound Ledger.host ⟨{}, .ofNat 9, 1, []⟩ Ledger.start
    (pure ()) _ (List.mem_append_right _ (List.mem_singleton.2 rfl)) vouching [] (by decide)
  have passes : (Op.invoke vouching.program vouchingSecond [] vouching.data).Passes
      ⟨{}, .ofNat 9, 1, []⟩ ⟨.ofNat 9, Table.bound [] (twins true).entries⟩ := ⟨_, rfl⟩
  have byKey := (alike.undivided (by decide) vouchingSecond rfl).2 passes
  exact ⟨_, bound, byKey, (alike.outcome byKey).2 vouchingSecond rfl passes Ledger.host⟩

/-- If only the second position of the account signs, the call goes out for that position and not
for the key. -/
theorem twins_divided : ∃ t,
    Table.bind (twins false).program (twins false).entries ⟨"twins", []⟩ = .ok t ∧
      t.Names vouchingSecond vouching.metas ∧
      (Op.invoke vouching.program vouchingSecond [] vouching.data).Passes ⟨{}, .ofNat 9, 1, []⟩ t ∧
      ¬ (Op.invokeInstruction vouching []).Passes ⟨{}, .ofNat 9, 1, []⟩ t := by
  refine ⟨_, rfl, rfl, ⟨_, rfl⟩, ?_⟩
  rintro ⟨r, hr⟩
  have none : (Op.invokeInstruction vouching []).request? ⟨{}, .ofNat 9, 1, []⟩
      ⟨.ofNat 9, Table.bound [] (twins false).entries⟩ = none := rfl
  cases none.symm.trans hr

end Invocation

end AccountLedger
