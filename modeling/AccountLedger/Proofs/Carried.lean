import AccountLedger.Proofs.Committed
/-!
# Calls and invocations that go through

The other direction: what an instruction needs so that it is carried out.  A call needs the
accounts, the writability and the signatures that its instruction asks for, and a native program
that carries it out; an invocation needs a route, what the layout asks, and business logic that
returns and leaves the balances even.

* `Scene.Level.invokes`: a call that goes through, in a scene whose positions all show one store;
* `Program.commits`: an invocation that commits, and the store that it leaves.
-/

namespace AccountLedger

open Logic (Returns)

/-! ## the sum of the balances of some accounts -/

namespace Store

variable {s : Store} {keys : List Key} {key : Key}

theorem lamports_putLamports (s : Store) (key : Key) (lamports : Amount) (other : Key) :
    (s.putLamports key lamports).lamports other =
      if key = other then lamports else s.lamports other := by
  rw [Store.lamports, read_putLamports]
  split <;> rfl

theorem lamports_putData (s : Store) (key : Key) (data : Bytes) (other : Key) :
    (s.putData key data).lamports other = s.lamports other := by
  rw [Store.lamports, read_putData, Store.lamports]
  split
  · rename_i h
    rw [h]
  · rfl

theorem total_putLamports (distinct : keys.Nodup) (h : key ∈ keys) (lamports : Amount) :
    Amount.total (s.putLamports key lamports).lamports keys + (s.lamports key).toNat =
      Amount.total s.lamports keys + lamports.toNat := by
  induction keys with
  | nil => cases h
  | cons first rest ih =>
    obtain ⟨hfirst, hrest⟩ := List.nodup_cons.1 distinct
    rw [Amount.total_cons, Amount.total_cons, lamports_putLamports]
    by_cases hk : key = first
    · have hsame : Amount.total (s.putLamports key lamports).lamports rest =
          Amount.total s.lamports rest := by
        refine Amount.total_congr fun other hother => ?_
        rw [lamports_putLamports, if_neg]
        rintro rfl
        exact hfirst (hk ▸ hother)
      rw [if_pos hk, hsame, hk]
      omega
    · have := ih hrest ((List.mem_cons.1 h).resolve_left hk)
      rw [if_neg hk]
      omega

end Store

/-! ## calls -/

/-- the first position of the key signs the instruction -/
def Instruction.FirstSigns (i : Instruction) (key : Key) : Prop :=
  ∃ m, i.metas.find? (·.key = key) = some m ∧ m.signer = true

/-- the accounts that an instruction may write, at whatever position they stand -/
def Instruction.Writes (i : Instruction) (written : List Key) : Prop :=
  ∀ m ∈ i.metas, m.writable = true ↔ m.key ∈ written

theorem Instruction.Writes.consistent {i : Instruction} {written : List Key}
    (writes : i.Writes written) :
    ∀ m ∈ i.metas, ∀ g ∈ i.metas, m.key = g.key → m.writable = g.writable := by
  intro m hm g hg hk
  rw [Bool.eq_iff_iff, writes m hm, writes g hg, hk]

/-- A program is not among the accounts that may be written. -/
theorem Store.not_written_of_installed {s : Store} {written : List Key} {k : Key}
    (modifiable : ∀ k ∈ written, (s.read k).executable = false)
    (installed : (s.read k).executable = true) : k ∉ written := by
  intro h
  rw [modifiable k h] at installed
  cases installed

/-- an instruction hands on what another one asks for, but for the signatures of derived keys -/
structure Instruction.HandsOn (i j : Instruction) (derived : List Key) : Prop where
  program : ∃ m ∈ i.metas, m.key = j.program
  present : ∀ m ∈ j.metas, ∃ g ∈ i.metas, g.key = m.key
  writable : ∀ m ∈ j.metas, m.writable = true → ∀ g ∈ i.metas, g.key = m.key → g.writable = true
  signer : ∀ m ∈ j.metas, m.signer = true → m.key ∈ derived ∨ i.FirstSigns m.key
  asked : ∀ key ∈ derived, ∃ m ∈ j.metas, m.signer = true ∧ m.key = key

/-- An instruction that may write some accounts, and hands these and the token program on, lets a call
write two of them in the name of a third account. -/
theorem Instruction.handsOn_of_written {i j : Instruction} {written derived : List Key} {k k' c : Key}
    (writes : i.Writes written) (present : ∀ key ∈ written, ∃ g ∈ i.metas, g.key = key)
    (program : ∃ m ∈ i.metas, m.key = j.program)
    (metas : j.metas = [⟨k, false, true⟩, ⟨k', false, true⟩, ⟨c, true, false⟩]) (hk : k ∈ written)
    (hk' : k' ∈ written) (named : ∃ g ∈ i.metas, g.key = c) (voiced : c ∈ derived ∨ i.FirstSigns c)
    (asked : ∀ key ∈ derived, c = key) : i.HandsOn j derived where
  program := program
  present := by
    simp only [metas, List.forall_mem_cons]
    exact ⟨present k hk, present k' hk', named, by simp⟩
  writable := by
    simp only [metas, List.forall_mem_cons, Bool.false_eq_true, false_implies, forall_const,
      List.not_mem_nil, implies_true, and_true]
    exact ⟨fun g hg heq => (writes g hg).2 (heq ▸ hk), fun g hg heq => (writes g hg).2 (heq ▸ hk')⟩
  signer := by
    simp only [metas, List.forall_mem_cons, Bool.false_eq_true, false_implies, true_and, forall_const,
      List.not_mem_nil, implies_true, and_true]
    exact voiced
  asked key hkey := ⟨⟨c, true, false⟩, by simp [metas], rfl, asked key hkey⟩

/-- the frame leaves room for a call, and its seeds derive the keys -/
structure Frame.Admits (f : Frame) (j : Instruction) (seeds : List SignerSeeds)
    (derived : List Key) : Prop extends f.Allows j seeds where
  derives : seeds.map (·.derive f.program) = derived.map .ok

/-- the frame of a program that is called from outside -/
def Program.topFrame (p : Program) : Frame := ⟨p.limits, p.key, 1, []⟩

/-- With the usual limits a program that is called from outside has room for a short call of a few
accounts, in the name of the addresses of a few seeds. -/
theorem Program.admits_of_small {p : Program} {j : Instruction} {seeds : List SignerSeeds}
    {derived : List Key} (usual : p.limits = {}) (other : j.program ≠ p.key)
    (data : j.data.length ≤ 9) (metas : j.metas.length ≤ 3) (few : seeds.length ≤ 1)
    (derives : seeds.map (·.derive p.key) = derived.map .ok) : p.topFrame.Admits j seeds derived where
  not_executing := other
  not_waiting := List.not_mem_nil
  height_fits := (by decide : 2 < UInt64.size)
  height_le := by
    rw [topFrame, usual]
    exact (by decide : 2 ≤ 5)
  data := by
    rw [topFrame, usual]
    exact Nat.le_trans data (by decide : 9 ≤ 10240)
  accounts := by
    rw [topFrame, usual]
    exact Nat.le_trans metas (by decide : 3 ≤ 64)
  seedLists := by
    rw [topFrame, usual]
    exact Nat.le_trans few (by decide : 1 ≤ 16)
  derives := derives

namespace InnerCall

variable {f : Frame} {t : Table} {i j : Instruction} {seeds : List SignerSeeds} {derived : List Key}
  {now now' : Store} {l : Ledger}

/-- the native program carries out an instruction on a store -/
structure Carries (program : Native) (i : Instruction) (s s' : Store) : Prop where
  reply : ∀ calls, replyOf program calls i s = .done (s'.slots i.keys)
  within : s.Within (writableKeys i) s'
  even : Amount.total s.lamports i.keys = Amount.total s'.lamports i.keys

end InnerCall

namespace Token

open InnerCall (Carries replyOf writableKeys)

variable {s : Store} {source destination holding authority : Key} {amount : Amount}
  {giver taker held : Holding}

theorem lamports_transferred (s : Store) (source destination : Key) (amount : Amount)
    (giver taker : Holding) (key : Key) :
    (transferred s source destination amount giver taker).lamports key = s.lamports key := by
  unfold transferred
  split
  · rfl
  · rw [Store.lamports_putData, Store.lamports_putData]

theorem total_closedAt {keys : List Key} (distinct : keys.Nodup) (hk : holding ∈ keys)
    (hd : destination ∈ keys) (may : MayClose s holding destination authority [authority] held) :
    Amount.total (closedAt s holding destination).lamports keys = Amount.total s.lamports keys := by
  let emptied := s.putLamports holding 0
  let sum := (emptied.read destination).lamports + (s.read holding).lamports
  let paid := emptied.putLamports destination sum
  have hclosed : Amount.total (closedAt s holding destination).lamports keys =
      Amount.total paid.lamports keys := by
    refine Amount.total_congr fun key _ => ?_
    show ((paid.insert (closed (paid.read holding))).read key).lamports = (paid.read key).lamports
    rw [Store.read_insert]
    show (if (paid.read holding).key = key then closed (paid.read holding) else _).lamports = _
    rw [Store.key_read]
    split
    · rename_i h
      rw [closed, h]
    · rfl
  have hsum : sum.toNat = (emptied.lamports destination).toNat + (s.lamports holding).toNat :=
    (UInt64.toNat_add _ _).trans (Nat.mod_eq_of_lt may.fits)
  have hempty := Store.total_putLamports (s := s) distinct hk 0
  have hpaid := Store.total_putLamports (s := emptied) distinct hd sum
  rw [UInt64.toNat_zero] at hempty
  rw [hclosed]
  simp only [paid, emptied] at hempty hpaid hsum ⊢
  omega

theorem carries_transfer
    (may : MayTransfer s source destination authority [authority] amount giver taker) :
    Carries native (transfer source destination authority amount) s
      (transferred s source destination amount giver taker) := by
  let i := transfer source destination authority amount
  have hs : source ∈ i.keys := Instruction.mem_keys (m := ⟨source, false, true⟩) (by simp [i, transfer])
  have hd : destination ∈ i.keys :=
    Instruction.mem_keys (m := ⟨destination, false, true⟩) (by simp [i, transfer])
  refine ⟨fun calls => ?_, ?_, ?_⟩
  · simp only [replyOf, native, read?_transfer, perform, Reply.ofChanged_eq_done_iff]
    exact (performTransfer_eq_ok_iff i.nodup_keys hs hd).2 ⟨giver, taker, may, rfl⟩
  · have hsource : source ∈ writableKeys i := by simp [i, transfer, writableKeys]
    have hdestination : destination ∈ writableKeys i := by simp [i, transfer, writableKeys]
    unfold transferred
    split
    · exact .refl _ _
    · exact (Store.Within.putData s hdestination _).trans (Store.Within.putData _ hsource _)
  · exact Amount.total_congr fun key _ => (lamports_transferred s _ _ _ _ _ key).symm

/-- the store after a burn -/
def burnt (s : Store) (source mint : Key) (amount : Amount) (giver : Holding) (m : Mint) : Store :=
  (s.putData source { giver with amount := giver.amount - amount }.pack).putData mint
    { m with supply := m.supply - amount }.pack

theorem read_burnt {mint : Key} (ne : source ≠ mint) (s : Store) (amount : Amount) (giver : Holding)
    (m : Mint) (key : Key) : (burnt s source mint amount giver m).read key =
      if source = key then
        { s.read source with data := { giver with amount := giver.amount - amount }.pack }
      else if mint = key then { s.read mint with data := { m with supply := m.supply - amount }.pack }
      else s.read key := by
  rw [burnt, Store.read_putData, Store.read_putData, Store.read_putData, if_neg ne]
  by_cases hs : source = key
  · rw [if_pos hs, if_pos hs, if_neg fun hm => ne (hs.trans hm.symm)]
  · rw [if_neg hs, if_neg hs]

theorem lamports_burnt (s : Store) (source mint : Key) (amount : Amount) (giver : Holding) (m : Mint)
    (key : Key) : (burnt s source mint amount giver m).lamports key = s.lamports key := by
  rw [burnt, Store.lamports_putData, Store.lamports_putData]

theorem carries_burn {m : Mint} (may : MayBurn s source mint authority [authority] amount giver m) :
    Carries native (burn source mint authority amount) s (burnt s source mint amount giver m) := by
  let i := burn source mint authority amount
  have hs : source ∈ i.keys := Instruction.mem_keys (m := ⟨source, false, true⟩) (by simp [i, burn])
  have hm : mint ∈ i.keys := Instruction.mem_keys (m := ⟨mint, false, true⟩) (by simp [i, burn])
  refine ⟨fun calls => ?_, ?_, ?_⟩
  · simp only [replyOf, native, read?_burn, perform, Reply.ofChanged_eq_done_iff]
    exact (performBurn_eq_ok_iff i.nodup_keys hs hm).2 ⟨giver, m, may, rfl⟩
  · have hsource : source ∈ writableKeys i := by simp [i, burn, writableKeys]
    have hmint : mint ∈ writableKeys i := by simp [i, burn, writableKeys]
    exact (Store.Within.putData s hsource _).trans (Store.Within.putData _ hmint _)
  · exact Amount.total_congr fun key _ => (lamports_burnt s _ _ _ _ _ key).symm

theorem carries_close (may : MayClose s holding destination authority [authority] held) :
    Carries native (close holding destination authority) s (closedAt s holding destination) := by
  let i := close holding destination authority
  have hk : holding ∈ i.keys := Instruction.mem_keys (m := ⟨holding, false, true⟩) (by simp [i, close])
  have hd : destination ∈ i.keys :=
    Instruction.mem_keys (m := ⟨destination, false, true⟩) (by simp [i, close])
  refine ⟨fun calls => ?_, ?_, (total_closedAt i.nodup_keys hk hd may).symm⟩
  · simp only [replyOf, native, read?_close, perform]
    exact (performClose_eq_done_iff i.nodup_keys hk hd).2 ⟨held, may, rfl⟩
  · have hholding : holding ∈ writableKeys i := by simp [i, close, writableKeys]
    have hdestination : destination ∈ writableKeys i := by simp [i, close, writableKeys]
    exact ((Store.Within.putLamports s hholding _).trans
      (Store.Within.putLamports _ hdestination _)).trans
        (Store.Within.insert _ hholding (Store.key_read _ _) rfl rfl)

end Token

/-- the positions sign just as the metas do -/
def Table.Marked (metas : List Meta) (t : Table) : Prop :=
  t.handles.map (fun h => (h.key, h.signer)) = metas.map fun m => (m.key, m.signer)

theorem Table.Marked.signer {t : Table} {i : Instruction} (marked : t.Marked i.metas) {h : Handle}
    (found : t.handles.find? (·.key = h.key) = some h) (first : i.FirstSigns h.key) :
    h.signer = true := by
  obtain ⟨m, hm, signer⟩ := first
  have hfind := congrArg (List.find? (fun x => decide (x.1 = h.key))) marked
  rw [List.find?_map, List.find?_map] at hfind
  simp only [Function.comp_def, found, hm, Option.map_some, Option.some.injEq, Prod.mk.injEq] at hfind
  exact hfind.2.trans signer

theorem Table.Marked.adopted {t : Table} {metas : List Meta} (marked : t.Marked metas)
    (writable : List Key) (after : List Account) : (InnerCall.adopt writable after t).Marked metas := by
  rw [Table.Marked, ← marked, InnerCall.adopt, InnerCall.foldl_adoptOne, List.map_map]
  refine List.map_congr_left fun h _ => ?_
  exact Handle.adoptAll_induction (P := fun g => (g.key, g.signer) = (h.key, h.signer)) _
    (fun _ _ _ _ hg => hg) rfl

theorem Table.marked_bound (l : Ledger) (i : Instruction) (specs : List Spec) (program : Key) :
    Table.Marked i.metas ⟨program, bound specs (i.metas.map l.entryOf)⟩ := by
  have hbound : ∀ (specs : List Spec) (entries : List Entry),
      (bound specs entries).map (fun h => (h.key, h.signer)) =
        entries.map fun e => (e.account.key, e.signer) := by
    intro specs entries
    induction entries generalizing specs with
    | nil => cases specs <;> rfl
    | cons e rest ih =>
      cases specs with
      | nil => exact congrArg _ (ih [])
      | cons spec specs => exact congrArg _ (ih specs)
  rw [Table.Marked, hbound, List.map_map]
  refine List.map_congr_left fun m _ => ?_
  exact congrArg (·, m.signer) (l.store.key_read m.key)

/-- a scene in which all positions show the store that the table is a draft of, and sign just as the
instruction says -/
structure Scene.Level (l : Ledger) (layout : Layout) (i : Instruction) (now : Store)
    (scene : Scene Ledger) : Prop extends scene.Drafts l layout i now where
  shown : scene.table.Shows now
  signers : scene.table.Marked i.metas

namespace Table.Seated

variable {layout : Layout} {i : Instruction} {t : Table}

theorem exists_meta (seated : t.Seated layout i.metas) {h : Handle} (hh : h ∈ t.handles) :
    ∃ m ∈ i.metas, m.key = h.key ∧ m.writable = h.writable := by
  obtain ⟨position, here⟩ := List.getElem?_of_mem hh
  obtain ⟨m, hm, hseat⟩ := seated.handle_at here
  exact ⟨m, List.mem_of_getElem? hm, (congrArg Seat.key hseat).symm,
    (congrArg Seat.writable hseat).symm⟩

theorem exists_handle_of_meta (seated : t.Seated layout i.metas) {key : Key}
    (h : ∃ m ∈ i.metas, m.key = key) : ∃ h ∈ t.handles, h.key = key := by
  obtain ⟨m, hm, rfl⟩ := h
  obtain ⟨position, hposition⟩ := List.getElem?_of_mem hm
  obtain ⟨h, here, hseat⟩ := seated.exists_handle hposition
  exact ⟨h, List.mem_of_getElem? here, congrArg Seat.key hseat⟩

end Table.Seated

namespace InnerCall

variable {f : Frame} {t : Table} {i j : Instruction} {seeds : List SignerSeeds} {derived : List Key}
  {now now' : Store} {l : Ledger} {layout : Layout}

/-- A call that the instruction and the frame allow reaches the host. -/
theorem request_of_handsOn (seated : t.Seated layout i.metas) (shown : t.Shows now)
    (marked : t.Marked i.metas) (hands : i.HandsOn j derived) (admits : f.Admits j seeds derived)
    (executable : (now.read j.program).executable = true) :
    ∃ refs, refsOf t j.metas = .ok refs ∧ request f t j.program refs seeds j.data =
      .ok ⟨j, j.keys.map now.read, j.signers, f.height + 1⟩ := by
  obtain ⟨refs, hrefs⟩ :=
    exists_refsOf_iff.2 fun m hm => seated.exists_handle_of_meta (hands.present m hm)
  obtain ⟨names, firsts⟩ := names_of_refsOf hrefs
  have speaks : ∀ key ∈ derived, ∃ s ∈ seeds, s.derive f.program = .ok key := by
    intro key hkey
    have hmem : (.ok key : Except Error Key) ∈ seeds.map (·.derive f.program) :=
      admits.derives ▸ List.mem_map_of_mem hkey
    exact List.mem_map.1 hmem
  have allows : t.Allows f j seeds := by
    refine ⟨admits.toAllows, ?_, ?_, ?_, ?_⟩
    · obtain ⟨h, hh, hk⟩ := seated.exists_handle_of_meta hands.program
      exact ⟨h, hh, hk, by rw [shown h hh, hk]; exact executable⟩
    · intro s hs
      have hmem : s.derive f.program ∈ derived.map .ok :=
        admits.derives ▸ List.mem_map_of_mem hs
      obtain ⟨key, hkey, hd⟩ := List.mem_map.1 hmem
      obtain ⟨m, hm, hsigner, rfl⟩ := hands.asked key hkey
      exact ⟨m, hm, hsigner, hd.symm⟩
    · intro m hm hw h hh hk
      obtain ⟨g, hg, hgk, hwritable⟩ := seated.exists_meta hh
      exact hwritable.symm.trans (hands.writable m hm hw g hg (hgk.trans hk))
    · intro m _ h hh hk g hg hgk
      rw [shown g hg, shown h hh, hk, hgk]
  have voiced : ∀ x ∈ referred t refs, x.1.signer = true → x.2.Voiced f.program seeds := by
    intro x hx hs
    rcases hands.signer _ (meta_of_referred names hx).2 hs with hderived | first
    · exact .inr (speaks _ hderived)
    · exact .inl (marked.signer (firsts x hx) first)
  obtain ⟨r, hr⟩ := request_of_allows names allows voiced
  exact ⟨refs, hrefs, hr.trans (congrArg _ (request_of_instruction shown.mirrors hrefs hr).1)⟩

theorem trespass?_eq_none {writable keys : List Key} (within : now.Within writable now') :
    trespass? writable (keys.map now.read) (keys.map now'.read) = none := by
  rw [trespass?, List.zip_map', List.findSome?_eq_none_iff]
  intro x hx
  obtain ⟨key, _, rfl⟩ := List.mem_map.1 hx
  by_cases hw : key ∈ writable
  · simp [hw]
  · simp [within.beyond key hw]

/-- A request that the program carries out makes of the store what the program does. -/
theorem invoke_of_carries {refs : List Ref} {height : Nat}
    (hr : request f t j.program refs seeds j.data = .ok ⟨j, j.keys.map now.read, j.signers, height⟩)
    {program : Native} (loaded : l.native? j.program = some program)
    (carries : Carries program j now now') :
    (invoke Ledger.host f j.program refs seeds j.data l t).1 =
      .ok (adopt (writableKeys j) (j.keys.map now'.read) t) := by
  refine (invoke_eq_ok_iff hr).2 ⟨program, loaded, ?_⟩
  rw [carries.reply l.calls]
  refine ⟨rfl, ?_, trespass?_eq_none carries.within, rfl⟩
  show _ = (now'.slots j.keys).total
  rw [Store.total_slots]
  exact carries.even

/-- A call that is allowed and that its program carries out goes through. -/
theorem invokeInstruction_of_carries (seated : t.Seated layout i.metas) (shown : t.Shows now)
    (marked : t.Marked i.metas) (hands : i.HandsOn j derived) (admits : f.Admits j seeds derived)
    (executable : (now.read j.program).executable = true) {program : Native}
    (loaded : l.native? j.program = some program) (carries : Carries program j now now') :
    ∃ l', invokeInstruction Ledger.host f j seeds l t =
      (.ok (adopt (writableKeys j) (j.keys.map now'.read) t), l') := by
  obtain ⟨refs, hrefs, hr⟩ := request_of_handsOn seated shown marked hands admits executable
  unfold invokeInstruction
  rw [hrefs]
  exact ⟨_, Prod.ext (invoke_of_carries hr loaded carries) rfl⟩

end InnerCall

namespace Scene.Level

variable {l : Ledger} {layout : Layout} {i j : Instruction} {now now' : Store} {f : Frame}
  {scene : Scene Ledger} {seeds : List SignerSeeds} {derived : List Key}

theorem invokes (level : scene.Level l layout i now) (hands : i.HandsOn j derived)
    (admits : f.Admits j seeds derived) (executable : (now.read j.program).executable = true)
    {program : Native} (loaded : l.native? j.program = some program)
    (carries : InnerCall.Carries program j now now') :
    ∃ last, Returns Ledger.host f scene (Logic.invokeInstruction j seeds) () last ∧
      last.Level l layout i now' := by
  have hloaded : scene.ledger.native? j.program = some program := by
    rw [← loaded, Ledger.native?, Ledger.native?, level.natives]
  obtain ⟨l', h⟩ := InnerCall.invokeInstruction_of_carries level.seated level.shown level.signers
    hands admits executable hloaded carries
  have hreturns : Returns Ledger.host f scene (Logic.invokeInstruction j seeds) ()
      ⟨l', InnerCall.adopt (InnerCall.writableKeys j) (j.keys.map now'.read) scene.table⟩ := by
    refine Logic.returns_perform_iff.2 ?_
    simp only [Op.run, Op.onBoth, h]
  have hpresent : ∀ key ∈ InnerCall.writableKeys j, ∃ h ∈ scene.table.handles, h.key = key := by
    intro key hk
    obtain ⟨m, hm, rfl⟩ := List.mem_map.1 hk
    exact level.seated.exists_handle_of_meta (hands.present m (List.mem_filter.1 hm).1)
  have natives := hreturns.natives_eq.trans level.natives
  refine ⟨_, hreturns, ⟨⟨hreturns.seated level.seated, ?_, natives,
    hreturns.marked (by simp) level.marked⟩, ?_, level.signers.adopted _ _⟩⟩
  · exact level.mirrors.adopted j.nodup_keys j.mem_keys_of_writable (fun h hh _ => level.shown h hh) hpresent
      carries.within.beyond carries.within.kind
  · exact level.shown.adopted j.nodup_keys j.mem_keys_of_writable carries.within.beyond carries.within.kind

end Scene.Level

/-! ## invocations -/

/-- what an invocation needs so that its business logic is started with parameters -/
structure Program.Accepts (p : Program) (l : Ledger) (i : Instruction) (height : Nat) (r : Route)
    (params : r.Params) : Prop where
  program : i.program = p.key
  route : p.route? r.layout.discriminator = some r
  data : i.data = r.data params
  data_le : i.data.length ≤ p.limits.instructionData
  metas_le : i.metas.length ≤ p.limits.accounts
  height_le : height ≤ p.limits.stackHeight
  enough : r.layout.specs.length ≤ i.metas.length
  consistent : ∀ m ∈ i.metas, ∀ g ∈ i.metas, m.key = g.key → m.writable = g.writable
  met : ∀ (position : Nat) (spec : Spec) (m : Meta), r.layout.specs[position]? = some spec →
    i.metas[position]? = some m → spec.Met p.key l.store m

namespace Program

variable {p : Program} {l : Ledger} {i : Instruction} {height : Nat} {callStack : List Key}
  {r : Route} {params : r.Params} {last : Scene Ledger} {now : Store}

/-- the scene that the business logic of an instruction starts in -/
def opened (p : Program) (l : Ledger) (i : Instruction) (layout : Layout) : Scene Ledger :=
  ⟨{ l with executing := i.program, staged := none },
    ⟨p.key, Table.bound layout.specs (i.metas.map l.entryOf)⟩⟩

theorem level_opened (enough : r.layout.specs.length ≤ i.metas.length) :
    (p.opened l i r.layout).Level l r.layout i l.store := by
  have shown : (p.opened l i r.layout).table.Shows l.store := by
    intro h hh
    obtain ⟨position, here⟩ := List.getElem?_of_mem hh
    obtain ⟨e, he, hb⟩ := Table.getElem?_bound here
    rw [Handle.key, hb.account]
    exact Table.stored_entries l i e (List.mem_of_getElem? he)
  exact ⟨⟨Table.bound_seated enough, shown.mirrors, rfl, fun _ => Table.signed_bound⟩, shown,
    Table.marked_bound l i _ _⟩

theorem execution_of_accepts (accepts : p.Accepts l i height r params)
    (returns : Returns Ledger.host ⟨p.limits, p.key, height, callStack⟩ (p.opened l i r.layout)
      (r.process params) () last) :
    p.execution Ledger.host (l.submitNested i height callStack) = some (.ok (), last) := by
  have hlength : r.layout.discriminator.length = 8 := r.layout.length_discriminator
  have hdata : i.data = r.layout.discriminator ++ r.codec.write params := accepts.data
  refine execution_eq_some_iff.2 ⟨_, _, ⟨r.process params, ⟨p.limits, p.key, height, callStack⟩,
    (p.opened l i r.layout).table⟩, rfl, ?_, returns⟩
  refine start_eq_ok_iff.2 ⟨accepts.program, accepts.program, accepts.data_le, ?_,
    accepts.height_le, ?_, r, _, _, ?_, ?_, Table.binds_metas_iff.2 ⟨accepts.enough,
      accepts.consistent, accepts.met, rfl⟩, rfl⟩
  · rw [List.length_map]
    exact accepts.metas_le
  · show 8 ≤ i.data.length
    rw [hdata, List.length_append, hlength]
    exact Nat.le_add_right _ _
  · show p.route? (i.data.take 8) = _
    rw [hdata, List.take_left' hlength]
    exact accepts.route
  · show r.decode (i.data.drop 8) = _
    rw [hdata, List.drop_left' hlength, Route.decode, r.codec.readAll_eq_ok_iff.2 rfl]

/-- A position that is touched was handed on as writable. -/
theorem writable_of_touched (accepts : p.Accepts l i height r params)
    (returns : Returns Ledger.host ⟨p.limits, p.key, height, callStack⟩ (p.opened l i r.layout)
      (r.process params) () last) {h : Handle} (hh : h ∈ last.table.handles)
    (touched : h.isDirty = true) : ∃ m ∈ i.metas, m.key = h.key ∧ m.writable = true := by
  have hkey : ∀ m : Meta, (l.entryOf m).account.key = m.key := fun m => l.store.key_read m.key
  have consistent : ∀ e ∈ i.metas.map l.entryOf, ∀ g ∈ i.metas.map l.entryOf,
      e.account.key = g.account.key → e.writable = g.writable := by
    simp only [List.forall_mem_map, hkey]
    exact accepts.consistent
  have untouched : (p.opened l i r.layout).table.Untouched (i.metas.map l.entryOf) :=
    .of_bind (Table.binds_metas_iff.2 ⟨accepts.enough, accepts.consistent, accepts.met, rfl⟩)
  have hlast : ((r.process params).run Ledger.host ⟨p.limits, p.key, height, callStack⟩
      (p.opened l i r.layout)).2 = last := congrArg (·.2) returns
  have huntouched : last.table.Untouched (i.metas.map l.entryOf) := by
    rw [← hlast]
    exact Logic.run_induction (P := fun scene => scene.table.Untouched _) Ledger.host _
      (fun op scene hscene => .of_step consistent (op.run_step Ledger.host _ scene) hscene) _ _
      untouched
  obtain ⟨position, here⟩ := List.getElem?_of_mem hh
  obtain ⟨e, he, hek, hew, hsame⟩ := huntouched.entry position h here
  obtain ⟨m, hm, rfl⟩ := List.mem_map.1 (List.mem_of_getElem? he)
  refine ⟨m, hm, (hkey m).symm.trans hek, ?_⟩
  cases hw : m.writable with
  | true => rfl
  | false =>
    rw [Handle.isDirty, (hsame hw).2] at touched
    cases touched

end Program

namespace Table

variable {t : Table} {writes : List Write} {now : Store}

/-- Positions that show one store do not diverge. -/
theorem exists_pending (shown : t.Shows now) : ∃ writes, t.pending = .ok writes := by
  refine ⟨_, pending_eq_ok_iff.2 ⟨fun x hx y hy hk => ?_, rfl⟩⟩
  rw [shown _ (List.mem_of_getElem? (mem_touched.1 hx).1),
    shown _ (List.mem_of_getElem? (mem_touched.1 hy).1), hk]

theorem mem_keys_pending_iff (pending : t.pending = .ok writes) {key : Key} :
    key ∈ writes.map (·.key) ↔ ∃ h ∈ t.handles, h.isDirty = true ∧ h.key = key := by
  obtain ⟨_, rfl⟩ := pending_eq_ok_iff.1 pending
  rw [List.map_map, List.mem_map]
  refine ⟨?_, ?_⟩
  · rintro ⟨⟨h, position⟩, hx, rfl⟩
    obtain ⟨here, touched⟩ := mem_touched.1 (mem_of_mem_distinctBy hx)
    exact ⟨h, List.mem_of_getElem? here, touched, rfl⟩
  · rintro ⟨h, hh, touched, rfl⟩
    obtain ⟨position, here⟩ := List.getElem?_of_mem hh
    obtain ⟨first, hfirst, hk⟩ : ∃ first ∈ distinctBy (fun x : Handle × Nat => x.1.key) t.touched,
        first.1.key = h.key :=
      exists_mem_distinctBy (mem_touched.2 ⟨here, touched⟩)
    exact ⟨first, hfirst, hk⟩

end Table

namespace Ledger

variable {l : Ledger} {t : Table} {writes : List Write} {now : Store}

theorem commit_of_balanced (pending : t.pending = .ok writes)
    (unfrozen : frozen? l.store writes = none)
    (even : totalBefore l.store writes = totalAfter l.store writes) :
    ∃ l', t.commit host l = (.ok (.ofWrites writes), l') ∧ l.Settled writes l' := by
  unfold Table.commit
  rw [pending]
  cases writes with
  | nil => exact ⟨l, rfl, unfrozen, even, by simp [books]⟩
  | cons w rest =>
    have hsettle : host.settle l (w :: rest) = (.ok (), { l with
        store := (w :: rest).foldl applyWrite l.store
        writes := l.writes ++ w :: rest
        settlements := l.settlements + 1 }) := by
      show l.settle (w :: rest) = _
      rw [settle, unfrozen]
      simp only [even, ne_eq, not_true_eq_false, if_false]
    simp only [hsettle]
    exact ⟨_, rfl, unfrozen, even, rfl⟩

/-- The batch of a table that shows a store moves the balances to those of that store. -/
theorem totalAfter_of_shows (tracks : t.Tracks l.store) (shown : t.Shows now)
    (pending : t.pending = .ok writes) :
    totalAfter l.store writes = Amount.total now.lamports (writes.map (·.key)) := by
  obtain ⟨_, rfl⟩ := Table.pending_eq_ok_iff.1 pending
  rw [totalAfter, Amount.total_map, Amount.total_map, Amount.total_map]
  refine Amount.total_congr fun x hx => ?_
  obtain ⟨h, position⟩ := x
  have hh : h ∈ t.handles :=
    List.mem_of_getElem? (Table.mem_touched.1 (mem_of_mem_distinctBy hx)).1
  have hmarked := Handle.Tracks.getD_marked (tracks h hh).lamports
  show (Table.writeOf h position).lamports.getD (l.store.read h.key).lamports =
    (now.read h.key).lamports
  rw [← shown h hh]
  exact hmarked

end Ledger

theorem Program.process_of_commit {p : Program} {l l' : Ledger} {last : Scene Ledger} {receipt : Receipt}
    (hx : p.execution Ledger.host l = some (.ok (), last))
    (hcommit : last.table.commit Ledger.host last.ledger = (.ok receipt, l')) :
    p.process Ledger.host l = (.committed receipt, l') := by
  rcases p.process_cases Ledger.host l with ⟨e, hnone, _⟩ | ⟨stop, scene, hstop, _⟩ | ⟨scene, hok, h⟩
  · rw [hx] at hnone
    cases hnone
  · rw [hx] at hstop
    cases hstop
  · rw [hx] at hok
    cases hok
    rw [h, finish, hcommit]

/-- An invocation commits if its business logic returns and leaves the balances even. -/
theorem Program.commits {p : Program} {l : Ledger} {i : Instruction} {height : Nat}
    {callStack : List Key} {r : Route} {params : r.Params} {last : Scene Ledger} {now : Store}
    (accepts : p.Accepts l i height r params)
    (returns : Returns Ledger.host ⟨p.limits, p.key, height, callStack⟩ (p.opened l i r.layout)
      (r.process params) () last) (level : last.Level l r.layout i now)
    (modifiable : ∀ m ∈ i.metas, m.writable = true → (l.store.read m.key).executable = false)
    (even : ∀ keys : List Key, keys.Nodup → (∀ key, key ∉ keys → now.read key = l.store.read key) →
      Amount.total l.store.lamports keys = Amount.total now.lamports keys) :
    ∃ receipt l', p.process Ledger.host (l.submitNested i height callStack) = (.committed receipt, l') ∧
      ∀ key, l'.store.read key = now.read key := by
  have hx := execution_of_accepts accepts returns
  have tracks := execution_tracks hx
  have hstore : last.ledger.store = l.store := congrArg (·.1) (execution_books hx)
  obtain ⟨writes, pending⟩ := Table.exists_pending level.shown
  have hkeys : ∀ {key}, key ∈ writes.map (·.key) ↔ _ := Table.mem_keys_pending_iff pending
  have unfrozen : Ledger.frozen? last.ledger.store writes = none := by
    rw [Ledger.frozen?, Option.map_eq_none_iff, List.find?_eq_none, hstore]
    intro w hw
    obtain ⟨h, hh, touched, hk⟩ := hkeys.1 (List.mem_map_of_mem hw)
    obtain ⟨m, hm, hmk, hwritable⟩ := writable_of_touched accepts returns hh touched
    rw [← hk, ← hmk, modifiable m hm hwritable]
    exact Bool.false_ne_true
  have balanced : Ledger.totalBefore last.ledger.store writes =
      Ledger.totalAfter last.ledger.store writes := by
    rw [hstore, Ledger.totalAfter_of_shows tracks level.shown pending, Ledger.totalBefore,
      ← Amount.total_map l.store.lamports]
    -- the draft differs from the store only under the keys of the batch
    refine even _ (Table.nodup_keys_pending pending) fun key hkey => ?_
    exact level.mirrors.beyond key fun h hh touched hk => hkey (hkeys.2 ⟨h, hh, touched, hk⟩)
  obtain ⟨l', hcommit, _⟩ := Ledger.commit_of_balanced pending unfrozen balanced
  have hprocess := process_of_commit hx hcommit
  refine ⟨_, _, hprocess, fun key => ?_⟩
  rcases p.process_ledger (l.submitNested i height callStack) with
    ⟨stage, e, _, h, _⟩ | ⟨scene, _, _, hok, hpending, h, hs⟩
  · rw [hprocess] at h
    cases h
  · rw [hx] at hok
    cases hok
    rw [hprocess] at h
    obtain ⟨_, rfl⟩ := Prod.mk.inj h
    have persists := Ledger.Settled.persists (l := l) tracks hpending
      ⟨hs.unfrozen, hs.balanced, hs.books⟩
    exact (persists.mirrors tracks).read_eq level.mirrors key

end AccountLedger
