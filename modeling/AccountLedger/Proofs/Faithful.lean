import AccountLedger.Greeter
import AccountLedger.Proofs.Batch
import AccountLedger.Proofs.Dispatch
import AccountLedger.Proofs.Operation
import AccountLedger.Proofs.Process
/-!
# Settlement is faithful

A write carries the marked fields of a handle only, and of several handles of one account only the
first is written.  Nothing is lost by that, since a field without a mark still is what it was in the
ledger: a handle `Tracks` the account that it was bound to, through every operation.

* `Handle.Tracks.of_changed`: no operation changes a field without marking it;
* `process_persists`: a committed invocation leaves the ledger with the touched accounts as business
  logic left them, with all others as they were, and with a receipt of just that.
-/

namespace AccountLedger

/-! ## marks -/

/-- a field of the handle that is not marked is that of the account -/
structure Handle.Tracks (base : Account) (h : Handle) : Prop where
  key : h.account.key = base.key
  executable : h.account.executable = base.executable
  rentEpoch : h.account.rentEpoch = base.rentEpoch
  lamports : h.dirty.lamports = false → h.account.lamports = base.lamports
  data : h.dirty.data = false → h.account.data = base.data
  owner : h.dirty.owner = false → h.account.owner = base.owner

namespace Handle.Tracks

variable {base : Account} {h h' : Handle}

theorem moveLamports (amount : Amount) (ht : h.Tracks base) :
    (h.moveLamports amount).Tracks base := by
  unfold Handle.moveLamports
  split
  · exact ht
  · exact ⟨ht.key, ht.executable, ht.rentEpoch, nofun, ht.data, ht.owner⟩

theorem funded (bySeeds : Bool) (rent : Amount) (ht : h.Tracks base) :
    (Table.funded bySeeds rent h).Tracks base :=
  moveLamports rent ⟨ht.key, ht.executable, ht.rentEpoch, ht.lamports, ht.data, ht.owner⟩

theorem allocate (space : Nat) (owner : Key) (ht : h.Tracks base) :
    (h.allocate space owner).Tracks base :=
  ⟨ht.key, ht.executable, ht.rentEpoch, ht.lamports, nofun, nofun⟩

/-- The owner that comes back from an inner call is marked if it is another one. -/
theorem adopt (updated : Account) (ht : h.Tracks base) : (h.adopt updated).Tracks base := by
  refine ⟨ht.key, ht.executable, ht.rentEpoch, nofun, nofun, ?_⟩
  intro hd
  simp only [Handle.adopt, Bool.or_eq_false_iff, bne_eq_false_iff_eq] at hd
  show updated.owner = base.owner
  rw [hd.2, ht.owner hd.1]

theorem adoptAll (updates : List Account) (ht : h.Tracks base) :
    (h.adoptAll updates).Tracks base :=
  adoptAll_induction (P := fun g => g.Tracks base) updates (fun _ a _ _ hg => hg.adopt a) ht

/-- No operation changes a field without marking it. -/
theorem of_changed {f : Frame} {t : Table} {op : Op} {result : Except (Stop Error) Unit}
    (change : h.Changed f t op result h') (ht : h.Tracks base) : h'.Tracks base := by
  cases change with
  | same => exact ht
  | lamports set =>
    obtain ⟨_, _, _, rfl⟩ := Handle.setLamports_eq_ok_iff.1 set
    exact ⟨ht.key, ht.executable, ht.rentEpoch, nofun, ht.data, ht.owner⟩
  | save saved =>
    obtain ⟨_, _, _, _, _, rfl⟩ := Handle.save_eq_ok_iff.1 saved
    exact ⟨ht.key, ht.executable, ht.rentEpoch, ht.lamports, nofun, ht.owner⟩
  | paid may => exact ht.moveLamports _
  | allocated may => exact (ht.funded _ _).allocate _ _
  | half may => exact ht.funded _ _
  | adopted asked within => exact ht.adoptAll _

/-- a marked value, or else a value that is the same -/
theorem getD_marked {α : Type} {marked : Bool} {a b : α} (h : marked = false → a = b) :
    (if marked then some a else none).getD b = a := by
  cases marked with
  | true => rfl
  | false => exact (h rfl).symm

/-- The marked fields on top of the account make the whole state of the handle. -/
theorem overwrite (ht : h.Tracks base) (position : Nat) :
    Ledger.overwrite base (Table.writeOf h position) = h.account := by
  have hl : (Table.writeOf h position).lamports.getD base.lamports = h.account.lamports :=
    getD_marked ht.lamports
  have hd : (Table.writeOf h position).data.getD base.data = h.account.data := getD_marked ht.data
  have ho : (Table.writeOf h position).owner.getD base.owner = h.account.owner :=
    getD_marked ht.owner
  unfold Ledger.overwrite
  rw [hl, hd, ho, ← ht.key, ← ht.executable, ← ht.rentEpoch]

end Handle.Tracks

/-! ## tables -/

/-- every handle tracks the account of its key -/
def Table.Tracks (s : Store) (t : Table) : Prop := ∀ h ∈ t.handles, h.Tracks (s.read h.key)

namespace Table.Tracks

variable {s : Store}

theorem of_step {f : Frame} {t t' : Table} {op : Op} {result : Except (Stop Error) Unit}
    (step : Step f t op result t') (ht : t.Tracks s) : t'.Tracks s := by
  intro h' here'
  obtain ⟨i, hi⟩ := List.getElem?_of_mem here'
  obtain ⟨h, here, change⟩ := step.changed hi
  have htracks := (ht h (List.mem_of_getElem? here)).of_changed change
  have hkey : h'.key = h.key := htracks.key.trans (s.key_read h.key)
  rw [hkey]
  exact htracks

theorem of_run {σ α : Type} (host : Host σ) (f : Frame) (m : Logic α) (scene : Scene σ)
    (ht : scene.table.Tracks s) : (m.run host f scene).2.table.Tracks s :=
  Logic.run_induction (P := fun scene => scene.table.Tracks s) host f
    (fun op scene ht => of_step (op.run_step host f scene) ht) m scene ht

theorem of_bind {program : Key} {entries : List Entry} {layout : Layout} {t : Table}
    (h : bind program entries layout = .ok t)
    (stored : ∀ e ∈ entries, e.account = s.read e.account.key) : t.Tracks s := by
  obtain ⟨_, _, _, rfl⟩ := binds_iff.1 h
  intro g hg
  obtain ⟨i, hi⟩ := List.getElem?_of_mem hg
  obtain ⟨e, he, hb⟩ := getElem?_bound hi
  have hbase : g.account = s.read g.key := by
    rw [Handle.key, hb.account]
    exact stored e (List.mem_of_getElem? he)
  rw [← hbase]
  exact ⟨rfl, rfl, rfl, fun _ => rfl, fun _ => rfl, fun _ => rfl⟩

end Table.Tracks

/-! ## invocations -/

/-- The table that a submitted invocation leaves tracks the accounts that it was submitted with. -/
theorem Program.execution_tracks {p : Program} {l : Ledger} {i : Instruction} {height : Nat}
    {callStack : List Key} {ending : Ending Unit} {scene : Scene Ledger}
    (h : p.execution Ledger.host (l.submitNested i height callStack) = some (ending, scene)) :
    scene.table.Tracks l.store := by
  obtain ⟨_, _, started, htake, hstart, hrun⟩ := execution_eq_some_iff.1 h
  cases htake
  obtain ⟨_, _, _, _, _, _, r, logic, table, _, _, hbind, rfl⟩ := start_eq_ok_iff.1 hstart
  have hinit : table.Tracks l.store := by
    refine Table.Tracks.of_bind hbind fun e he => ?_
    obtain ⟨m, _, rfl⟩ := List.mem_map.1 he
    show l.store.read m.key = l.store.read (l.store.read m.key).key
    rw [Store.key_read]
  have hscene : scene = _ := (congrArg (·.2) hrun).symm
  rw [hscene]
  exact Table.Tracks.of_run Ledger.host _ logic _ hinit

/-- the ledger holds what business logic left in the table, and the receipt says just that -/
structure Ledger.Persists (l : Ledger) (t : Table) (receipt : Receipt) (l' : Ledger) : Prop where
  touched : ∀ h ∈ t.handles, h.isDirty = true → l'.store.find? h.key = some h.account
  untouched : ∀ key, (∀ h ∈ t.handles, h.isDirty = true → h.key ≠ key) →
    l'.store.find? key = l.store.find? key
  ascending : receipt.written.Pairwise (· < ·)
  written : ∀ i, i ∈ receipt.written ↔ ∃ h, t.FirstDirty i h
  counted : ∃ writes, l'.writes = l.writes ++ writes ∧
    (∀ w ∈ writes, ∃ h, t.FirstDirty w.position h ∧ w = Table.writeOf h w.position) ∧
    receipt.written = writes.map (·.position) ∧
    receipt.lamportsWritten = writes.countP (·.lamports.isSome) ∧
    receipt.dataWritten = writes.countP (·.data.isSome)

theorem Ledger.Settled.persists {l l' : Ledger} {t : Table} {writes : List Write}
    (tracks : t.Tracks l.store) (hp : t.pending = .ok writes) (hs : l.Settled writes l') :
    l.Persists t (.ofWrites writes) l' := by
  have distinct := Table.nodup_keys_pending hp
  have hstore : l'.store = writes.foldl applyWrite l.store := congrArg (·.1) hs.books
  have hlog : l'.writes = l.writes ++ writes := congrArg (·.2.1) hs.books
  obtain ⟨agree, rfl⟩ := Table.pending_eq_ok_iff.1 hp
  refine ⟨?_, ?_, ?_, ?_, _, hlog, ?_, rfl, rfl, rfl⟩
  · intro h hh hd
    obtain ⟨i, hi⟩ := List.getElem?_of_mem hh
    have hx : (h, i) ∈ t.touched := Table.mem_touched.2 ⟨hi, hd⟩
    obtain ⟨⟨g, j⟩, hg, hk⟩ : ∃ y ∈ distinctBy (fun x => x.1.key) t.touched, y.1.key = h.key :=
      exists_mem_distinctBy hx
    have hgt := mem_of_mem_distinctBy hg
    have hsame : g.account = h.account := agree _ hgt _ hx hk
    have hfind := find?_writes (s := l.store) distinct
      (List.mem_map_of_mem (f := fun x => Table.writeOf x.1 x.2) hg)
    have hover := (tracks g (List.mem_of_getElem? (Table.mem_touched.1 hgt).1)).overwrite j
    simp only at hk
    rw [hstore, ← hk, ← hsame, ← hover]
    exact hfind
  · intro key hkey
    rw [hstore]
    refine find?_untouched fun w hw => ?_
    obtain ⟨⟨g, j⟩, hg, rfl⟩ := List.mem_map.1 hw
    obtain ⟨here, hd⟩ := Table.mem_touched.1 (mem_of_mem_distinctBy hg)
    exact hkey g (List.mem_of_getElem? here) hd
  · show ((_ : List Write).map (·.position)).Pairwise (· < ·)
    rw [List.map_map]
    exact List.pairwise_map.2 (t.touched_sorted.sublist (distinctBy_sublist _ _))
  · intro i
    simp only [Receipt.ofWrites, List.map_map, List.mem_map, Prod.exists,
      Table.mem_distinctBy_touched]
    refine ⟨?_, ?_⟩
    · intro h
      obtain ⟨h, _, hf, rfl⟩ := h
      exact ⟨h, hf⟩
    · intro h
      obtain ⟨h, hf⟩ := h
      exact ⟨h, i, hf, rfl⟩
  · intro w hw
    obtain ⟨⟨g, j⟩, hg, rfl⟩ := List.mem_map.1 hw
    exact ⟨g, Table.mem_distinctBy_touched.1 hg, rfl⟩

/-- Settlement is refused for touched positions that diverge, and for nothing else in the table; a
submitted invocation that commits persists what its business logic left. -/
theorem Program.process_persists (p : Program) (l : Ledger) (i : Instruction) (height : Nat)
    (callStack : List Key) :
    (∀ t : Table,
      ((∃ e, t.pending = .error e) ↔ ∃ key first second, t.Diverge key first second) ∧
        ∀ e, t.pending = .error e →
          ∃ key first second, t.Diverge key first second ∧ e = .aliasing key first second) ∧
    ∀ receipt l',
      p.process Ledger.host (l.submitNested i height callStack) = (.committed receipt, l') →
        ∃ scene, p.execution Ledger.host (l.submitNested i height callStack) =
            some (.ok (), scene) ∧
          l.Persists scene.table receipt l' := by
  refine ⟨fun t => ⟨⟨?_, ?_⟩, ?_⟩, ?_⟩
  · intro h
    obtain ⟨e, he⟩ := h
    obtain ⟨key, first, second, hd, _⟩ :=
      Table.diverge_of_divergence? (Table.pending_error_iff.1 he)
    exact ⟨key, first, second, hd⟩
  · intro h
    obtain ⟨key, first, second, hd⟩ := h
    obtain ⟨e, he⟩ := Table.divergence?_of_diverge hd
    exact ⟨e, Table.pending_error_iff.2 he⟩
  · intro e he
    exact Table.diverge_of_divergence? (Table.pending_error_iff.1 he)
  · intro receipt l' hcommitted
    rcases p.process_ledger (l.submitNested i height callStack) with
      ⟨stage, e, l'', h, _⟩ | ⟨scene, writes, l'', hx, hp, h, hs⟩
    · rw [h] at hcommitted
      cases hcommitted
    · rw [h] at hcommitted
      cases hcommitted
      exact ⟨scene, hx, Ledger.Settled.persists (l := l) (execution_tracks hx) hp
        ⟨hs.unfrozen, hs.balanced, hs.books⟩⟩

/-- a ledger with one user -/
def Greeter.village : Ledger := Ledger.start.addAccount { key := .ofNat 1, lamports := 10000000 }

/-- the user opens a greeting whose count starts at seven -/
def Greeter.opening : Instruction where
  program := key
  metas := [⟨.ofNat 1, true, true⟩, ⟨.ofNat 2, true, true⟩, ⟨.system, false, false⟩]
  data := openRoute.data (7 : Amount)

theorem Greeter.opening_persists :
    ∃ scene, program.execution Ledger.host (village.submit opening) = some (.ok (), scene) ∧
      village.Persists scene.table ⟨[0, 1], 2, 1⟩
        (program.process Ledger.host (village.submit opening)).2 := by
  have hcommitted : (program.process Ledger.host (village.submit opening)).1 =
      .committed ⟨[0, 1], 2, 1⟩ := by
    decide +kernel
  exact (Program.process_persists program village opening 1 []).2 _ _ (eq_mk_of_fst_eq hcommitted)

end AccountLedger
