import AccountLedger.Proofs.Draft
/-!
# What commits

An invocation that commits has met all that its layout asks, and its business logic has returned.
If the table that this left is the draft of a store, the ledger then holds that store.

* `process_committed`: an invocation that commits, from its business logic to what it leaves;
* `run_keeps`: what every submission that commits preserves holds after a run of them.
-/

namespace AccountLedger

open Logic (Returns)

/-! ## the programs of the ledger -/

namespace Ledger

theorem natives_take (l : Ledger) : (host.take l).2.natives = l.natives := by
  show (l.take).2.natives = l.natives
  unfold take
  cases l.staged <;> rfl

theorem natives_execution {p : Program} {l : Ledger} {ending : Ending Unit} {scene : Scene Ledger}
    (h : p.execution host l = some (ending, scene)) : scene.ledger.natives = l.natives := by
  obtain ⟨i, l', started, htake, _, hrun⟩ := Program.execution_eq_some_iff.1 h
  have hscene : scene = _ := (congrArg (·.2) hrun).symm
  have hl' : l' = (host.take l).2 := (congrArg (·.2) htake).symm
  rw [hscene, Logic.run_ledger host started.frame (·.natives) (fun _ _ => rfl) started.logic, hl',
    natives_take]

theorem natives_commit (l : Ledger) (t : Table) : (t.commit host l).2.natives = l.natives := by
  unfold Table.commit
  cases t.pending with
  | error e => rfl
  | ok writes =>
    cases writes with
    | nil => rfl
    | cons w rest =>
      show (l.settle (w :: rest)).2.natives = _
      unfold settle
      split
      · rfl
      · simp only
        split <;> rfl

/-- No invocation changes which programs the ledger runs itself. -/
theorem natives_process (p : Program) (l : Ledger) : (p.process host l).2.natives = l.natives := by
  rcases p.process_cases host l with ⟨e, _, h⟩ | ⟨stop, scene, hx, h⟩ | ⟨scene, hx, h⟩
  · rw [h]
    exact natives_take l
  · rw [h]
    exact natives_execution hx
  · rw [h, ← natives_execution hx, ← natives_commit scene.ledger scene.table, Program.finish]
    rcases scene.table.commit host scene.ledger with ⟨result, l'⟩
    cases result <;> rfl

end Ledger

/-! ## positions -/

/-- the meta of a position gives what the position needs, of the accounts of a store -/
structure Spec.Met (program : Key) (s : Store) (spec : Spec) (m : Meta) : Prop where
  signer : spec.access.signer = true → m.signer = true
  writable : spec.access.writable = true →
    m.writable = true ∧ (s.read m.key).executable = false
  executable : spec.executable = true → (s.read m.key).executable = true
  record : ∀ tag, spec.data = some (.existing tag) →
    (s.read m.key).owner = program ∧ tag.fits (s.read m.key).data = true

theorem error_or_eq_ok_iff {ε α : Type} {c : Prop} [Decidable c] {e : ε} {x : Except ε α} {a : α} :
    (if c then .error e else x) = .ok a ↔ ¬ c ∧ x = .ok a := by
  by_cases h : c <;> simp [h]

theorem Table.checkRecord_eq_ok_iff {program : Key} {position : Nat} {name : String} {tag : Tag}
    {a : Account} :
    checkRecord program position name tag a = .ok () ↔
      a.owner = program ∧ tag.fits a.data = true := by
  unfold checkRecord
  by_cases ho : a.owner = program
  · simp [ho, mapError_eq_ok_iff, Tag.check_eq_ok_iff]
  · simp [ho]

theorem Table.checkEntry_eq_ok_iff {program : Key} {position : Nat} {spec : Spec} {s : Store}
    {m : Meta} :
    checkEntry program position spec ⟨m.signer, m.writable, s.read m.key⟩ = .ok () ↔
      spec.Met program s m := by
  unfold checkEntry
  simp only [error_or_eq_ok_iff, Bool.and_eq_true, Bool.not_eq_true', not_and, Bool.not_eq_false,
    Bool.not_eq_true]
  refine ⟨?_, ?_⟩
  · rintro ⟨hs, hw, hm, hx, hr⟩
    refine ⟨hs, fun h => ⟨hw h, hm h⟩, hx, fun tag htag => ?_⟩
    rw [htag] at hr
    exact checkRecord_eq_ok_iff.1 hr
  · intro met
    refine ⟨met.signer, fun h => (met.writable h).1, fun h => (met.writable h).2, met.executable, ?_⟩
    split
    · rename_i tag hdata
      exact checkRecord_eq_ok_iff.2 (met.record tag hdata)
    · rfl

/-! ## the table of an instruction -/

namespace Table

variable {program : Key} {layout : Layout} {l : Ledger} {i : Instruction} {t : Table}

theorem stored_entries (l : Ledger) (i : Instruction) :
    ∀ e ∈ i.metas.map l.entryOf, e.account = l.store.read e.account.key := by
  intro e he
  obtain ⟨m, _, rfl⟩ := List.mem_map.1 he
  show l.store.read m.key = l.store.read (l.store.read m.key).key
  rw [Store.key_read]

theorem metas_entries (l : Ledger) (metas : List Meta) :
    (metas.map l.entryOf).map (fun e => (⟨e.account.key, e.signer, e.writable⟩ : Meta)) = metas := by
  rw [List.map_map]
  refine (List.map_congr_left fun m _ => ?_).trans (List.map_id _)
  show (⟨(l.store.read m.key).key, m.signer, m.writable⟩ : Meta) = m
  rw [Store.key_read]

theorem bound_seated (enough : layout.specs.length ≤ i.metas.length) :
    Seated layout i.metas ⟨program, bound layout.specs (i.metas.map l.entryOf)⟩ :=
  ⟨enough, by rw [seats, seats_bound, metas_entries]⟩

theorem signed_bound {specs : List Spec} {h : Handle}
    (hh : h ∈ bound specs (i.metas.map l.entryOf)) (signer : h.signer = true) : i.Signed h.key := by
  obtain ⟨position, here⟩ := List.getElem?_of_mem hh
  obtain ⟨e, he, hbound⟩ := getElem?_bound here
  obtain ⟨m, hm, rfl⟩ := List.mem_map.1 (List.mem_of_getElem? he)
  refine ⟨m, hm, hbound.signer.symm.trans signer, ?_⟩
  rw [Handle.key, hbound.account]
  exact (l.store.key_read m.key).symm

/-- An instruction is bound to a layout if it names no key twice with different writability, and
meets what the layout asks. -/
theorem binds_metas_iff :
    bind program (i.metas.map l.entryOf) layout = .ok t ↔
      layout.specs.length ≤ i.metas.length ∧
        (∀ m ∈ i.metas, ∀ g ∈ i.metas, m.key = g.key → m.writable = g.writable) ∧
        (∀ (position : Nat) (spec : Spec) (m : Meta), layout.specs[position]? = some spec →
          i.metas[position]? = some m → spec.Met program l.store m) ∧
        t = ⟨program, bound layout.specs (i.metas.map l.entryOf)⟩ := by
  have hkey : ∀ m : Meta, (l.entryOf m).account.key = m.key := fun m => l.store.key_read m.key
  rw [binds_iff]
  simp only [List.length_map, List.forall_mem_map, hkey]
  refine and_congr_right fun _ => and_congr_right fun _ => and_congr_left fun _ => ?_
  refine forall_congr' fun position => forall_congr' fun spec => ⟨?_, ?_⟩
  · intro all m hspec hm
    exact checkEntry_eq_ok_iff.1 (all (l.entryOf m) hspec (by rw [List.getElem?_map, hm]; rfl))
  · intro all e hspec he
    rw [List.getElem?_map, Option.map_eq_some_iff] at he
    obtain ⟨m, hm, rfl⟩ := he
    exact checkEntry_eq_ok_iff.2 (all m hspec hm)

end Table

/-! ## invocations that commit -/

/-- an invocation of an instruction that commits, from its business logic to what it leaves -/
structure Program.Commit (p : Program) (l : Ledger) (i : Instruction) (l' : Ledger) (r : Route)
    (params : r.Params) (f : Frame) (first last : Scene Ledger) : Prop where
  program : i.program = p.key
  route : p.route? (i.data.take 8) = some r
  data : i.data.drop 8 = r.codec.write params
  enough : r.layout.specs.length ≤ i.metas.length
  met : ∀ (position : Nat) (spec : Spec) (m : Meta), r.layout.specs[position]? = some spec →
    i.metas[position]? = some m → spec.Met p.key l.store m
  frame : f.program = p.key
  table : first.table.program = p.key
  drafts : first.Drafts l r.layout i l.store
  shown : first.table.Shows l.store
  clean : first.table.Clean
  returns : Returns Ledger.host f first (r.process params) () last
  left : last.table.Mirrors l.store l'.store

theorem Program.process_committed {p : Program} {l l' : Ledger} {i : Instruction} {height : Nat}
    {callStack : List Key} {receipt : Receipt}
    (h : p.process Ledger.host (l.submitNested i height callStack) = (.committed receipt, l')) :
    ∃ r params f first last, p.Commit l i l' r params f first last := by
  rcases p.process_ledger (l.submitNested i height callStack) with
    ⟨stage, e, _, hp, _⟩ | ⟨last, writes, _, hx, hpending, hp, hs⟩
  · rw [hp] at h
    cases h
  rw [hp] at h
  cases h
  have persists := Ledger.Settled.persists (l := l) (execution_tracks hx) hpending
    ⟨hs.unfrozen, hs.balanced, hs.books⟩
  obtain ⟨_, _, started, htake, hstart, hrun⟩ := execution_eq_some_iff.1 hx
  cases htake
  obtain ⟨hprogram, _, _, _, _, _, r, logic, table, hroute, hdecode, hbind, rfl⟩ :=
    start_eq_ok_iff.1 hstart
  dsimp only at hprogram hroute hdecode hbind hrun
  obtain ⟨henough, _, hmet, rfl⟩ := Table.binds_metas_iff.1 hbind
  have hcodec : ∃ params, i.data.drop 8 = r.codec.write params ∧ logic = r.process params := by
    unfold Route.decode at hdecode
    cases hread : r.codec.readAll (i.data.drop 8) with
    | error fault => rw [hread] at hdecode; cases hdecode
    | ok params =>
      rw [hread] at hdecode
      exact ⟨params, r.codec.readAll_eq_ok_iff.1 hread, (Except.ok.inj hdecode).symm⟩
  obtain ⟨params, hdata, rfl⟩ := hcodec
  have hshown := Table.bound_shows hbind (Table.stored_entries l i)
  exact ⟨r, params, _, _, last, hprogram, hroute, hdata, henough, hmet, rfl, rfl,
    ⟨Table.bound_seated henough, hshown.mirrors, rfl, fun _ => Table.signed_bound⟩, hshown,
    Table.bound_clean hbind, hrun, persists.mirrors (execution_tracks hx)⟩

/-- The ledger holds any store that the last table is a draft of. -/
theorem Program.Commit.settled {p : Program} {l l' : Ledger} {i : Instruction} {r : Route}
    {params : r.Params} {f : Frame} {first last : Scene Ledger}
    (commit : p.Commit l i l' r params f first last) (now : Store)
    (mirrors : last.table.Mirrors l.store now) (key : Key) : l'.store.read key = now.read key :=
  commit.left.read_eq mirrors key

theorem Program.Commit.met_named {p : Program} {l l' : Ledger} {i : Instruction} {r : Route}
    {params : r.Params} {f : Frame} {first last : Scene Ledger}
    (commit : p.Commit l i l' r params f first last) (name : String) {position : Nat} {spec : Spec}
    (named : r.layout.position? name = some position)
    (asked : r.layout.specs[position]? = some spec) {key : Key}
    (given : r.layout.keyOf? i name = some key) :
    ∃ m ∈ i.metas, m.key = key ∧ spec.Met p.key l.store m := by
  rw [Layout.keyOf?_eq named] at given
  obtain ⟨m, hm, rfl⟩ := Option.map_eq_some_iff.1 given
  exact ⟨m, List.mem_of_getElem? hm, rfl, commit.met position spec m asked hm⟩

/-- Who is named where a signature is asked has signed. -/
theorem Program.Commit.signed_named {p : Program} {l l' : Ledger} {i : Instruction} {r : Route}
    {params : r.Params} {f : Frame} {first last : Scene Ledger}
    (commit : p.Commit l i l' r params f first last) (name : String) {position : Nat} {spec : Spec}
    (named : r.layout.position? name = some position)
    (asked : r.layout.specs[position]? = some spec) (signs : spec.access.signer = true) {key : Key}
    (given : r.layout.keyOf? i name = some key) : i.Signed key := by
  obtain ⟨m, hm, hkey, met⟩ := commit.met_named name named asked given
  exact ⟨m, hm, met.signer signs, hkey⟩

theorem Program.Commit.route_unique {p : Program} {l l' : Ledger} {i : Instruction} {r r' : Route}
    {params : r.Params} {f : Frame} {first last : Scene Ledger}
    (commit : p.Commit l i l' r params f first last) (found : p.route? (i.data.take 8) = some r') :
    r = r' :=
  Option.some.inj (commit.route.symm.trans found)

/-- An instruction begins with the discriminator of its route. -/
theorem Program.Commit.discriminator_eq {p : Program} {l l' : Ledger} {i : Instruction} {r : Route}
    {params : r.Params} {f : Frame} {first last : Scene Ledger}
    (commit : p.Commit l i l' r params f first last) : i.data.take 8 = r.layout.discriminator := by
  have found := List.find?_some commit.route
  exact (of_decide_eq_true found).symm

/-- An instruction says the parameters of its route. -/
theorem Program.Commit.params_eq {p : Program} {l l' : Ledger} {i : Instruction} {r : Route}
    {params params' : r.Params} {f : Frame} {first last : Scene Ledger}
    (commit : p.Commit l i l' r params f first last) (h : i.data = r.data params') :
    params' = params := by
  have hwritten : i.data.drop 8 = r.codec.write params' :=
    h ▸ List.drop_left' r.layout.length_discriminator
  exact r.codec.write_inj (hwritten.symm.trans commit.data)

theorem Program.process_aborted {p : Program} {l l' : Ledger} {stage : Stage} {e : Error}
    (h : p.process Ledger.host l = (.aborted stage e, l')) : l'.store = l.store := by
  rcases p.process_ledger l with ⟨_, _, _, hp, hbooks⟩ | ⟨_, _, _, _, _, hp, _⟩
  · rw [hp] at h
    cases h
    exact congrArg (·.1) hbooks
  · rw [hp] at h
    cases h

/-! ## runs -/

/-- an instruction that is submitted, with the place of its call -/
structure Submission where
  instruction : Instruction
  height : Nat
  callStack : List Key

/-- the key does not sign the instruction -/
def Instruction.Unsigned (i : Instruction) (key : Key) : Prop :=
  ∀ m ∈ i.metas, m.signer = true → m.key ≠ key

instance (i : Instruction) (key : Key) : Decidable (i.Unsigned key) :=
  inferInstanceAs (Decidable (∀ m ∈ i.metas, m.signer = true → m.key ≠ key))

namespace Program

variable (p : Program)

/-- how a ledger answers to a submission, and what becomes of it -/
def serve (l : Ledger) (s : Submission) : Outcome × Ledger :=
  p.process Ledger.host (l.submitNested s.instruction s.height s.callStack)

def served (l : Ledger) (s : Submission) : Ledger := (p.serve l s).2

/-- the instruction of a submission, if it commits -/
def committed? (l : Ledger) (s : Submission) : Option Instruction :=
  match (p.serve l s).1 with
  | .committed _ => some s.instruction
  | .aborted _ _ => none

/-- the instructions that commit in a run, in order -/
def committed (l : Ledger) : List Submission → List Instruction
  | [] => []
  | s :: rest => (p.committed? l s).toList ++ committed (p.served l s) rest

variable {p}

theorem committed?_of_serve {l l' : Ledger} {s : Submission} {receipt : Receipt}
    (h : p.serve l s = (.committed receipt, l')) :
    p.committed? l s = some s.instruction ∧ p.served l s = l' := by
  refine ⟨?_, congrArg (·.2) h⟩
  rw [committed?, h]

theorem natives_served (l : Ledger) (s : Submission) : (p.served l s).natives = l.natives :=
  Ledger.natives_process p (l.submitNested s.instruction s.height s.callStack)

/-- A submission changes nothing, or it commits. -/
theorem served_cases (l : Ledger) (s : Submission) :
    (p.committed? l s = none ∧ (p.served l s).store = l.store) ∨
      p.committed? l s = some s.instruction ∧
        ∃ r params f first last, p.Commit l s.instruction (p.served l s) r params f first last := by
  unfold committed? served
  cases hs : p.serve l s with
  | mk outcome l' =>
    cases outcome with
    | committed receipt => exact .inr ⟨rfl, process_committed hs⟩
    | aborted stage e =>
      have hstore : l'.store = l.store :=
        process_aborted (l := l.submitNested s.instruction s.height s.callStack) hs
      exact .inl ⟨rfl, hstore⟩

theorem commit_of_committed? {l : Ledger} {s : Submission} {r : Route}
    (commits : p.committed? l s = some s.instruction)
    (found : p.route? (s.instruction.data.take 8) = some r) :
    ∃ params f first last, p.Commit l s.instruction (p.served l s) r params f first last := by
  rcases served_cases (p := p) l s with ⟨hnone, _⟩ | ⟨_, r', params, f, first, last, commit⟩
  · rw [hnone] at commits
    cases commits
  · obtain rfl : r' = r := commit.route_unique found
    exact ⟨params, f, first, last, commit⟩

/-- What commits with the data of a route is an invocation of it, with the parameters that the data
says. -/
theorem commit_of_data {l : Ledger} {s : Submission} {r : Route} {params : r.Params}
    (commits : p.committed? l s = some s.instruction)
    (found : p.route? r.layout.discriminator = some r) (written : s.instruction.data = r.data params) :
    ∃ f first last, p.Commit l s.instruction (p.served l s) r params f first last := by
  have kind : s.instruction.data.take 8 = r.layout.discriminator :=
    written ▸ List.take_left' r.layout.length_discriminator
  obtain ⟨params', f, first, last, commit⟩ := commit_of_committed? commits (kind ▸ found)
  obtain rfl : params = params' := commit.params_eq written
  exact ⟨f, first, last, commit⟩

/-- What every submission of a run preserves, of the ledger and of the instructions that have
committed, holds after the run. -/
theorem run_induction {P : List Instruction → Ledger → Prop} {run : List Submission}
    (step : ∀ past l, ∀ s ∈ run, P past l → P (past ++ (p.committed? l s).toList) (p.served l s))
    {past : List Instruction} {l : Ledger} (init : P past l) :
    P (past ++ p.committed l run) (run.foldl p.served l) := by
  induction run generalizing past l with
  | nil => simpa [committed] using init
  | cons s rest ih =>
    rw [committed, ← List.append_assoc, List.foldl_cons]
    exact ih (fun past l s' hs' => step past l s' (List.mem_cons_of_mem _ hs'))
      (step past l s (List.mem_cons_self ..) init)

/-- What every submission that commits preserves, of the store and of the instructions that have
committed, holds after a run. -/
theorem run_keeps {Q : List Instruction → Store → Prop} {run : List Submission} {l : Ledger}
    (step : ∀ past here, ∀ s ∈ run, here.natives = l.natives → Q past here.store →
      ∀ r params f first last, p.Commit here s.instruction (p.served here s) r params f first last →
        Q (past ++ [s.instruction]) (p.served here s).store)
    (init : Q [] l.store) :
    let last := run.foldl p.served l
    last.natives = l.natives ∧ Q (p.committed l run) last.store := by
  let P : List Instruction → Ledger → Prop := fun past here =>
    here.natives = l.natives ∧ Q past here.store
  have keeps : ∀ past here, ∀ s ∈ run, P past here →
      P (past ++ (p.committed? here s).toList) (p.served here s) := by
    intro past here s hs h
    obtain ⟨natives, kept⟩ := h
    refine ⟨(natives_served here s).trans natives, ?_⟩
    rcases served_cases (p := p) here s with
      ⟨hnone, hstore⟩ | ⟨hsome, r, params, f, first, last, commit⟩
    · rw [hnone, hstore, Option.toList_none, List.append_nil]
      exact kept
    · rw [hsome, Option.toList_some]
      exact step past here s hs natives kept r params f first last commit
  have h : P ([] ++ p.committed l run) (run.foldl p.served l) := run_induction keeps ⟨rfl, init⟩
  exact h

end Program

end AccountLedger
