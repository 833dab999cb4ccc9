import AccountLedger.Proofs.Escrow.Opening
import AccountLedger.Proofs.Token.Guarded
/-!
# No holding loses tokens without its owner

Whatever a program does in one invocation, and whatever it calls with whatever seeds, those that
speak in its calls are the signers of the instruction and the addresses that derive from the
program's own key.  So a holding of anyone else is guarded in every table of the run, and it is
still guarded in the ledger when the invocation commits.

* `Scene.Watched`: a holding stays guarded, and only those speak who may;
* `Watched.of_run`: that holds all through the run of any business logic;
* `loss_is_authorized`: a holding that has lost tokens belongs to one who may speak.
-/

namespace AccountLedger

open Logic (Returns)
open Token (Guarded Holding)

/-- Those who may speak while a program carries out an instruction: who signed it, and the
addresses of the program itself. -/
def Instruction.Speaks (i : Instruction) (program key : Key) : Prop :=
  i.Signed key ∨ Address.Derived program key

/-! ## calls that are carried out -/

theorem Op.run_called {σ : Type} {host : Host σ} {f : Frame} {scene : Scene σ} {op : Op}
    (call : op.calls = true) {answer : op.Answer} (h : (op.run host f scene).1 = .ok answer) :
    ∃ r, op.request? f scene.table = some r ∧ (host.reply scene.ledger r).result = .ok () ∧
      (op.run host f scene).2.table = InnerCall.adopt (InnerCall.writableKeys r.instruction)
        (host.reply scene.ledger r).accounts.toList scene.table := by
  have hboth : ∀ {result : Except (Stop Error) Table × σ} {u : Unit},
      (onBoth result scene).1 = .ok u →
        ∃ t', result.1 = .ok t' ∧ (onBoth result scene).2.table = t' := by
    intro result u hok
    obtain ⟨result, s⟩ := result
    cases result with
    | error stop => cases hok
    | ok t' => exact ⟨t', rfl, rfl⟩
  cases op with
  | invoke target refs seeds data =>
    obtain ⟨t', hinvoke, htable⟩ := hboth h
    obtain ⟨r, hr, hresult, _, hadopt⟩ := InnerCall.invoke_ok hinvoke
    refine ⟨r, ?_, hresult, htable.trans hadopt⟩
    rw [request?, hr]
    rfl
  | invokeInstruction i seeds =>
    obtain ⟨t', hinvoke, htable⟩ := hboth h
    unfold InnerCall.invokeInstruction at hinvoke
    cases hi : InnerCall.refsOf scene.table i.metas with
    | error e =>
      rw [hi] at hinvoke
      cases hinvoke
    | ok refs =>
      rw [hi] at hinvoke
      obtain ⟨r, hr, hresult, _, hadopt⟩ := InnerCall.invoke_ok hinvoke
      refine ⟨r, ?_, hresult, htable.trans hadopt⟩
      simp only [request?, hi, hr]
      rfl
  | _ => cases call

/-- Whoever signs in a request holds a signer mark or is derived from the program's key. -/
theorem Op.speaks_of_request {f : Frame} {t : Table} {op : Op} {r : Request} {P : Key → Prop}
    (asked : op.request? f t = some r) (marked : ∀ h ∈ t.handles, h.signer = true → P h.key)
    (derived : ∀ key, Address.Derived f.program key → P key) : ∀ key ∈ r.signers, P key := by
  obtain ⟨target, refs, data, hr⟩ := Op.request_of_request? asked
  obtain ⟨⟨keys, cleared⟩, rfl⟩ := InnerCall.request_eq_ok_iff.1 hr
  intro key hkey
  simp only [InnerCall.requestOf, mem_distinctBy_id, List.mem_map, List.mem_filter] at hkey
  obtain ⟨x, ⟨hx, hsigner⟩, rfl⟩ := hkey
  rcases cleared.voiced hx hsigner with ⟨hmem, hmark | ⟨seeds, _, hseeds⟩⟩
  · exact marked x.2 hmem hmark
  · exact derived x.2.key ⟨seeds.seeds, seeds.bump, hseeds⟩

/-- The accounts of a request are those of the table. -/
theorem Op.shown_of_request {f : Frame} {t : Table} {op : Op} {r : Request}
    (asked : op.request? f t = some r) : ∀ a ∈ r.accounts, ∃ h ∈ t.handles, h.account = a := by
  obtain ⟨target, refs, data, hr⟩ := Op.request_of_request? asked
  obtain ⟨_, rfl⟩ := InnerCall.request_eq_ok_iff.1 hr
  intro a ha
  obtain ⟨x, hx, rfl⟩ := List.mem_map.1 (mem_of_mem_distinctBy ha)
  exact ⟨x.2, List.mem_of_getElem? (InnerCall.mem_referred.1 hx).2, rfl⟩

namespace Ledger

/-- the ledger runs the System Program and the token programs, and no others -/
def RunsTokens (l : Ledger) : Prop :=
  ∀ key program, l.natives key = some program →
    (key = Token.program ∧ program = Token.native) ∨
      (key = Token.Associated.program ∧ program = Token.Associated.native)

theorem natives_register (l : Ledger) (key : Key) (program : Native) (k : Key) :
    (l.register key program).natives k = if k = key then some program else l.natives k := rfl

theorem RunsTokens.withTokens {l : Ledger} (known : l.RunsTokens) : l.withTokens.RunsTokens := by
  intro key program loaded
  simp only [Ledger.withTokens, natives_register] at loaded
  split at loaded
  · rename_i h
    exact .inr ⟨h, (Option.some.inj loaded).symm⟩
  · split at loaded
    · rename_i h
      exact .inl ⟨h, (Option.some.inj loaded).symm⟩
    · exact known key program loaded

theorem RunsTokens.start : start.RunsTokens := fun _ _ loaded => nomatch loaded

theorem RunsTokens.guards {l : Ledger} (known : l.RunsTokens) {key : Key} {program : Native}
    (loaded : l.native? key = some program) : program.Guards := by
  unfold native? at loaded
  split at loaded
  · cases loaded
    exact SystemProgram.native_guards
  · rcases known key program loaded with ⟨_, rfl⟩ | ⟨_, rfl⟩
    · exact Token.native_guards
    · exact Token.Associated.native_guards

theorem execute_ok {l : Ledger} {i : Instruction} {n : Nat} {accounts : Slots n}
    {signers : List Key} (h : (l.execute i accounts signers).result = .ok ()) :
    ∃ program, l.native? i.program = some program ∧
      program l.calls i accounts signers = .done (l.execute i accounts signers).accounts := by
  unfold execute at h ⊢
  cases hn : l.native? i.program with
  | none =>
    rw [hn] at h
    cases h
  | some program =>
    rw [hn] at h
    dsimp only at h ⊢
    obtain ⟨hok, _⟩ := balanced_eq_ok_iff.1 h
    rw [accounts_balanced]
    exact ⟨program, rfl, Reply.result_eq_ok_iff.1 hok⟩

end Ledger

/-! ## what an operation leaves guarded -/

section

variable {owner key : Key} {least : Nat} {f : Frame} {t : Table} {op : Op}

/-- An operation that is no call leaves a holding guarded, if the program is not the token
program. -/
theorem Handle.Changed.guarded {result : Except (Stop Error) Unit} {h h' : Handle}
    (change : h.Changed f t op result h') (own : op.calls = false)
    (foreign : t.program ≠ Token.program) (guarded : Guarded owner least h.account) :
    Guarded owner least h'.account := by
  cases change with
  | same => exact guarded
  | lamports set =>
    obtain ⟨_, _, _, rfl⟩ := setLamports_eq_ok_iff.1 set
    exact guarded.of_same rfl rfl
  | save saved =>
    obtain ⟨_, _, howner, _⟩ := save_eq_ok_iff.1 saved
    exact absurd (howner.symm.trans guarded.claimed) foreign
  | paid may =>
    rw [Table.account_moveLamports]
    exact guarded.of_same rfl rfl
  | allocated may => exact absurd guarded (Guarded.not_of_vacant may.vacant)
  | half may => exact absurd guarded (Guarded.not_of_vacant may.vacant)
  | adopted asked within =>
    cases op with
    | invoke | invokeInstruction => cases own
    | _ => cases asked

/-- What a native program gives back is guarded under a key if the table had it guarded. -/
theorem Op.guarded_of_reply {l : Ledger} (known : l.RunsTokens) (some_left : 0 < least)
    {r : Request} (asked : op.request? f t = some r) (unsigned : owner ∉ r.signers)
    (guarded : ∀ h ∈ t.handles, h.key = key → Guarded owner least h.account)
    (done : (Ledger.host.reply l r).result = .ok ()) :
    ∀ a ∈ (Ledger.host.reply l r).accounts.toList, a.key = key → Guarded owner least a := by
  intro a ha hk
  obtain ⟨program, hloaded, hreply⟩ := Ledger.execute_ok done
  have keeps := (known.guards hloaded) _ _ _ _ _ owner least some_left unsigned hreply
  obtain ⟨p, hp, rfl⟩ := List.getElem_of_mem ha
  rw [Vector.length_toList] at hp
  rw [Vector.getElem_toList] at hk ⊢
  obtain ⟨hkey, hguards⟩ := keeps ⟨p, hp⟩
  have hbefore : r.accounts.toArray.toVector.get ⟨p, hp⟩ ∈ r.accounts := List.getElem_mem _
  obtain ⟨h, hh, hh'⟩ := Op.shown_of_request asked _ hbefore
  apply hguards
  rw [← hh']
  refine guarded h hh ?_
  show h.account.key = key
  rw [hh', ← hkey]
  exact hk

theorem Table.guarded_adopt {writable : List Key} {after : List Account}
    (given : ∀ a ∈ after, a.key = key → Guarded owner least a)
    (guarded : ∀ h ∈ t.handles, h.key = key → Guarded owner least h.account) :
    ∀ h ∈ (InnerCall.adopt writable after t).handles, h.key = key →
      Guarded owner least h.account := by
  intro h' hh' hk
  rw [InnerCall.adopt, InnerCall.foldl_adoptOne] at hh'
  obtain ⟨h, hh, rfl⟩ := List.mem_map.1 hh'
  refine Handle.adoptAll_induction (P := fun g => g.key = key → Guarded owner least g.account) _
    ?_ (guarded h hh) hk
  intro g a ha hsame _ hgk
  exact (given a (List.mem_filter.1 ha).1 (hsame.symm.trans hgk)).of_same rfl rfl

end

/-! ## runs -/

/-- A scene in which a holding is guarded, and where only those speak of whom `speaks` holds. -/
structure Scene.Watched (l : Ledger) (program key owner : Key) (least : Nat) (speaks : Key → Prop)
    (scene : Scene Ledger) : Prop where
  natives : scene.ledger.natives = l.natives
  program : scene.table.program = program
  marked : ∀ h ∈ scene.table.handles, h.signer = true → speaks h.key
  guarded : ∀ h ∈ scene.table.handles, h.key = key → Guarded owner least h.account

namespace Scene.Watched

variable {l : Ledger} {program key owner : Key} {least : Nat} {speaks : Key → Prop} {f : Frame}
  {scene : Scene Ledger}

theorem of_op (known : l.RunsTokens) (foreign : program ≠ Token.program)
    (frame : f.program = program) (derived : ∀ key, Address.Derived program key → speaks key)
    (silent : ¬ speaks owner) (some_left : 0 < least) (op : Op)
    (watched : scene.Watched l program key owner least speaks) :
    (op.run Ledger.host f scene).2.Watched l program key owner least speaks := by
  have step := op.run_step Ledger.host f scene
  have natives : (op.run Ledger.host f scene).2.ledger.natives = l.natives := by
    rw [Op.run_ledger, ← watched.natives]
    split <;> rfl
  refine ⟨natives, step.program_eq.trans watched.program, ?_, ?_⟩
  · intro h' hh' hs
    obtain ⟨position, here'⟩ := List.getElem?_of_mem hh'
    obtain ⟨h, here, change⟩ := step.changed here'
    rw [change.fixed.1]
    rcases change.signer hs with hmark | ⟨_, _, _, _, _, seeds, _, _, hderive⟩
    · exact watched.marked h (List.mem_of_getElem? here) hmark
    · rw [watched.program] at hderive
      exact derived h.key ⟨seeds.seeds, seeds.bump, hderive⟩
  · by_cases call : op.calls = true
    · cases hr : (op.run Ledger.host f scene).1 with
      | error stop =>
        rw [Op.table_of_void Ledger.host f scene call hr]
        exact watched.guarded
      | ok answer =>
        obtain ⟨r, asked, done, htable⟩ := Op.run_called call hr
        have unsigned : owner ∉ r.signers := fun hmem => silent
          (Op.speaks_of_request asked watched.marked (frame ▸ derived) owner hmem)
        have known' : scene.ledger.RunsTokens := fun key native loaded =>
          known key native (watched.natives ▸ loaded)
        rw [htable]
        exact Table.guarded_adopt
          (Op.guarded_of_reply known' some_left asked unsigned watched.guarded done) watched.guarded
    · intro h' hh' hk
      obtain ⟨position, here'⟩ := List.getElem?_of_mem hh'
      obtain ⟨h, here, change⟩ := step.changed here'
      exact change.guarded (Bool.not_eq_true _ ▸ call) (watched.program ▸ foreign)
        (watched.guarded h (List.mem_of_getElem? here) (change.fixed.1 ▸ hk))

theorem of_run (known : l.RunsTokens) (foreign : program ≠ Token.program)
    (frame : f.program = program) (derived : ∀ key, Address.Derived program key → speaks key)
    (silent : ¬ speaks owner) (some_left : 0 < least) {α : Type} (m : Logic α)
    (watched : scene.Watched l program key owner least speaks) :
    (m.run Ledger.host f scene).2.Watched l program key owner least speaks :=
  Logic.run_induction (P := fun scene => scene.Watched l program key owner least speaks) Ledger.host f
    (fun op _ watched => watched.of_op known foreign frame derived silent some_left op) m scene watched

end Scene.Watched

namespace Program

variable {p : Program} {l l' : Ledger} {i : Instruction} {key : Key}

/-- An invocation that commits leaves a holding guarded whose owner may not speak. -/
theorem Commit.guarded {r : Route} {params : r.Params} {f : Frame} {first last : Scene Ledger}
    (commit : p.Commit l i l' r params f first last) (known : l.RunsTokens)
    (foreign : p.key ≠ Token.program) {owner : Key} {least : Nat}
    (silent : ¬ i.Speaks p.key owner) (some_left : 0 < least)
    (guarded : Guarded owner least (l.store.read key)) :
    Guarded owner least (l'.store.read key) := by
  have watched : first.Watched l p.key key owner least (i.Speaks p.key) := by
    refine ⟨commit.drafts.natives, commit.table, fun h hh hs => .inl (commit.drafts.marked h hh hs), ?_⟩
    · rintro h hh rfl
      rw [commit.shown h hh]
      exact guarded
  have hrun : ((r.process params).run Ledger.host f first).2 = last := congrArg (·.2) commit.returns
  have after := watched.of_run known foreign commit.frame (fun _ => .inr) silent some_left
    (r.process params)
  rw [hrun] at after
  by_cases hd : ∃ h ∈ last.table.handles, h.isDirty = true ∧ h.key = key
  · obtain ⟨h, hh, hd, rfl⟩ := hd
    rw [← commit.left.touched h hh hd]
    exact after.guarded h hh rfl
  · rw [commit.left.beyond key fun h hh hhd hk => hd ⟨h, hh, hhd, hk⟩]
    exact guarded

/-- A holding loses tokens in an invocation only if its owner signed the instruction or is an
address of the program that runs. -/
theorem loss_is_authorized (foreign : p.key ≠ Token.program) (known : l.RunsTokens)
    {s : Submission} {receipt : Receipt} (commits : p.serve l s = (.committed receipt, l'))
    (claimed : (l.store.read key).owner = Token.program) {held : Holding}
    (here : Holding.unpack (l.store.read key).data = .ok held)
    (lost : Token.tokens l'.store key < held.amount.toNat) :
    s.instruction.Speaks p.key held.owner := by
  apply Classical.byContradiction
  intro silent
  obtain ⟨r, params, f, first, last, commit⟩ := process_committed commits
  have guarded : Guarded held.owner held.amount.toNat (l.store.read key) :=
    ⟨claimed, held, here, rfl, Nat.le_refl _⟩
  obtain ⟨_, after, hafter, _, hle⟩ := commit.guarded known foreign silent
    (Nat.zero_lt_of_lt lost) guarded
  rw [Token.tokens_of_unpack hafter] at lost
  omega

end Program

/-- The deposit of an escrow is taken from a holding of the initializer, who has signed. -/
theorem Escrow.deposit_authorized :
    Token.tokens (program.serve market opening).2.store earlier.deposit = 0 ∧
      opening.instruction.Speaks key earlier.initializer := by
  have known : market.RunsTokens := Ledger.RunsTokens.start.withTokens
  have run : (program.serve market opening).1 = .committed ⟨[0, 2, 3, 5], 4, 4⟩ ∧
      Token.tokens (program.serve market opening).2.store earlier.deposit = 0 := by
    decide +kernel
  obtain ⟨commits, lost⟩ := run
  have claimed : (market.store.read earlier.deposit).owner = Token.program := by decide +kernel
  have here : Holding.unpack (market.store.read earlier.deposit).data =
      .ok (Holding.opened earlier.mint earlier.initializer 10 []) :=
    Holding.unpack_eq_ok_iff.2 ⟨by decide +kernel, by decide⟩
  exact ⟨lost, Program.loss_is_authorized (by decide +kernel) known (eq_mk_of_fst_eq commits) claimed
    here (by rw [lost]; decide)⟩

end AccountLedger
