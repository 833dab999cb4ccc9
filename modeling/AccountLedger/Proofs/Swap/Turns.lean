import AccountLedger.Proofs.Swap.Actions
/-!
# What the instructions of the swap program spare

Each instruction is executed with one record, and takes from no other holdings of the vault
authority than the vaults that this record names.

* `Turn`: an instruction makes the record of a pool and its vaults, or uses one;
* `turn_of_commit`: every instruction that commits has done one of both.
-/

namespace AccountLedger.Swap

open Token (Holding)

variable {l l' : Ledger} {i : Instruction} {f : Frame} {first last : Scene Ledger} {s s' s'' : Store}
  {p : Pool} {record : Key}

/-! ## what the steps spare -/

theorem mem_vaultA (p : Pool) : p.vaultA ∈ p.vaults := by simp [Pool.vaults]

theorem mem_vaultB (p : Pool) : p.vaultB ∈ p.vaults := by simp [Pool.vaults]

/-- Who has signed is not the authority, unless the instruction has its signature. -/
theorem ne_of_signed {c other : Key} (signed : i.Signed c) (unsigned : i.Unsigned other) :
    c ≠ other := by
  obtain ⟨m, hm, hsigner, rfl⟩ := signed
  exact unsigned m hm hsigner

/-- what the creation of a pool does: the vaults on record are made, and kept from then on -/
structure Creates (record : Key) (p : Pool) (s s' : Store) : Prop where
  spares : Spares [] [] [record] s s'
  recorded : ∀ p', pool? s' record = some p' → p' = p
  fresh : ∀ v ∈ p.vaults, ¬ Kept (s.read v)
  kept : ∀ v ∈ p.vaults, Kept (s'.read v)

/-- A record is the new one, or it was there before. -/
theorem Creates.pool {r : Key} {q : Pool} (h : Creates record p s s') (hq : pool? s' r = some q) :
    (r = record ∧ q = p) ∨ (r ≠ record ∧ pool? s r = some q) := by
  by_cases hr : r = record
  · subst hr
    exact .inl ⟨rfl, h.recorded q hq⟩
  · exact .inr ⟨hr, h.spares.pool (by simpa using hr) hq⟩

theorem Creates.congr (same : ∀ k, s''.read k = s'.read k) (h : Creates record p s s') :
    Creates record p s s'' where
  spares := h.spares.congr same
  recorded p' hp' := h.recorded p' (by rwa [pool?, ← same])
  fresh := h.fresh
  kept v hv := (same v).symm ▸ h.kept v hv

/-- the vault of a mint, as it was made -/
def vaultOf (mint : Key) : Holding :=
  Holding.opened mint authority 0 (List.replicate Holding.size 0)

theorem stands_of_makes {payer v mint : Key} (h : Token.Makes s payer v mint authority s') :
    Token.Stands s' v (vaultOf mint) := by
  obtain ⟨_, rent, rfl⟩ := h
  refine .of_unpack ?_
  rw [Token.read_opened, if_pos rfl]
  exact Token.unpack_pack _ (by simp [Holding.opened])

theorem kept_of_stands {v mint : Key} (h : Token.Stands s v (vaultOf mint)) : Kept (s.read v) := by
  obtain ⟨_, here⟩ := h
  exact ⟨_, here, rfl⟩

/-- A vault that is made was not kept before. -/
theorem kept_of_makes {payer v mint : Key} (h : Token.Makes s payer v mint authority s') :
    ¬ Kept (s.read v) ∧ Kept (s'.read v) := by
  refine ⟨?_, kept_of_stands (stands_of_makes h)⟩
  rintro ⟨held, hheld, _⟩
  exact Token.not_holding_of_vacant h.1 held hheld

theorem pool?_recorded (s : Store) (p : Pool) (record : Key) (rent : Amount) :
    pool? ((s.made p.creator record rent (Record.space Pool) key).putData record p.image) record =
      some p := by
  rw [pool?, Store.read_filled, if_pos rfl, poolIn_eq_some_iff]
  exact ⟨rfl, Tag.decode_image _ _ _ _⟩

theorem Created.creates (h : Created record p s s') : Creates record p s s' := by
  obtain @⟨rent, nowA, nowB, vacant, -, -, makesA, makesB, hands⟩ := h
  have recorded : Spares [] [] [record] s
      ((s.made p.creator record rent (Record.space Pool) key).putData record p.image) :=
    spares_recorded vacant (List.mem_singleton_self _)
  have hpool := pool?_recorded s p record rent
  generalize (s.made p.creator record rent (Record.space Pool) key).putData record p.image = now at *
  have sparesA : Spares [] [] [] now nowA := spares_of_quiet makesA.fate
  have sparesB : Spares [] [] [] nowA nowB := spares_of_quiet makesB.fate
  have sparesC : Spares [] [] [] nowB s' := spares_of_quiet hands.fate
  -- nothing after the making of the record makes or unmakes a pool, or shuts a vault
  have since := (sparesA.trans sparesB).trans sparesC
  obtain ⟨freshA, keptA⟩ := kept_of_makes makesA
  obtain ⟨freshB, keptB⟩ := kept_of_makes makesB
  refine ⟨?_, ?_, ?_, ?_⟩
  · exact recorded.trans (since.mono (List.nil_subset _) (List.nil_subset _) (List.nil_subset _))
  · intro p' hp'
    exact Option.some.inj ((since.pool List.not_mem_nil hp').symm.trans hpool)
  · have hfresh : ∀ v, ¬ Kept (now.read v) → ¬ Kept (s.read v) := fun v hv h =>
      hv (recorded.kept List.not_mem_nil h)
    have hfreshB : ¬ Kept (now.read p.vaultB) := fun h => freshB (sparesA.kept List.not_mem_nil h)
    simpa [Pool.vaults] using And.intro (hfresh _ freshA) (hfresh _ hfreshB)
  · have hkeptA := (sparesB.trans sparesC).kept List.not_mem_nil keptA
    have hkeptB := sparesC.kept List.not_mem_nil keptB
    simpa [Pool.vaults] using And.intro hkeptA hkeptB

theorem Deposited.spares {d : Deposit} (unsigned : i.Unsigned authority)
    (h : Deposited i d p s s') : Spares p.vaults [] [] s s' := by
  obtain ⟨signed, _, _, _, _, sets, paysA, paysB, mints⟩ := h
  have hne := ne_of_signed signed unsigned
  exact (((spares_of_quiet sets.fate).trans (spares_transferred paysA (.inr hne))).trans
    (spares_transferred paysB (.inr hne))).trans (spares_of_quiet mints.fate)

/-- The trader signs the first transfer himself, and the second one comes out of the pool's vault. -/
theorem Traded.spares {t : Trade} (unsigned : i.Unsigned authority)
    (h : Traded i t p s s') : Spares p.vaults [] [] s s' := by
  obtain ⟨signed, _, _, _, _, _, pays, yields⟩ := h
  exact (spares_transferred pays (.inr (ne_of_signed signed unsigned))).trans
    (spares_transferred yields (.inl (mem_vaultB p)))

theorem Withdrawn.spares {w : Withdrawal} (unsigned : i.Unsigned authority)
    (h : Withdrawn i w p s s') : Spares p.vaults [] [] s s' := by
  obtain ⟨signed, _, _, _, _, _, _, drawsA, drawsB, burns⟩ := h
  exact ((spares_transferred drawsA (.inl (mem_vaultA p))).trans
    (spares_transferred drawsB (.inl (mem_vaultB p)))).trans
      (spares_burnt burns (ne_of_signed signed unsigned))

theorem Shut.spares (h : Shut i p s s') : Spares [] p.vaults [] s s' := by
  obtain ⟨_, _, closesA, closesB⟩ := h
  exact (spares_closed closesA (mem_vaultA p)).trans (spares_closed closesB (mem_vaultB p))

/-! ## what commits -/

/-- the record that an instruction is executed with -/
def recordOf? (i : Instruction) : Option Key :=
  (program.route? (i.data.take 8)).bind fun r => r.layout.keyOf? i "pool_info"

/-- the vaults that an instruction closes if it commits -/
def closed (i : Instruction) : List Key :=
  match program.route? (i.data.take 8) with
  | none => []
  | some r =>
    if r.layout = closeLayout then
      (closeLayout.keyOf? i "token_a_vault").toList ++ (closeLayout.keyOf? i "token_b_vault").toList
    else []

/-- what an instruction that commits does to the pools -/
inductive Turn (i : Instruction) (s s' : Store) : Prop where
  | created (record : Key) (p : Pool) (named : recordOf? i = some record)
      (creates : Creates record p s s')
  | used (record : Key) (p : Pool) (shut : List Key) (named : recordOf? i = some record)
      (here : pool? s record = some p) (own : shut ⊆ p.vaults) (closes : shut ⊆ closed i)
      (spares : Spares p.vaults shut [] s s')

section

variable {r : Route} {params : r.Params}

theorem recordOf?_eq (commit : program.Commit l i l' r params f first last) :
    recordOf? i = r.layout.keyOf? i "pool_info" := by
  rw [recordOf?, commit.route, Option.bind_some]

/-- The record that an instruction names holds a pool of the program. -/
theorem pool?_of_names {position : Nat} {spec : Spec} {tag : Tag}
    (commit : program.Commit l i l' r params f first last) (names : Names r.layout i l.store p)
    (named : r.layout.position? "pool_info" = some position)
    (asked : r.layout.specs[position]? = some spec) (bound : spec.data = some (.existing tag)) :
    ∃ record, recordOf? i = some record ∧ pool? l.store record = some p := by
  obtain ⟨record, hrecord, hpool⟩ := names
  obtain ⟨m, _, hkey, met⟩ := commit.met_named "pool_info" named asked hrecord
  have howner : (l.store.read record).owner = key := hkey ▸ (met.record tag bound).1
  exact ⟨record, (recordOf?_eq commit).trans hrecord, poolIn_eq_some_iff.2 ⟨howner, hpool⟩⟩

theorem used_of_names {position : Nat} {spec : Spec} {tag : Tag} {shut : List Key}
    (commit : program.Commit l i l' r params f first last)
    {now : Store} (drafts : last.Drafts l r.layout i now) (names : Names r.layout i l.store p)
    (spares : Spares p.vaults shut [] l.store now) (own : shut ⊆ p.vaults)
    (closes : shut ⊆ closed i) (named : r.layout.position? "pool_info" = some position)
    (asked : r.layout.specs[position]? = some spec) (bound : spec.data = some (.existing tag)) :
    Turn i l.store l'.store := by
  obtain ⟨record, hrecord, hpool⟩ := pool?_of_names commit names named asked bound
  exact .used record p shut hrecord hpool own closes
    (spares.congr (commit.settled now drafts.mirrors))

theorem turn_of_create (commit : program.Commit l i l' createRoute () f first last)
    (tokens : l.natives Token.program = some Token.native) : Turn i l.store l'.store := by
  obtain ⟨record, p, now, hrecord, _, created, drafts⟩ := created_of_returns commit.drafts commit.shown
    commit.clean commit.frame tokens commit.returns
  exact .created record p ((recordOf?_eq commit).trans hrecord)
    (created.creates.congr (commit.settled now drafts.mirrors))

theorem turn_of_deposit {d : Deposit} (commit : program.Commit l i l' depositRoute d f first last)
    (tokens : l.natives Token.program = some Token.native)
    (associated : l.natives Token.Associated.program = some Token.Associated.native)
    (unsigned : i.Unsigned authority) : Turn i l.store l'.store := by
  obtain ⟨p, now, names, deposited, drafts⟩ :=
    deposited_of_returns commit.drafts commit.shown tokens associated commit.returns
  exact used_of_names commit drafts names (deposited.spares unsigned) (List.nil_subset _) (List.nil_subset _) rfl rfl rfl

theorem turn_of_trade {t : Trade} (commit : program.Commit l i l' tradeRoute t f first last)
    (tokens : l.natives Token.program = some Token.native)
    (unsigned : i.Unsigned authority) : Turn i l.store l'.store := by
  obtain ⟨p, now, names, traded, drafts⟩ :=
    traded_of_returns commit.drafts commit.shown commit.frame tokens commit.returns
  exact used_of_names commit drafts names (traded.spares unsigned) (List.nil_subset _) (List.nil_subset _) rfl rfl rfl

theorem turn_of_withdraw {w : Withdrawal}
    (commit : program.Commit l i l' withdrawRoute w f first last)
    (tokens : l.natives Token.program = some Token.native)
    (unsigned : i.Unsigned authority) : Turn i l.store l'.store := by
  obtain ⟨p, now, names, withdrawn, drafts⟩ :=
    withdrawn_of_returns commit.drafts commit.shown commit.frame tokens commit.returns
  exact used_of_names commit drafts names (withdrawn.spares unsigned) (List.nil_subset _) (List.nil_subset _) rfl rfl rfl

theorem turn_of_close {bump : UInt8} (commit : program.Commit l i l' closeRoute bump f first last)
    (tokens : l.natives Token.program = some Token.native) : Turn i l.store l'.store := by
  obtain ⟨p, now, names, hvaultA, hvaultB, shut, drafts⟩ :=
    shut_of_returns commit.drafts commit.shown commit.frame tokens commit.returns
  have closes : closed i = p.vaults := by
    rw [closed, commit.route]
    simp [closeRoute, hvaultA, hvaultB, Pool.vaults]
  have spares : Spares p.vaults p.vaults [] l.store now :=
    shut.spares.mono (List.nil_subset _) (List.Subset.refl _) (List.Subset.refl _)
  exact used_of_names commit drafts names spares (List.Subset.refl _)
    (closes ▸ List.Subset.refl _) rfl rfl rfl

theorem turn_of_commit (commit : program.Commit l i l' r params f first last)
    (tokens : l.natives Token.program = some Token.native)
    (associated : l.natives Token.Associated.program = some Token.Associated.native)
    (unsigned : i.Unsigned authority) : Turn i l.store l'.store := by
  have hmem := List.mem_of_find?_eq_some commit.route
  simp only [program, List.mem_cons, List.not_mem_nil, or_false] at hmem
  rcases hmem with rfl | rfl | rfl | rfl | rfl
  · exact turn_of_create commit tokens
  · exact turn_of_deposit commit tokens associated unsigned
  · exact turn_of_trade commit tokens unsigned
  · exact turn_of_withdraw commit tokens unsigned
  · exact turn_of_close commit tokens

end

end AccountLedger.Swap
