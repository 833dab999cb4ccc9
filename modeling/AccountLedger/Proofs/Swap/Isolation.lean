import AccountLedger.Proofs.Swap.Turns
import AccountLedger.Token.Fixture
/-!
# Isolation of pools

The vaults of a pool are made when it is created, so no other record names them while they are
there.  But a pool that is closed leaves its record behind, and its vaults may be made again for
another pool.  So pools are isolated as far as their vaults have not been closed.

* `Isolated`: what a run keeps between the instructions that committed and the store;
* `run_isolation`: a vault that has not been closed has one record, and loses tokens to no other.
-/

namespace AccountLedger.Swap

open Token (tokens)

/-- none of the instructions closed the vault -/
def Unclosed (past : List Instruction) (v : Key) : Prop := ∀ i ∈ past, v ∉ closed i

instance (past : List Instruction) (v : Key) : Decidable (Unclosed past v) :=
  inferInstanceAs (Decidable (∀ i ∈ past, v ∉ closed i))

/-- what a run keeps between the instructions that committed and the store -/
structure Isolated (past : List Instruction) (s : Store) : Prop where
  kept : ∀ record p, pool? s record = some p → ∀ v ∈ p.vaults, Unclosed past v → Kept (s.read v)
  unique : ∀ record p, pool? s record = some p → ∀ record' p', pool? s record' = some p' →
    ∀ v ∈ p.vaults, v ∈ p'.vaults → Unclosed past v → record' = record

variable {past : List Instruction} {s s' : Store} {i : Instruction} {record : Key} {p : Pool} {v : Key}

theorem Unclosed.front (h : Unclosed (past ++ [i]) v) : Unclosed past v := fun j hj =>
  h j (List.mem_append_left _ hj)

theorem Unclosed.last (h : Unclosed (past ++ [i]) v) : v ∉ closed i :=
  h i (List.mem_append_right _ (List.mem_singleton_self i))

namespace Isolated

theorem start (unclaimed : ∀ k, pool? s k = none) : Isolated past s where
  kept record p h := absurd h (by simp [unclaimed])
  unique record p h := absurd h (by simp [unclaimed])

theorem later (isolated : Isolated past s) : Isolated (past ++ [i]) s where
  kept r q hq v hv unclosed := isolated.kept r q hq v hv unclosed.front
  unique r q hq r' q' hq' v hv hv' unclosed :=
    isolated.unique r q hq r' q' hq' v hv hv' unclosed.front

/-- The vaults of a new pool were not kept before, so no other record names them. -/
theorem of_created (isolated : Isolated past s) (creates : Creates record p s s') :
    Isolated past s' := by
  -- a vault that an older record names has been kept since, so it cannot have been made just now
  have apart : ∀ r q, pool? s r = some q → ∀ v ∈ p.vaults, v ∈ q.vaults → ¬ Unclosed past v :=
    fun r q hq v hv hv' unclosed => creates.fresh v hv (isolated.kept r q hq v hv' unclosed)
  refine ⟨?_, ?_⟩
  · intro r q hq v hv unclosed
    obtain ⟨rfl, rfl⟩ | ⟨-, hq⟩ := creates.pool hq
    · exact creates.kept v hv
    · exact creates.spares.kept List.not_mem_nil (isolated.kept r q hq v hv unclosed)
  · intro r q hq r' q' hq' v hv hv' unclosed
    obtain ⟨rfl, rfl⟩ | ⟨-, hq⟩ := creates.pool hq <;>
    obtain ⟨rfl, rfl⟩ | ⟨-, hq'⟩ := creates.pool hq'
    · rfl
    · exact absurd unclosed (apart r' q' hq' v hv hv')
    · exact absurd unclosed (apart r q hq v hv' hv)
    · exact isolated.unique r q hq r' q' hq' v hv hv' unclosed

theorem of_used {spent shut : List Key} (isolated : Isolated past s) (closes : shut ⊆ closed i)
    (spares : Spares spent shut [] s s') : Isolated (past ++ [i]) s' := by
  have old : ∀ r q, pool? s' r = some q → pool? s r = some q := fun r q h =>
    spares.pool List.not_mem_nil h
  refine ⟨?_, ?_⟩
  · intro r q hq v hv unclosed
    have hshut : v ∉ shut := fun h => unclosed.last (closes h)
    exact spares.kept hshut (isolated.kept r q (old r q hq) v hv unclosed.front)
  · intro r q hq r' q' hq' v hv hv' unclosed
    exact isolated.unique r q (old r q hq) r' q' (old r' q' hq') v hv hv' unclosed.front

theorem of_turn (isolated : Isolated past s) (turn : Turn i s s') : Isolated (past ++ [i]) s' := by
  cases turn with
  | created record p named creates => exact (isolated.of_created creates).later
  | used record p shut named here own closes spares => exact isolated.of_used closes spares

/-- An instruction that is executed with another record takes nothing from a vault. -/
theorem tokens_le (isolated : Isolated past s) (turn : Turn i s s')
    (here : pool? s record = some p) (hv : v ∈ p.vaults) (unclosed : Unclosed past v)
    (other : recordOf? i ≠ some record) : tokens s v ≤ tokens s' v := by
  have kept := isolated.kept record p here v hv unclosed
  cases turn with
  | created made q named creates =>
    exact creates.spares.tokens_le List.not_mem_nil List.not_mem_nil kept
  | used used q shut named there own closes spares =>
    -- a record that may spend from the vault names it, and only this one does
    have hspent : v ∉ q.vaults := by
      intro hv'
      have hsame := isolated.unique record p here used q there v hv hv' unclosed
      exact other (named.trans (congrArg some hsame))
    exact spares.tokens_le (fun h => hspent (own h)) hspent kept

end Isolated

/-! ## runs -/

theorem isolated_run {l : Ledger} {run : List Submission}
    (tokens : l.natives Token.program = some Token.native)
    (associated : l.natives Token.Associated.program = some Token.Associated.native)
    (unsigned : ∀ s ∈ run, s.instruction.Unsigned authority)
    (unclaimed : ∀ k, pool? l.store k = none) :
    let last := run.foldl program.served l
    last.natives = l.natives ∧ Isolated (program.committed l run) last.store := by
  refine Program.run_keeps ?_ (Isolated.start unclaimed)
  intro past here s hs natives isolated r params f first last commit
  exact isolated.of_turn
    (turn_of_commit commit (natives ▸ tokens) (natives ▸ associated) (unsigned s hs))

/-- As long as a vault of a pool has not been closed, no other record names it, and no instruction
that is executed with another record takes tokens from it.  Once it has been closed, a new pool may
name it, and then the old record and the new one both do. -/
theorem run_isolation (l : Ledger) (before : List Submission) (now : Submission)
    (installed : l.natives Token.program = some Token.native)
    (associated : l.natives Token.Associated.program = some Token.Associated.native)
    (unclaimed : ∀ k, pool? l.store k = none)
    (unsigned : ∀ s ∈ before ++ [now], s.instruction.Unsigned authority) :
    let here := before.foldl program.served l
    let past := program.committed l before
    let next := program.served here now
    ∀ record p, pool? here.store record = some p → ∀ v ∈ p.vaults, Unclosed past v →
      (∀ record' p', pool? here.store record' = some p' → v ∈ p'.vaults → record' = record) ∧
        (recordOf? now.instruction ≠ some record → tokens here.store v ≤ tokens next.store v) := by
  intro here past next record p hp v hv unclosed
  obtain ⟨natives, isolated⟩ := isolated_run installed associated
    (fun s (hs : s ∈ before) => unsigned s (List.mem_append_left _ hs)) unclaimed
  refine ⟨fun record' p' hp' hv' => isolated.unique record p hp record' p' hp' v hv hv' unclosed, ?_⟩
  intro other
  rcases Program.served_cases (p := program) here now with
    ⟨_, hstore⟩ | ⟨_, r, params, f, first, last, commit⟩
  · have hsame : tokens next.store v = tokens here.store v := congrArg (tokens · v) hstore
    exact Nat.le_of_eq hsame.symm
  · have hunsigned := unsigned now (List.mem_append_right _ (List.mem_singleton_self _))
    have turn := turn_of_commit commit (natives ▸ installed) (natives ▸ associated) hunsigned
    exact isolated.tokens_le turn hp hv unclosed other

/-! ## two pools of one creator -/

def Pool.creation (p : Pool) (record : Key) : Submission where
  instruction :=
    { program := key
      metas := [⟨p.creator, true, true⟩, ⟨p.mintA, false, false⟩, ⟨p.mintB, false, false⟩,
        ⟨p.liquidityMint, false, true⟩, ⟨p.vaultA, true, true⟩, ⟨p.vaultB, true, true⟩,
        ⟨record, true, true⟩, ⟨.system, false, false⟩, ⟨Token.program, false, false⟩]
      data := createRoute.data () }
  height := 1
  callStack := []

def Pool.closing (p : Pool) (record : Key) : Submission where
  instruction :=
    { program := key
      metas := [⟨p.creator, true, true⟩, ⟨p.vaultA, false, true⟩, ⟨p.vaultB, false, true⟩,
        ⟨authority, false, false⟩, ⟨record, false, false⟩, ⟨Token.program, false, false⟩]
      data := closeRoute.data (255 : UInt8) }
  height := 1
  callStack := []

/-- a ledger on which a creator may open two pools for two mints -/
def fair : Ledger :=
  let unset : Token.Clearable Key := ⟨false, .ofNat 0⟩
  let mint (authority : Token.Clearable Key) : Token.Mint := ⟨authority, 0, 0, true, unset⟩
  let ofTokens (key : Nat) (m : Token.Mint) : Account :=
    { key := .ofNat key, lamports := 10000000, data := m.pack, owner := Token.program }
  let creator : Account := { key := .ofNat 1, lamports := 1000000000 }
  [creator, ofTokens 2 (mint unset), ofTokens 3 (mint unset), ofTokens 4 (mint ⟨true, .ofNat 1⟩),
    ofTokens 5 (mint ⟨true, .ofNat 1⟩)].foldl Ledger.addAccount Ledger.start.withTokens

def earlier : Pool := ⟨.ofNat 1, .ofNat 2, .ofNat 3, .ofNat 6, .ofNat 7, .ofNat 4⟩

/-- a pool with the vaults of the earlier one -/
def later : Pool := { earlier with liquidityMint := .ofNat 5 }

/-- a pool with vaults of its own -/
def other : Pool := { later with vaultA := .ofNat 10, vaultB := .ofNat 11 }

def openings : List Submission := [earlier.creation (.ofNat 8), other.creation (.ofNat 9)]

/-- While the earlier pool is open, its vault is its own, and the closing of the other pool takes
nothing from it. -/
theorem isolated_while_open :
    let here := openings.foldl program.served fair
    let next := program.served here (other.closing (.ofNat 9))
    (∀ record' p', pool? here.store record' = some p' → earlier.vaultA ∈ p'.vaults →
      record' = .ofNat 8) ∧
      tokens here.store earlier.vaultA ≤ tokens next.store earlier.vaultA := by
  have unclaimed : ∀ k, pool? fair.store k = none := fun k =>
    if_neg (Store.owner_read_ne (by decide) (by decide +kernel) k)
  have h := run_isolation fair openings (other.closing (.ofNat 9)) rfl rfl unclaimed
    (by decide +kernel)
  dsimp only at h
  have here : pool? (openings.foldl program.served fair).store (.ofNat 8) = some earlier ∧
      Unclosed (program.committed fair openings) earlier.vaultA := by
    decide +kernel
  obtain ⟨alone, spared⟩ := h (.ofNat 8) earlier here.1 earlier.vaultA (mem_vaultA earlier) here.2
  exact ⟨alone, spared (by decide +kernel)⟩

/-- The earlier pool is closed, and its vaults are made again for a later one. -/
theorem vaults_reused :
    let run := [earlier.creation (.ofNat 8), earlier.closing (.ofNat 8), later.creation (.ofNat 9)]
    let last := run.foldl program.served fair
    pool? last.store (.ofNat 8) = some earlier ∧ pool? last.store (.ofNat 9) = some later ∧
      earlier.vaultA ∈ later.vaults := by
  decide +kernel

end AccountLedger.Swap
