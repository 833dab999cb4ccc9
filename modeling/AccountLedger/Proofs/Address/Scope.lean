import AccountLedger.Proofs.Address.Canonical
import AccountLedger.Proofs.Escrow.Opening
/-!
# An address belongs to one program

What is hashed into an address is the key of the program, the seeds one after another, the bump and
a marker, with nothing between them.  The key and the bump have fixed places at the two ends, so
they can be read back, and so can the bytes of all seeds together; only where one seed ends and the
next begins is lost.  As long as the hash does not collide, an address is therefore that of one
program, whose seeds nobody else can present.

* `preimage_inj`: what the hashed input determines;
* `create_eq_ok_iff_same`: which derivations give the same address;
* `derivation_scoped`: one program's address is never another's, in verification and in inner calls.
-/

namespace AccountLedger

/-- two messages have one hash only if they are one message -/
def Sha256.Separates (x y : Bytes) : Prop := digest x = digest y → x = y

/-- some reference asks the account of the key to sign at a position that has not signed -/
def Table.AsksUnsigned (t : Table) (refs : List Ref) (key : Key) : Prop :=
  ∃ r ∈ refs, r.signer = true ∧
    ∃ h, t.handles[r.position]? = some h ∧ h.key = key ∧ h.signer = false

/-- A call is void if a position that has not signed is to sign and no seeds speak for its key. -/
theorem InnerCall.invoke_void_of_unspoken {f : Frame} {t : Table} {refs : List Ref}
    {given : List SignerSeeds} {key : Key} (unspoken : ∀ s ∈ given, s.derive f.program ≠ .ok key)
    (asked : t.AsksUnsigned refs key) (target : Key) (data : Bytes) :
    ∃ stop, ∀ {σ : Type} (host : Host σ) (state : σ),
      invoke host f target refs given data state t = (.error stop, state) := by
  refine invoke_void fun q hq => ?_
  obtain ⟨⟨derived, cleared⟩, _⟩ := request_eq_ok_iff.1 hq
  obtain ⟨r, hr, signer, h, here, rfl, unsigned⟩ := asked
  have hx : (r, h) ∈ referred t refs := mem_referred.2 ⟨hr, here⟩
  obtain ⟨_, marked | ⟨s, hs, derives⟩⟩ := cleared.voiced hx signer
  · exact absurd (unsigned.symm.trans marked) Bool.false_ne_true
  · exact unspoken s hs derives

namespace Address

variable {program other key : Key} {seeds seeds' : List String} {bump bump' : UInt8}

/-! ## what is hashed -/

theorem preimage_inj :
    preimage program seeds bump = preimage other seeds' bump' ↔
      program = other ∧ bump = bump' ∧ seeds.flatMap Text.bytes = seeds'.flatMap Text.bytes := by
  refine ⟨fun h => ?_, ?_⟩
  · have unmarked := List.append_cancel_right h
    obtain ⟨fronts, bumps⟩ := List.append_inj' unmarked rfl
    obtain ⟨keys, seeds⟩ :=
      List.append_inj fronts (program.length_bytes.trans other.length_bytes.symm)
    exact ⟨Key.ext keys, (List.cons.inj bumps).1, seeds⟩
  · rintro ⟨rfl, rfl, h⟩
    rw [preimage, preimage, h]

/-- Without a collision, an address is derived by the program, the bump and the bytes of the seeds
that it was derived by, and by nothing else. -/
theorem create_eq_ok_iff_same (h : create program seeds bump = .ok key)
    (apart : Sha256.Separates (preimage program seeds bump) (preimage other seeds' bump')) :
    create other seeds' bump' = .ok key ↔ ¬ Excessive seeds' ∧ program = other ∧ bump = bump' ∧
      seeds.flatMap Text.bytes = seeds'.flatMap Text.bytes := by
  obtain ⟨_, off, rfl⟩ := create_eq_ok_iff.1 h
  rw [create_eq_ok_iff, checkLimits_eq_ok_iff, ← preimage_inj]
  refine and_congr_right' ⟨fun h' => ?_, fun h' => ⟨off, ?_⟩⟩
  · exact apart (congrArg Key.bytes h'.2)
  · rw [candidate, candidate]
    exact Key.ext (congrArg Sha256.digest h')

/-- Another program derives none of the addresses. -/
theorem create_ne_of_ne (h : create program seeds bump = .ok key) (foreign : program ≠ other)
    (apart : Sha256.Separates (preimage program seeds bump) (preimage other seeds' bump')) :
    create other seeds' bump' ≠ .ok key := by
  intro h'
  exact foreign ((create_eq_ok_iff_same h apart).1 h').2.1

/-! ## scope -/

/-- what the addresses of one program are to another -/
structure Scoped (program other : Key) : Prop where
  /-- only the bytes of all seeds count, and not where they are cut -/
  same : ∀ (seeds seeds' : List String) (bump bump' : UInt8) (key : Key),
    create program seeds bump = .ok key →
    Sha256.Separates (preimage program seeds bump) (preimage other seeds' bump') →
      (create other seeds' bump' = .ok key ↔ ¬ Excessive seeds' ∧ program = other ∧ bump = bump' ∧
        seeds.flatMap Text.bytes = seeds'.flatMap Text.bytes)
  unverified : program ≠ other → ∀ (seeds seeds' : List String) (bump bump' : UInt8) (key : Key),
    find program seeds = .ok (key, bump) →
    Sha256.Separates (preimage program seeds bump) (preimage other seeds' bump') →
      verify other seeds' bump' key = false
  unauthorised : program ≠ other → ∀ (seeds : List String) (bump : UInt8) (key : Key)
    (given : List SignerSeeds), create program seeds bump = .ok key →
    (∀ s ∈ given, Sha256.Separates (preimage program seeds bump) (preimage other s.seeds s.bump)) →
      (∀ s ∈ given, s.derive other ≠ .ok key) ∧
      ∀ (f : Frame) (t : Table) (refs : List Ref), f.program = other → t.AsksUnsigned refs key →
        ∀ (target : Key) (data : Bytes), ∃ stop, ∀ {σ : Type} (host : Host σ) (state : σ),
          InnerCall.invoke host f target refs given data state t = (.error stop, state)

/-- An address is that of one program.  Unless the hash collides, whoever derives it is the program,
with the same bump and the same bytes of seeds; no other program verifies it, and none signs for it
in an inner call. -/
theorem derivation_scoped (program other : Key) : Scoped program other := by
  refine {
    same := fun _ _ _ _ _ h apart => create_eq_ok_iff_same h apart
    unverified := fun foreign seeds seeds' bump bump' key found apart => ?_
    unauthorised := fun foreign seeds bump key given h apart => ?_ }
  · have derives := (find_eq_ok_iff_isGreatest.1 found).2
    rw [← Bool.not_eq_true, verify_eq_true_iff]
    exact create_ne_of_ne derives foreign apart
  · have unspoken : ∀ s ∈ given, s.derive other ≠ .ok key :=
      fun s hs => create_ne_of_ne h foreign (apart s hs)
    refine ⟨unspoken, ?_⟩
    rintro f t refs rfl asked target data
    exact InnerCall.invoke_void_of_unspoken unspoken asked target data

/-- The authority of the vaults comes from its seed cut in two as well, and the escrow program
neither verifies it nor signs for it with the seed of its own authority. -/
theorem authority_scoped :
    create Swap.key ["vault", "-authority"] 255 = .ok Swap.authority ∧
      verify Escrow.key [Escrow.authoritySeed] 255 Swap.authority = false ∧
      custody.AsksUnsigned [⟨0, false, true⟩] Swap.authority ∧
      ∃ stop, InnerCall.invoke Ledger.host ⟨{}, Escrow.key, 1, []⟩ .system [⟨0, false, true⟩]
        [⟨[Escrow.authoritySeed], 255⟩] [] Ledger.start custody = (.error stop, Ledger.start) := by
  have found : find Swap.key [Swap.vaultSeed] = .ok (Swap.authority, 255) :=
    Op.toOption_eq_some_iff.1 Swap.find_authority
  have derives := create_of_find Swap.find_authority
  have cut : preimage Swap.key [Swap.vaultSeed] 255 =
      preimage Swap.key ["vault", "-authority"] 255 :=
    preimage_inj.2 ⟨rfl, rfl, by decide +kernel⟩
  have fitting : ¬ Excessive ["vault", "-authority"] := checkLimits_eq_ok_iff.1 (by decide +kernel)
  have foreign : Swap.key ≠ Escrow.key := by decide +kernel
  -- the two hashes are known: they are the authorities of the two programs
  have apart : Sha256.Separates (preimage Swap.key [Swap.vaultSeed] 255)
      (preimage Escrow.key [Escrow.authoritySeed] 255) := by
    intro h
    obtain ⟨_, _, hswap⟩ := create_eq_ok_iff.1 derives
    obtain ⟨_, _, hescrow⟩ := create_eq_ok_iff.1 (create_of_find Escrow.find_authority)
    have heq : Swap.authority = Escrow.authority := by
      rw [hswap, hescrow]
      exact Key.ext h
    exact absurd heq (by decide +kernel)
  have asked : custody.AsksUnsigned [⟨0, false, true⟩] Swap.authority :=
    ⟨⟨0, false, true⟩, by simp, rfl, _, rfl, rfl, rfl⟩
  have separate := derivation_scoped Swap.key Escrow.key
  obtain ⟨_, void⟩ := separate.unauthorised foreign _ _ _ [⟨[Escrow.authoritySeed], 255⟩] derives
    (by simpa using apart)
  obtain ⟨stop, voided⟩ := void ⟨{}, Escrow.key, 1, []⟩ custody _ rfl asked .system []
  refine ⟨?_, separate.unverified foreign _ _ _ _ _ found apart, asked, stop,
    voided Ledger.host Ledger.start⟩
  exact ((derivation_scoped Swap.key Swap.key).same _ _ _ _ _ derives fun _ => cut).2
    ⟨fitting, rfl, rfl, (preimage_inj.1 cut).2.2⟩

end Address

end AccountLedger
