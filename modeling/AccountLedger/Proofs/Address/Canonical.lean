import AccountLedger.Proofs.Naming
import AccountLedger.Proofs.Privilege
import AccountLedger.Proofs.Swap.Vaults
import Mathlib.Order.Bounds.Basic
/-!
# The canonical bump and what it proves

An address of a program is searched, derived, verified and spoken for in four places, which all hash
the same input.  So they agree: the search finds the greatest bump that derives an address,
verification accepts what was found and nothing else, and the seeds with this bump sign for the
address in every inner call of the program that asks for its signature.

* `search_eq_some_iff_isGreatest`: a search down a descending list finds the greatest;
* `find_eq_ok_iff_isGreatest`, `find_eq_noValidBump_iff`, `find_eq_invalidSeeds_iff`: the three
  answers of the search;
* `exists_derivedSigners_iff`: which seeds may be presented with a call;
* `find_canonical`: the agreement of all four.
-/

namespace AccountLedger

/-- some reference asks the account of the key to sign -/
def Table.Asks (t : Table) (refs : List Ref) (key : Key) : Prop :=
  ∃ r ∈ refs, r.signer = true ∧ ∃ h, t.handles[r.position]? = some h ∧ h.key = key

namespace Address

variable {program key : Key} {seeds : List String} {bump : UInt8}

/-! ## limits -/

/-- more than 16 seeds, or one of more than 32 bytes -/
def Excessive (seeds : List String) : Prop :=
  16 < seeds.length ∨ ∃ s ∈ seeds, 32 < (Text.bytes s).length

theorem checkSeeds_eq_ok_iff {limit lengthLimit : Nat} :
    checkSeeds seeds limit lengthLimit = .ok () ↔
      seeds.length ≤ limit ∧ ∀ s ∈ seeds, (Text.bytes s).length ≤ lengthLimit := by
  unfold checkSeeds
  split
  · rename_i h
    refine ⟨fun h' => (by cases h'), fun h' => absurd h'.1 (Nat.not_le.2 h)⟩
  · rename_i h
    have hcount : seeds.length ≤ limit := Nat.not_lt.1 h
    split
    · rename_i s hs
      have hlong : lengthLimit < (Text.bytes s).length := by simpa using List.find?_some hs
      refine ⟨fun h' => (by cases h'), fun h' => ?_⟩
      exact absurd (h'.2 s (List.mem_of_find?_eq_some hs)) (Nat.not_le.2 hlong)
    · rename_i hnone
      refine ⟨fun _ => ⟨hcount, fun s hs => ?_⟩, fun _ => rfl⟩
      simpa using List.find?_eq_none.1 hnone s hs

theorem checkLimits_eq_ok_iff : checkLimits seeds = .ok () ↔ ¬ Excessive seeds := by
  rw [checkLimits, mapError_eq_ok_iff, checkSeeds_eq_ok_iff, Excessive, not_or]
  simp only [maxSeeds, maxSeedLength, Nat.not_lt, not_exists, not_and]

theorem checkLimits_of_excessive (h : Excessive seeds) :
    ∃ fault, checkLimits seeds = .error (.invalidSeeds fault) := by
  cases hc : checkSeeds seeds maxSeeds maxSeedLength with
  | ok u => exact absurd h (checkLimits_eq_ok_iff.1 (mapError_eq_ok_iff.2 hc))
  | error fault => exact ⟨fault, by rw [checkLimits, hc]; rfl⟩

/-! ## the search -/

theorem bumps_descending : bumps.Pairwise (· > ·) := by
  rw [bumps, List.pairwise_map, List.pairwise_reverse]
  refine List.pairwise_lt_range.imp_of_mem fun {a b} ha hb hlt => ?_
  rw [List.mem_range] at ha hb
  rw [gt_iff_lt, UInt8.lt_iff_toNat_lt, UInt8.toNat_ofNat_of_lt' ha, UInt8.toNat_ofNat_of_lt' hb]
  exact hlt

theorem mem_bumps (b : UInt8) : b ∈ bumps := by
  refine List.mem_map.2 ⟨b.toNat, ?_, UInt8.ofNat_toNat⟩
  rw [List.mem_reverse, List.mem_range]
  exact b.toNat_lt

theorem search_eq_some_iff_isGreatest {hash : UInt8 → Key} {bs : List UInt8}
    (descending : bs.Pairwise (· > ·)) :
    search hash bs = some (key, bump) ↔
      IsGreatest {b | b ∈ bs ∧ Curve.onCurve (hash b) = false} bump ∧ key = hash bump := by
  rw [search_eq_some_iff]
  refine ⟨?_, ?_⟩
  · rintro ⟨rfl, before, after, rfl, off, passed⟩
    refine ⟨⟨⟨by simp, off⟩, ?_⟩, rfl⟩
    rintro b ⟨hb, hoff⟩
    rcases List.mem_append.1 hb with hb | hb
    · rw [passed b hb] at hoff
      cases hoff
    · rcases List.mem_cons.1 hb with rfl | hb
      · exact UInt8.le_refl _
      · have below := (List.pairwise_cons.1 (List.pairwise_append.1 descending).2.1).1 b hb
        exact UInt8.le_of_lt below
  · rintro ⟨⟨⟨hbump, off⟩, greatest⟩, rfl⟩
    obtain ⟨before, after, rfl⟩ := List.append_of_mem hbump
    refine ⟨rfl, before, after, rfl, off, fun b hb => ?_⟩
    have above : b > bump := (List.pairwise_append.1 descending).2.2 b hb bump (by simp)
    rw [← Bool.not_eq_false]
    intro hoff
    exact UInt8.not_le.2 above (greatest ⟨List.mem_append_left _ hb, hoff⟩)

theorem search_eq_none_iff {hash : UInt8 → Key} {bs : List UInt8} :
    search hash bs = none ↔ ∀ b ∈ bs, Curve.onCurve (hash b) = true := by
  induction bs with
  | nil => simp [search]
  | cons b rest ih =>
    simp only [search, List.forall_mem_cons]
    split
    · rename_i h
      simp [h, ih]
    · rename_i h
      simp [h]

/-- the bumps that derive an address -/
def valid (program : Key) (seeds : List String) : Set UInt8 :=
  {b | ∃ key, create program seeds b = .ok key}

theorem mem_valid_iff :
    bump ∈ valid program seeds ↔
      ¬ Excessive seeds ∧ Curve.onCurve (candidate program seeds bump) = false := by
  refine ⟨?_, ?_⟩
  · rintro ⟨key, h⟩
    obtain ⟨limits, off, rfl⟩ := create_eq_ok_iff.1 h
    exact ⟨checkLimits_eq_ok_iff.1 limits, off⟩
  · rintro ⟨fitting, off⟩
    exact ⟨_, create_eq_ok_iff.2 ⟨checkLimits_eq_ok_iff.2 fitting, off, rfl⟩⟩

theorem find_eq_ok_iff_isGreatest :
    find program seeds = .ok (key, bump) ↔
      IsGreatest (valid program seeds) bump ∧ create program seeds bump = .ok key := by
  by_cases h : Excessive seeds
  · have hlimits := mt checkLimits_eq_ok_iff.1 (not_not_intro h)
    rw [find_eq_ok_iff, create_eq_ok_iff]
    exact ⟨fun found => absurd found.1 hlimits, fun found => absurd found.2.1 hlimits⟩
  · have hvalid : valid program seeds =
        {b | b ∈ bumps ∧ Curve.onCurve (candidate program seeds b) = false} := by
      ext b
      rw [mem_valid_iff, Set.mem_ofPred_eq]
      exact and_congr_left' ⟨fun _ => mem_bumps b, fun _ => h⟩
    rw [find_eq_ok_iff, create_eq_ok_iff, search_eq_some_iff_isGreatest bumps_descending, hvalid]
    refine ⟨fun found => ?_, fun found => ⟨found.2.1, found.1, found.2.2.2⟩⟩
    obtain ⟨limits, greatest, rfl⟩ := found
    exact ⟨greatest, limits, greatest.1.2, rfl⟩

theorem find_eq_noValidBump_iff :
    find program seeds = .error .noValidBump ↔
      ¬ Excessive seeds ∧ ∀ b, b ∉ valid program seeds := by
  by_cases h : Excessive seeds
  · obtain ⟨fault, hlimits⟩ := checkLimits_of_excessive h
    have refused : find program seeds = .error (.invalidSeeds fault) := by
      rw [find, hlimits]
    rw [refused]
    exact ⟨fun h' => (by cases h'), fun h' => absurd h h'.1⟩
  · have hnone : find program seeds = .error .noValidBump ↔
        search (candidate program seeds) bumps = none := by
      rw [find, checkLimits_eq_ok_iff.2 h]
      cases search (candidate program seeds) bumps <;> simp
    rw [hnone, search_eq_none_iff]
    refine ⟨fun on => ⟨h, fun b hb => ?_⟩, fun none b _ => ?_⟩
    · have off := (mem_valid_iff.1 hb).2
      rw [on b (mem_bumps b)] at off
      cases off
    · rw [← Bool.not_eq_false]
      exact fun off => none.2 b (mem_valid_iff.2 ⟨h, off⟩)

theorem find_eq_invalidSeeds_iff :
    (∃ fault, find program seeds = .error (.invalidSeeds fault)) ↔ Excessive seeds := by
  refine ⟨fun refused => ?_, fun h => ?_⟩
  · obtain ⟨fault, refused⟩ := refused
    by_contra h
    rw [find, checkLimits_eq_ok_iff.2 h] at refused
    revert refused
    cases search (candidate program seeds) bumps <;> simp
  · obtain ⟨fault, hlimits⟩ := checkLimits_of_excessive h
    exact ⟨fault, by rw [find, hlimits]⟩

theorem verify_eq_true_iff {claimed : Key} :
    verify program seeds bump claimed = true ↔ create program seeds bump = .ok claimed := by
  unfold verify
  cases create program seeds bump <;> simp

end Address

/-! ## inner calls -/

namespace InnerCall

variable {t : Table} {refs : List Ref} {program key : Key} {given : List SignerSeeds}

theorem asks_iff :
    t.Asks refs key ↔ ∃ x ∈ referred t refs, x.1.signer = true ∧ x.2.key = key := by
  refine ⟨?_, ?_⟩
  · rintro ⟨r, hr, signer, h, here, hk⟩
    exact ⟨(r, h), mem_referred.2 ⟨hr, here⟩, signer, hk⟩
  · rintro ⟨x, hx, signer, hk⟩
    obtain ⟨hr, here⟩ := mem_referred.1 hx
    exact ⟨x.1, hr, signer, x.2, here, hk⟩

/-- Seeds may be presented if each list derives a key that some reference asks to sign. -/
theorem exists_derivedSigners_iff :
    (∃ derived, derivedSigners program (referred t refs) given = .ok derived) ↔
      ∀ s ∈ given, ∃ key, s.derive program = .ok key ∧ t.Asks refs key := by
  induction given with
  | nil => simp [derivedSigners]
  | cons s rest ih =>
    rw [List.forall_mem_cons, ← ih]
    refine ⟨?_, ?_⟩
    · rintro ⟨derived, h⟩
      obtain ⟨key, tail, _, hs, asked, later⟩ := derivedSigners_cons_eq_ok_iff.1 h
      exact ⟨⟨key, hs, asks_iff.2 asked⟩, tail, later⟩
    · rintro ⟨⟨key, hs, asked⟩, tail, later⟩
      exact ⟨key :: tail,
        derivedSigners_cons_eq_ok_iff.2 ⟨key, tail, rfl, hs, asks_iff.1 asked, later⟩⟩

theorem mem_derived {s : SignerSeeds} {derived : List Key}
    (h : derivedSigners program (referred t refs) given = .ok derived) (hs : s ∈ given)
    (derives : s.derive program = .ok key) : key ∈ derived := by
  have hmap := (derivedSigners_eq_ok_iff.1 h).1
  have : (.ok key : Except Error Key) ∈ derived.map .ok :=
    hmap ▸ derives ▸ List.mem_map_of_mem hs
  obtain ⟨k, hk, heq⟩ := List.mem_map.1 this
  rwa [← Except.ok.inj heq]

/-- A key for which seeds speak is never refused as a signer. -/
theorem attenuate_ne_signer {derived : List Key} (hk : key ∈ derived)
    (passed : List (Ref × Handle)) :
    attenuate derived passed ≠ .error (.escalation key .signer) := by
  induction passed with
  | nil => simp [attenuate]
  | cons x rest ih =>
    obtain ⟨r, h⟩ := x
    simp only [attenuate]
    split
    · simp
    · split
      · rename_i unsigned
        intro heq
        simp only [Except.error.injEq, Error.escalation.injEq, and_true] at heq
        simp [heq, hk] at unsigned
      · exact ih

/-- A call that asks nothing of the host ends the same with every host. -/
theorem invoke_void {f : Frame} {target : Key} {data : Bytes}
    (refused : ∀ r, request f t target refs given data ≠ .ok r) :
    ∃ stop, ∀ {σ : Type} (host : Host σ) (state : σ),
      invoke host f target refs given data state t = (.error stop, state) := by
  cases h : request f t target refs given data with
  | ok r => exact absurd h (refused r)
  | error stop => exact ⟨stop, fun host state => by rw [invoke, h]⟩

/-- Seeds for a key that nobody asks to sign void a call before it reaches the host. -/
theorem invoke_void_of_not_asks {f : Frame} {s : SignerSeeds} (hs : s ∈ given)
    (derives : s.derive f.program = .ok key) (unasked : ¬ t.Asks refs key) (target : Key)
    (data : Bytes) :
    ∃ stop, ∀ {σ : Type} (host : Host σ) (state : σ),
      invoke host f target refs given data state t = (.error stop, state) := by
  refine invoke_void fun r h => ?_
  obtain ⟨⟨derived, cleared⟩, _⟩ := request_eq_ok_iff.1 h
  obtain ⟨k, hk, asked⟩ := exists_derivedSigners_iff.1 ⟨derived, cleared.derives⟩ s hs
  obtain rfl := Except.ok.inj (hk.symm.trans derives)
  exact unasked asked

end InnerCall

/-! ## agreement -/

namespace Address

/-- what a search answers -/
structure Searched (program : Key) (seeds : List String) : Prop where
  refused : (∃ fault, find program seeds = .error (.invalidSeeds fault)) ↔ Excessive seeds
  found : ∀ key bump, find program seeds = .ok (key, bump) ↔
    IsGreatest (valid program seeds) bump ∧ create program seeds bump = .ok key
  missing : find program seeds = .error .noValidBump ↔
    ¬ Excessive seeds ∧ ∀ bump, bump ∉ valid program seeds

/-- seeds are accepted as a proof for a key wherever they are checked -/
structure Proves (program : Key) (s : SignerSeeds) (key : Key) : Prop where
  offCurve : Curve.onCurve key = false
  verified : ∀ claimed, verify program s.seeds s.bump claimed = true ↔ claimed = key
  presented : ∀ (t : Table) (refs : List Ref), t.Asks refs key →
    InnerCall.derivedSigners program (InnerCall.referred t refs) [s] = .ok [key]
  /-- presented with others, they are not what the call is refused for -/
  among : ∀ (t : Table) (refs : List Ref), t.Asks refs key → ∀ before after : List SignerSeeds,
    (∃ derived, InnerCall.derivedSigners program (InnerCall.referred t refs)
      (before ++ s :: after) = .ok derived) ↔
    ∃ derived, InnerCall.derivedSigners program (InnerCall.referred t refs)
      (before ++ after) = .ok derived
  signs : ∀ (t : Table) (refs : List Ref) (given : List SignerSeeds) (derived : List Key),
    s ∈ given → InnerCall.derivedSigners program (InnerCall.referred t refs) given = .ok derived →
      InnerCall.attenuate derived (InnerCall.referred t refs) ≠ .error (.escalation key .signer)

theorem proves_of_create (h : create program seeds bump = .ok key) :
    Proves program ⟨seeds, bump⟩ key := by
  refine {
    offCurve := Derived.onCurve ⟨seeds, bump, h⟩
    verified := fun claimed => ?_
    presented := fun t refs asked => ?_
    among := fun t refs asked before after => ?_
    signs := fun t refs given derived hs hd =>
      InnerCall.attenuate_ne_signer (InnerCall.mem_derived hd hs h) _ }
  · rw [verify_eq_true_iff, h, Except.ok.injEq]
    exact eq_comm
  · rw [InnerCall.derivedSigners_cons_eq_ok_iff]
    exact ⟨key, [], rfl, h, InnerCall.asks_iff.1 asked, rfl⟩
  · have self : ∃ k, SignerSeeds.derive ⟨seeds, bump⟩ program = .ok k ∧ t.Asks refs k :=
      ⟨key, h, asked⟩
    simp only [InnerCall.exists_derivedSigners_iff, List.forall_mem_append, List.forall_mem_cons,
      self, true_and]

/-- The search finds the greatest of all bumps that derive an address, and it fails for seeds beyond
the limits and where no bump derives one.  What it finds is no point of the curve, verifies as
itself alone, and signs in every inner call of the program that asks for it, while seeds for a key
that nobody asks to sign void a call before it reaches the host. -/
theorem find_canonical (program : Key) (seeds : List String) :
    Searched program seeds ∧
    (∀ key bump, find program seeds = .ok (key, bump) → Proves program ⟨seeds, bump⟩ key) ∧
    ∀ (f : Frame) (t : Table) (refs : List Ref) (given : List SignerSeeds) (s : SignerSeeds)
      (key : Key), f.program = program → s ∈ given → s.derive program = .ok key →
      ¬ t.Asks refs key → ∀ (target : Key) (data : Bytes),
        ∃ stop, ∀ {σ : Type} (host : Host σ) (state : σ),
          InnerCall.invoke host f target refs given data state t = (.error stop, state) := by
  refine ⟨⟨find_eq_invalidSeeds_iff, fun _ _ => find_eq_ok_iff_isGreatest, find_eq_noValidBump_iff⟩,
    fun key bump found => proves_of_create (find_eq_ok_iff_isGreatest.1 found).2, ?_⟩
  rintro f t refs given s key rfl hs derives unasked target data
  exact InnerCall.invoke_void_of_not_asks hs derives unasked target data

/-- a table of the swap program with the authority of its vaults -/
def custody : Table := ⟨Swap.key, [⟨none, .vacant Swap.authority, false, false, none, {}⟩]⟩

theorem authority_canonical :
    find Swap.key [Swap.vaultSeed] = .ok (Swap.authority, 255) ∧
      IsGreatest (valid Swap.key [Swap.vaultSeed]) 255 ∧
      custody.Asks [⟨0, false, true⟩] Swap.authority ∧
      InnerCall.derivedSigners Swap.key (InnerCall.referred custody [⟨0, false, true⟩])
        [⟨[Swap.vaultSeed], 255⟩] = .ok [Swap.authority] ∧
      ¬ custody.Asks [⟨0, false, false⟩] Swap.authority ∧
      ∃ stop, InnerCall.invoke Ledger.host ⟨{}, Swap.key, 1, []⟩ .system [⟨0, false, false⟩]
        [⟨[Swap.vaultSeed], 255⟩] [] Ledger.start custody = (.error stop, Ledger.start) := by
  have found : find Swap.key [Swap.vaultSeed] = .ok (Swap.authority, 255) :=
    Op.toOption_eq_some_iff.1 Swap.find_authority
  obtain ⟨searched, proves, void⟩ := find_canonical Swap.key [Swap.vaultSeed]
  obtain ⟨greatest, derives⟩ := (searched.found _ _).1 found
  have asked : custody.Asks [⟨0, false, true⟩] Swap.authority :=
    ⟨⟨0, false, true⟩, by simp, rfl, _, rfl, rfl⟩
  have unasked : ¬ custody.Asks [⟨0, false, false⟩] Swap.authority := by
    rintro ⟨r, hr, signer, _⟩
    rw [List.mem_singleton.1 hr] at signer
    cases signer
  obtain ⟨stop, voided⟩ := void ⟨{}, Swap.key, 1, []⟩ custody [⟨0, false, false⟩]
    [⟨[Swap.vaultSeed], 255⟩] _ Swap.authority rfl List.mem_cons_self derives unasked .system []
  exact ⟨found, greatest, asked, (proves _ _ found).presented _ _ asked, unasked, stop,
    voided Ledger.host Ledger.start⟩

end Address

end AccountLedger
