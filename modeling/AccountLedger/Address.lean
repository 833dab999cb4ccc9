import AccountLedger.Curve
import AccountLedger.Error
/-!
# Derived addresses

A program has addresses of its own, for which no private key exists: the hash of the program's key,
a list of seeds and one more byte, the bump, is such an address if it is no point of the signature
curve.  Whoever presents the same seeds and bump shows that the program itself is speaking.  Of the
256 bumps the canonical one is the greatest that gives an address.

* `create_eq_ok_iff`: which address seeds and a bump derive, and when;
* `find_eq_ok_iff`: the canonical bump is the greatest that derives an address.
-/

namespace AccountLedger

/-- seeds and a bump, presented as a proof of authority -/
structure SignerSeeds where
  seeds : List String
  bump : UInt8
deriving DecidableEq

namespace Address

/-- what every hashed input of a derivation ends with -/
def marker : Bytes := Text.bytes "ProgramDerivedAddress"

/-- no derivation takes more seeds -/
def maxSeeds : Nat := 16

/-- no seed of a derivation is longer -/
def maxSeedLength : Nat := 32

/-- At most `limit` seeds, each of at most `lengthLimit` bytes.  The first that is longer is
blamed. -/
def checkSeeds (seeds : List String) (limit lengthLimit : Nat) : Except SeedFault Unit :=
  if seeds.length > limit then .error (.tooMany seeds.length limit)
  else
    match seeds.find? fun s => (Text.bytes s).length > lengthLimit with
    | some s => .error (.tooLong (Text.bytes s).length lengthLimit)
    | none => .ok ()

/-- the bytes whose hash is tried as an address -/
def preimage (program : Key) (seeds : List String) (bump : UInt8) : Bytes :=
  program.bytes ++ seeds.flatMap Text.bytes ++ [bump] ++ marker

/-- the hash that is an address unless it is a point of the curve -/
def candidate (program : Key) (seeds : List String) (bump : UInt8) : Key :=
  ⟨Sha256.digest (preimage program seeds bump), Sha256.length_digest _⟩

/-- seeds within the limits of every derivation -/
def checkLimits (seeds : List String) : Except Error Unit :=
  (checkSeeds seeds maxSeeds maxSeedLength).mapError .invalidSeeds

/-- the address that seeds and a bump derive -/
def create (program : Key) (seeds : List String) (bump : UInt8) : Except Error Key :=
  match checkLimits seeds with
  | .error e => .error e
  | .ok () =>
    let address := candidate program seeds bump
    if Curve.onCurve address then .error (.invalidSeeds (.onCurve bump)) else .ok address

/-- the key is an address of the program, for some seeds and bump -/
def Derived (program key : Key) : Prop := ∃ seeds bump, create program seeds bump = .ok key

/-- all bumps, the greatest first -/
def bumps : List UInt8 := (List.range 256).reverse.map UInt8.ofNat

/-- the first of the bumps whose candidate is no point of the curve -/
def search (hash : UInt8 → Key) : List UInt8 → Option (Key × UInt8)
  | [] => none
  | bump :: rest =>
    let address := hash bump
    if Curve.onCurve address then search hash rest else some (address, bump)

/-- the address of the canonical bump, and that bump -/
def find (program : Key) (seeds : List String) : Except Error (Key × UInt8) :=
  match checkLimits seeds with
  | .error e => .error e
  | .ok () =>
    match search (candidate program seeds) bumps with
    | some found => .ok found
    | none => .error .noValidBump

/-- the bumps that derive an address, in ascending order -/
def usable (program : Key) (seeds : List String) : List UInt8 :=
  bumps.reverse.filter fun bump => (create program seeds bump).isOk

/-- whether seeds and a bump derive the claimed address -/
def verify (program : Key) (seeds : List String) (bump : UInt8) (claimed : Key) : Bool :=
  match create program seeds bump with
  | .ok address => address == claimed
  | .error _ => false

/-! ## what derivation accepts -/

theorem create_eq_ok_iff {program : Key} {seeds : List String} {bump : UInt8} {address : Key} :
    create program seeds bump = .ok address ↔
      checkLimits seeds = .ok () ∧ Curve.onCurve address = false ∧
        address = candidate program seeds bump := by
  unfold create
  split
  · rename_i h
    simp [h]
  · rename_i h
    simp only [h, true_and]
    split
    · rename_i hc
      constructor
      · intro h'; cases h'
      · rintro ⟨h1, rfl⟩
        rw [hc] at h1
        cases h1
    · rename_i hc
      rw [Except.ok.injEq]
      constructor
      · rintro rfl
        exact ⟨by simpa using hc, rfl⟩
      · rintro ⟨_, rfl⟩; rfl

theorem search_eq_some_iff {hash : UInt8 → Key} {bs : List UInt8} {address : Key} {bump : UInt8} :
    search hash bs = some (address, bump) ↔
      address = hash bump ∧ ∃ before after, bs = before ++ bump :: after ∧
        Curve.onCurve (hash bump) = false ∧ ∀ b ∈ before, Curve.onCurve (hash b) = true := by
  induction bs with
  | nil => simp [search]
  | cons b rest ih =>
    simp only [search]
    split
    · rename_i hc
      rw [ih]
      constructor
      · rintro ⟨rfl, before, after, rfl, hoff, hbefore⟩
        exact ⟨rfl, b :: before, after, rfl, hoff, by
          simpa [hc] using hbefore⟩
      · rintro ⟨rfl, before, after, heq, hoff, hbefore⟩
        cases before with
        | nil =>
          simp only [List.nil_append, List.cons.injEq] at heq
          rw [← heq.1, hc] at hoff
          cases hoff
        | cons b' before =>
          simp only [List.cons_append, List.cons.injEq] at heq
          exact ⟨rfl, before, after, heq.2, hoff, fun x hx => hbefore x (by simp [hx])⟩
    · rename_i hc
      have hc' : Curve.onCurve (hash b) = false := by simpa using hc
      constructor
      · intro h
        cases h
        exact ⟨rfl, [], rest, rfl, hc', by simp⟩
      · rintro ⟨rfl, before, after, heq, hoff, hbefore⟩
        cases before with
        | nil =>
          simp only [List.nil_append, List.cons.injEq] at heq
          rw [heq.1]
        | cons b' before =>
          simp only [List.cons_append, List.cons.injEq] at heq
          have := hbefore b' (by simp)
          rw [← heq.1] at this
          exact absurd this hc

theorem find_eq_ok_iff {program : Key} {seeds : List String} {found : Key × UInt8} :
    find program seeds = .ok found ↔
      checkLimits seeds = .ok () ∧ search (candidate program seeds) bumps = some found := by
  unfold find
  generalize search (candidate program seeds) bumps = s
  cases checkLimits seeds with
  | error e => simp
  | ok u => cases s <;> simp

/-- The address that is found is made with its bump. -/
theorem create_of_find {program key : Key} {seeds : List String} {bump : UInt8}
    (h : (find program seeds).toOption = some (key, bump)) : create program seeds bump = .ok key := by
  have hfind : find program seeds = .ok (key, bump) := by
    cases hx : find program seeds with
    | error e => rw [hx] at h; cases h
    | ok found => rw [hx] at h; rw [Option.some.inj h]
  obtain ⟨hlimits, hsearch⟩ := find_eq_ok_iff.1 hfind
  obtain ⟨rfl, _, _, _, hoff, _⟩ := search_eq_some_iff.1 hsearch
  exact create_eq_ok_iff.2 ⟨hlimits, hoff, rfl⟩

theorem Derived.of_find {program key : Key} {seeds : List String} {bump : UInt8}
    (h : (find program seeds).toOption = some (key, bump)) : Derived program key :=
  ⟨seeds, bump, create_of_find h⟩

/-- Nobody has a private key for an address of a program. -/
theorem Derived.onCurve {program key : Key} (h : Derived program key) :
    Curve.onCurve key = false := by
  obtain ⟨_, _, h⟩ := h
  exact (create_eq_ok_iff.1 h).2.1

end Address

namespace SignerSeeds

/-- the address for which the seeds speak -/
def derive (s : SignerSeeds) (program : Key) : Except Error Key :=
  Address.create program s.seeds s.bump

end SignerSeeds

/-- one seed with its bump -/
structure SeedBump where
  seed : String
  bump : UInt8

/-- the same as a list of seeds -/
def SeedBump.signerSeeds (s : SeedBump) : SignerSeeds := ⟨[s.seed], s.bump⟩

end AccountLedger
