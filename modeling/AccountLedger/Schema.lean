import AccountLedger.Codec
import AccountLedger.Crash
import AccountLedger.Sha256
/-!
# Schemas of account data

A record lies in the data of an account after a header of eight bytes that names its schema: the
front of the hash of the name and the version of the record.  Behind the record the data is zero.

* `refill_eq_ok_iff`: a record is written over data exactly when header and payload fit, and the
  length of the data stays.
* `encode_eq_ok_iff`: fresh data is also bounded by the memory that can be had.
-/

namespace AccountLedger

/-- the first eight bytes of the hash of a text -/
def discriminator (text : String) : Bytes := (Sha256.digest (Text.bytes text)).take 8

@[simp] theorem length_discriminator (text : String) : (discriminator text).length = 8 := by
  simp [discriminator]

/-- the name and version of a record type -/
structure Tag where
  name : String
  version : UInt8 := 1
deriving DecidableEq

namespace Tag

/-- the tag as messages show it -/
def text (t : Tag) : String := s!"{t.name}@v{t.version.toNat}"

/-- the header of a record of this schema -/
def header (t : Tag) : Bytes := discriminator s!"account:{t.name}:v{t.version.toNat}"

@[simp] theorem length_header (t : Tag) : t.header.length = 8 := length_discriminator _

/-- the tag with its header, for people who compare headers -/
def detail (t : Tag) : String := s!"SchemaTag({t.text}, {Bytes.hex t.header})"

end Tag

/-- why account data is not, or cannot hold, a record -/
inductive SchemaFault where
  | tooShort (length : Nat) (tag : Tag)
  | wrongHeader (found : Bytes) (tag : Tag)
  | payload (tag : Tag) (fault : ReadFault)
  | noRoom (tag : Tag) (needed held : Nat)
  | boundTo (tag expected : Tag)
  | unbound (expected : Tag)
  | foreignOwner (owner : Key)
  | notMint (reason : String)
  | notTokenAccount (reason : String)
  | stated (text : String)
deriving DecidableEq

def SchemaFault.message : SchemaFault → String
  | .tooShort length tag => s!"{length} bytes cannot hold a {tag.text} header"
  | .wrongHeader found tag =>
    s!"header {Bytes.hex found} does not match {tag.text} ({Bytes.hex tag.header})"
  | .payload tag fault => s!"{tag.text}: {fault.message}"
  | .noRoom tag needed held => s!"{tag.text} needs {needed} bytes, account holds {held}"
  | .boundTo tag expected => s!"bound to {tag.text}, read as {expected.text}"
  | .unbound expected => s!"no schema bound, read as {expected.text}"
  | .foreignOwner owner => s!"owned by {owner}, not the token program"
  | .notMint reason => s!"mint: {reason}"
  | .notTokenAccount reason => s!"token account: {reason}"
  | .stated text => text

namespace Tag

/-! ## headers -/

/-- the data begins with the header -/
def fits (t : Tag) (data : Bytes) : Bool := data.take 8 == t.header

/-- the data begins with the header, or says why not -/
def check (t : Tag) (data : Bytes) : Except SchemaFault Unit :=
  if data.length < 8 then .error (.tooShort data.length t)
  else if t.fits data then .ok ()
  else .error (.wrongHeader (data.take 8) t)

theorem check_eq_ok_iff {t : Tag} {data : Bytes} : t.check data = .ok () ↔ t.fits data = true := by
  unfold check
  split
  · rename_i h
    constructor
    · intro h'; cases h'
    · intro h'
      have := congrArg List.length (beq_iff_eq.1 h')
      simp at this
      omega
  · split <;> simp_all

/-! ## records -/

variable {α : Type}

/-- the record in the data, whatever comes after it -/
def decode (t : Tag) (c : Codec α) (data : Bytes) : Except SchemaFault α :=
  match t.check data with
  | .error fault => .error fault
  | .ok () =>
    match c.read (data.drop 8) with
    | .ok (a, _) => .ok a
    | .error fault => .error (.payload t fault)

/-- `capacity` bytes have room for the payload behind its header -/
def checkRoom (t : Tag) (payload : Bytes) (capacity : Nat) : Except SchemaFault Unit :=
  if capacity < 8 + payload.length then .error (.noRoom t (8 + payload.length) capacity)
  else .ok ()

/-- header, payload, and zeros up to `capacity` bytes -/
def image (t : Tag) (payload : Bytes) (capacity : Nat) : Bytes :=
  t.header ++ payload ++ List.replicate (capacity - (8 + payload.length)) 0

/-- the data with the payload written over it, at the length it had -/
def refill (t : Tag) (payload data : Bytes) : Except SchemaFault Bytes := do
  t.checkRoom payload data.length
  return t.image payload data.length

/-- Fresh data of `capacity` bytes that holds the payload.  Memory is asked for only once there is
room. -/
def encode (t : Tag) (payload : Bytes) (capacity : Nat) : Except (Stop SchemaFault) Bytes := do
  (t.checkRoom payload capacity).mapError .refused
  (checkAllocation capacity).mapError .crashed
  return t.image payload capacity

theorem checkRoom_eq_ok_iff {t : Tag} {payload : Bytes} {capacity : Nat} :
    t.checkRoom payload capacity = .ok () ↔ 8 + payload.length ≤ capacity := by
  unfold checkRoom
  split <;> simp_all

theorem length_image {t : Tag} {payload : Bytes} {capacity : Nat}
    (h : 8 + payload.length ≤ capacity) : (t.image payload capacity).length = capacity := by
  simp [image]
  omega

theorem fits_image (t : Tag) (payload : Bytes) (capacity : Nat) :
    t.fits (t.image payload capacity) = true := by
  simp [fits, image]

theorem decode_image (t : Tag) (c : Codec α) (a : α) (capacity : Nat) :
    t.decode c (t.image (c.write a) capacity) = .ok a := by
  have hdrop : (t.image (c.write a) capacity).drop 8 =
      c.write a ++ List.replicate (capacity - (8 + (c.write a).length)) 0 := by
    rw [image, List.append_assoc, List.drop_left' t.length_header]
  simp only [decode, check_eq_ok_iff.2 (t.fits_image _ _), hdrop, c.read_write]

theorem fits_of_decode {t : Tag} {c : Codec α} {data : Bytes} {a : α} (h : t.decode c data = .ok a) :
    t.fits data = true := by
  unfold decode at h
  split at h
  · cases h
  · rename_i hcheck
    exact check_eq_ok_iff.1 hcheck

theorem refill_eq_ok_iff {t : Tag} {payload data filled : Bytes} :
    t.refill payload data = .ok filled ↔
      8 + payload.length ≤ data.length ∧ filled = t.image payload data.length := by
  rw [← checkRoom_eq_ok_iff, refill]
  rcases t.checkRoom payload data.length with fault | _
  · constructor
    · intro h; cases h
    · rintro ⟨h, _⟩; cases h
  · constructor
    · intro h; cases h; exact ⟨rfl, rfl⟩
    · rintro ⟨_, rfl⟩; rfl

theorem encode_eq_ok_iff {t : Tag} {payload data : Bytes} {capacity : Nat} :
    t.encode payload capacity = .ok data ↔
      8 + payload.length ≤ capacity ∧ capacity < allocationLimit ∧
        data = t.image payload capacity := by
  rw [← checkRoom_eq_ok_iff, ← checkAllocation_eq_ok_iff, encode]
  rcases t.checkRoom payload capacity with fault | _
  · constructor
    · intro h; cases h
    · rintro ⟨h, _⟩; cases h
  · rcases checkAllocation capacity with crash | _
    · constructor
      · intro h; cases h
      · rintro ⟨_, h, _⟩; cases h
    · constructor
      · intro h; cases h; exact ⟨rfl, rfl, rfl⟩
      · rintro ⟨_, _, rfl⟩; rfl

end Tag

/-- A type of records: its schema, the space that programs give it, and its form. -/
class Record (α : Type) where
  tag : Tag
  space : Nat
  codec : Codec α

namespace Record

variable {α : Type} [Record α]

/-- the record that data holds under the schema of its type -/
def decode (data : Bytes) : Except SchemaFault α := (tag α).decode codec data

/-- fresh data of `capacity` bytes that holds the record -/
def encode (a : α) (capacity : Nat) : Except (Stop SchemaFault) Bytes :=
  (tag α).encode (codec.write a) capacity

end Record

end AccountLedger
