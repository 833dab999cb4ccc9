import AccountLedger.Bytes
/-!
# Keys

A key names an account: 32 bytes.  Keys are ordered as byte strings, which is the order of the
numbers that they spell with the most significant byte first.  People read a key in base 58.

* `toNat_inj`: the number of a key determines the key.
-/

namespace AccountLedger

structure Key where
  bytes : Bytes
  length_bytes : bytes.length = 32
deriving DecidableEq

namespace Key

@[ext] theorem ext {k l : Key} (h : k.bytes = l.bytes) : k = l := by
  cases k; cases l; cases h; rfl

/-- the number that the bytes spell, most significant first -/
def toNat (k : Key) : Nat := Bytes.value k.bytes.reverse

/-- the key that spells a number below `2 ^ 256` -/
def ofNat (n : Nat) : Key := ⟨(Bytes.little 32 n).reverse, by simp⟩

/-- the key of these bytes, if there are 32 -/
def ofBytes? (bs : Bytes) : Option Key :=
  if h : bs.length = 32 then some ⟨bs, h⟩ else none

theorem toNat_inj {k l : Key} : k.toNat = l.toNat ↔ k = l := by
  constructor
  · intro h
    apply ext
    have := Bytes.value_inj (by simp [k.length_bytes, l.length_bytes]) h
    simpa using this
  · rintro rfl; rfl

theorem toNat_ofNat {n : Nat} (h : n < Bytes.limit 32) : (ofNat n).toNat = n := by
  simp only [toNat, ofNat, List.reverse_reverse]
  exact Bytes.value_little_of_lt h

@[simp] theorem ofBytes?_bytes (k : Key) : ofBytes? k.bytes = some k := by
  simp [ofBytes?, k.length_bytes]

theorem bytes_of_ofBytes? {bs : Bytes} {k : Key} (h : ofBytes? bs = some k) : k.bytes = bs := by
  unfold ofBytes? at h
  split at h
  · cases h; rfl
  · cases h

/-! ## order -/

instance : LT Key := ⟨fun k l => k.toNat < l.toNat⟩

instance (k l : Key) : Decidable (k < l) := inferInstanceAs (Decidable (k.toNat < l.toNat))

theorem lt_iff {k l : Key} : k < l ↔ k.toNat < l.toNat := Iff.rfl

/-- exactly one of two different keys comes first -/
theorem lt_of_ne_of_not_lt {k l : Key} (hne : k ≠ l) (h : ¬ k < l) : l < k := by
  rw [lt_iff] at *
  have := mt toNat_inj.1 hne
  omega

/-! ## base 58 -/

def base58Alphabet : List Char :=
  "123456789ABCDEFGHJKLMNPQRSTUVWXYZabcdefghijkmnopqrstuvwxyz".toList

/-- the digits of a number with at most `count` of them, before `rest` -/
def base58Digits : Nat → Nat → List Char → List Char
  | 0, _, rest => rest
  | count + 1, n, rest =>
    if n = 0 then rest else base58Digits count (n / 58) (base58Alphabet.getD (n % 58) '1' :: rest)

/-- The text of a key: its number in base 58, after a `1` for every leading zero byte.  A number
below `2 ^ 256` has at most 44 digits. -/
def text (k : Key) : String :=
  String.ofList ((k.bytes.takeWhile (· == 0)).map (fun _ => '1') ++ base58Digits 44 k.toNat [])

instance : ToString Key := ⟨text⟩

/-- 64 hexadecimal digits -/
def hex (k : Key) : String := Bytes.hex k.bytes

end Key

end AccountLedger
