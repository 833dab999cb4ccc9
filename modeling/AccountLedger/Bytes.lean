/-!
# Byte strings

A byte string is a list of bytes.  Its text is lower-case hexadecimal, two digits a byte; a number
of a fixed width is written as base-256 digits, least significant first.

* `value_little`: writing a number and reading it back gives the number modulo the width;
* `little_value`: every string of the width is the writing of its value, so a number has one form.
-/

namespace AccountLedger

abbrev Bytes := List UInt8

namespace Bytes

/-! ## hexadecimal text -/

/-- the two digits of a byte, high half first -/
def hexPair (b : UInt8) : List Char :=
  [Nat.digitChar (b.toNat / 16), Nat.digitChar (b.toNat % 16)]

/-- the text of a byte string -/
def hex (bs : Bytes) : String := String.ofList (bs.flatMap hexPair)

/-- the value of a digit, in either case -/
def hexValue? (c : Char) : Option Nat :=
  if '0' ≤ c ∧ c ≤ '9' then some (c.toNat - 48)
  else if 'a' ≤ c ∧ c ≤ 'f' then some (c.toNat - 87)
  else if 'A' ≤ c ∧ c ≤ 'F' then some (c.toNat - 55)
  else none

/-- the bytes of a text with an even number of digits -/
def ofHex? : List Char → Option Bytes
  | [] => some []
  | [_] => none
  | a :: b :: rest => do
    let high ← hexValue? a
    let low ← hexValue? b
    let tail ← ofHex? rest
    return UInt8.ofNat (16 * high + low) :: tail

/-! ## numbers of a fixed width -/

/-- the number `n` in `width` bytes, least significant first; what does not fit is dropped -/
def little : Nat → Nat → Bytes
  | 0, _ => []
  | width + 1, n => UInt8.ofNat n :: little width (n / 256)

/-- the number whose base-256 digits the bytes are, least significant first -/
def value : Bytes → Nat
  | [] => 0
  | b :: rest => b.toNat + 256 * value rest

/-- how many numbers `width` bytes can spell -/
def limit : Nat → Nat
  | 0 => 1
  | width + 1 => 256 * limit width

theorem little_succ (width n : Nat) :
    little (width + 1) n = UInt8.ofNat n :: little width (n / 256) := rfl

@[simp] theorem length_little (width n : Nat) : (little width n).length = width := by
  induction width generalizing n with
  | zero => rfl
  | succ width ih => simp [little, ih]

theorem value_cons (b : UInt8) (rest : Bytes) : value (b :: rest) = b.toNat + 256 * value rest :=
  rfl

theorem value_lt (bs : Bytes) : value bs < limit bs.length := by
  induction bs with
  | nil => simp [value, limit]
  | cons b rest ih =>
    have hb := b.toNat_lt
    simp only [value, List.length_cons, limit]
    omega

theorem value_little (width n : Nat) : value (little width n) = n % limit width := by
  induction width generalizing n with
  | zero => simp [little, value, limit, Nat.mod_one]
  | succ width ih =>
    rw [little_succ, value_cons, ih, limit, Nat.mod_mul, UInt8.toNat_ofNat']

theorem value_little_of_lt {width n : Nat} (h : n < limit width) : value (little width n) = n := by
  rw [value_little, Nat.mod_eq_of_lt h]

theorem little_value (bs : Bytes) : little bs.length (value bs) = bs := by
  induction bs with
  | nil => rfl
  | cons b rest ih =>
    have hb := b.toNat_lt
    have hdiv : (b.toNat + 256 * value rest) / 256 = value rest := by omega
    have hmod : UInt8.ofNat (b.toNat + 256 * value rest) = b := by
      apply UInt8.toNat_inj.1
      rw [UInt8.toNat_ofNat']
      omega
    rw [List.length_cons, value_cons, little_succ, hdiv, ih, hmod]

theorem value_inj {a b : Bytes} (hl : a.length = b.length) (h : value a = value b) : a = b := by
  rw [← little_value a, ← little_value b, hl, h]

end Bytes

end AccountLedger
