import AccountLedger.Error
import AccountLedger.Token.Clearable
/-!
# Mints

A mint is a kind of token: how many there are, who may make more, and who may freeze.  It fills 82
bytes of account data exactly.

* `unpack_eq_ok_iff`: data holds an initialized mint exactly when it is the form of one.
-/

namespace AccountLedger.Token

/-- the token program -/
def program : Key := .ofNat 0x06ddf6e1d765a193d9cbe146ceeb79ac1cb485ed5f5b37913a8cf5857eff00a9

structure Mint where
  authority : Clearable Key
  supply : Amount
  decimals : UInt8
  initialized : Bool
  freezeAuthority : Clearable Key
deriving DecidableEq

namespace Mint

def size : Nat := 82

def codec : Codec Mint :=
  let key := Clearable.codec .key
  (key.pair (Codec.amount.pair (Codec.byte.pair (Codec.flag.pair key)))).iso
    (fun (authority, supply, decimals, initialized, freezeAuthority) =>
      ⟨authority, supply, decimals, initialized, freezeAuthority⟩)
    (fun m => (m.authority, m.supply, m.decimals, m.initialized, m.freezeAuthority))
    (fun _ => rfl) (fun _ => rfl)

/-- the data that holds a mint -/
def pack (m : Mint) : Bytes := codec.write m

/-- the initialized mint that data holds -/
def unpack (data : Bytes) : Except ProgramError Mint :=
  match codec.readAll data with
  | .error _ => .error .invalidAccountData
  | .ok m => if m.initialized then .ok m else .error .uninitialized

theorem unpack_eq_ok_iff {data : Bytes} {m : Mint} :
    unpack data = .ok m ↔ data = m.pack ∧ m.initialized = true := by
  unfold unpack pack
  rw [← codec.readAll_eq_ok_iff]
  cases codec.readAll data with
  | error fault => simp
  | ok m' =>
    simp only [Except.ok.injEq]
    split
    · rename_i hi
      rw [Except.ok.injEq]
      constructor
      · rintro rfl; exact ⟨rfl, hi⟩
      · rintro ⟨rfl, _⟩; rfl
    · rename_i hi
      constructor
      · intro h; cases h
      · rintro ⟨rfl, h⟩; exact absurd h hi

theorem length_pack (m : Mint) : m.pack.length = size := by
  simp [pack, codec, Clearable.codec, Clearable.mark, Codec.iso, Codec.refine, Codec.pair,
    Codec.key, Codec.amount, Codec.count, Codec.byte, Codec.flag, Codec.fixed, Key.length_bytes,
    size]

end Mint

end AccountLedger.Token
