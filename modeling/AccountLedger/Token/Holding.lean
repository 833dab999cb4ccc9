import AccountLedger.Token.Mint
/-!
# Holdings

A holding is an amount of tokens of one mint that belongs to an owner.  It fills 165 bytes of
account data exactly.

* `unpack_eq_ok_iff`: data holds an open holding exactly when it is the form of one.
-/

namespace AccountLedger.Token

/-- how far a holding can be used -/
inductive HoldingState where
  | uninitialized
  | initialized
  | frozen
deriving DecidableEq, Repr

namespace HoldingState

/-- the byte of a state -/
def code : HoldingState → UInt8
  | .uninitialized => 0
  | .initialized => 1
  | .frozen => 2

/-- the state of a byte -/
def ofCode (b : UInt8) : Except ReadFault HoldingState :=
  if b = 0 then .ok .uninitialized
  else if b = 1 then .ok .initialized
  else if b = 2 then .ok .frozen
  else .error (.badFlag b)

theorem ofCode_code (s : HoldingState) : ofCode s.code = .ok s := by cases s <;> rfl

theorem code_of_ofCode {b : UInt8} {s : HoldingState} (h : ofCode b = .ok s) : s.code = b := by
  unfold ofCode at h
  split at h
  · rename_i hb
    cases h
    exact hb.symm
  · split at h
    · rename_i hb
      cases h
      exact hb.symm
    · split at h
      · rename_i hb
        cases h
        exact hb.symm
      · cases h

def codec : Codec HoldingState :=
  Codec.byte.refine ofCode code ofCode_code (fun _ _ h => code_of_ofCode h)

end HoldingState

structure Holding where
  mint : Key
  owner : Key
  amount : Amount
  delegate : Clearable Key
  state : HoldingState
  native : Clearable UInt64
  delegatedAmount : Amount
  closeAuthority : Clearable Key
deriving DecidableEq

namespace Holding

def size : Nat := 165

def codec : Codec Holding :=
  let key := Clearable.codec .key
  let amount := Clearable.codec .amount
  (Codec.key.pair (Codec.key.pair (Codec.amount.pair (key.pair (HoldingState.codec.pair
      (amount.pair (Codec.amount.pair key))))))).iso
    (fun (mint, owner, amount, delegate, state, native, delegatedAmount, closeAuthority) =>
      ⟨mint, owner, amount, delegate, state, native, delegatedAmount, closeAuthority⟩)
    (fun h => (h.mint, h.owner, h.amount, h.delegate, h.state, h.native, h.delegatedAmount,
      h.closeAuthority))
    (fun _ => rfl) (fun _ => rfl)

/-- the data that holds a holding -/
def pack (h : Holding) : Bytes := codec.write h

/-- the holding that data holds, unless it was never opened -/
def unpack (data : Bytes) : Except ProgramError Holding :=
  match codec.readAll data with
  | .error _ => .error .invalidAccountData
  | .ok h => if h.state = .uninitialized then .error .uninitialized else .ok h

/-- the key at an offset of old data, zero if the data ends before -/
def keyIn (old : Bytes) (offset : Nat) : Key :=
  match Codec.key.read (old.drop offset) with
  | .ok (key, _) => key
  | .error _ => .ofNat 0

/-- the number at an offset of old data, zero if the data ends before -/
def amountIn (old : Bytes) (offset : Nat) : UInt64 :=
  match Codec.amount.read (old.drop offset) with
  | .ok (amount, _) => amount
  | .error _ => 0

/-- A holding opened over old data.  Its optional fields are clear and keep the bytes that were
there. -/
def opened (mint owner : Key) (amount : Amount) (old : Bytes) : Holding where
  mint
  owner
  amount
  delegate := ⟨false, keyIn old 76⟩
  state := .initialized
  native := ⟨false, amountIn old 113⟩
  delegatedAmount := 0
  closeAuthority := ⟨false, keyIn old 133⟩

/-- who may close the holding -/
def closer (h : Holding) : Key := h.closeAuthority.get?.getD h.owner

theorem unpack_eq_ok_iff {data : Bytes} {h : Holding} :
    unpack data = .ok h ↔ data = h.pack ∧ h.state ≠ .uninitialized := by
  unfold unpack pack
  rw [← codec.readAll_eq_ok_iff]
  cases codec.readAll data with
  | error fault => simp
  | ok h' =>
    simp only [Except.ok.injEq]
    split
    · rename_i hi
      constructor
      · intro h; cases h
      · rintro ⟨rfl, h⟩; exact absurd hi h
    · rename_i hi
      rw [Except.ok.injEq]
      constructor
      · rintro rfl; exact ⟨rfl, hi⟩
      · rintro ⟨rfl, _⟩; rfl

theorem length_pack (h : Holding) : h.pack.length = size := by
  simp [pack, codec, HoldingState.codec, Clearable.codec, Clearable.mark, Codec.iso, Codec.refine,
    Codec.pair, Codec.key, Codec.amount, Codec.count, Codec.byte, Codec.fixed, Key.length_bytes,
    size]

end Holding

end AccountLedger.Token
