import AccountLedger.Amount
import AccountLedger.Account
import AccountLedger.Codec
import AccountLedger.Instruction
import AccountLedger.Text.Quoted
/-!
# Commands of the System Program

A command is a 32-bit number and fields behind it: 64-bit numbers, keys, and texts after a 64-bit
count of their bytes.  What follows the fields is ignored.
-/

namespace AccountLedger.SystemProgram

inductive Command where
  | createAccount (lamports : Amount) (space : UInt64) (owner : Key)
  | assign (owner : Key)
  | transfer (lamports : Amount)
  | createAccountWithSeed (base : Key) (seed : String) (lamports : Amount) (space : UInt64)
      (owner : Key)
  | advanceNonce
  | withdrawNonce (lamports : Amount)
  | initializeNonce (authority : Key)
  | authorizeNonce (authority : Key)
  | allocate (space : UInt64)
  | allocateWithSeed (base : Key) (seed : String) (space : UInt64) (owner : Key)
  | assignWithSeed (base : Key) (seed : String) (owner : Key)
  | transferWithSeed (lamports : Amount) (seed : String) (owner : Key)
  | upgradeNonce
deriving DecidableEq

namespace Command

/-! ## reading -/

/-- takes values from the front of a byte string -/
abbrev Reader := StateT Bytes Option

/-- takes one value of a codec -/
def next {α : Type} (c : Codec α) : Reader α := fun bs => (c.read bs).toOption

/-- takes a text after the 64-bit count of its bytes -/
def nextText : Reader String := do
  let length ← next .amount
  let front ← fun bs => (Codec.split length.toNat bs).toOption
  match Text.ofBytes front with
  | .ok text => return text
  | .error _ => failure

/-- takes the fields of the command with a number -/
def fields : Nat → Reader Command
  | 0 => do return .createAccount (← next .amount) (← next .amount) (← next .key)
  | 1 => do return .assign (← next .key)
  | 2 => do return .transfer (← next .amount)
  | 3 => do
    return .createAccountWithSeed (← next .key) (← nextText) (← next .amount) (← next .amount)
      (← next .key)
  | 4 => return .advanceNonce
  | 5 => do return .withdrawNonce (← next .amount)
  | 6 => do return .initializeNonce (← next .key)
  | 7 => do return .authorizeNonce (← next .key)
  | 8 => do return .allocate (← next .amount)
  | 9 => do
    return .allocateWithSeed (← next .key) (← nextText) (← next .amount) (← next .key)
  | 10 => do return .assignWithSeed (← next .key) (← nextText) (← next .key)
  | 11 => do return .transferWithSeed (← next .amount) (← nextText) (← next .key)
  | 12 => return .upgradeNonce
  | _ => failure

/-- takes one command -/
def reader : Reader Command := do fields (← next .count).toNat

/-- the command at the front of instruction data -/
def read? (data : Bytes) : Option Command := (reader.run data).map (·.1)

/-! ## text -/

/-- a command with the named texts of its fields -/
def withFields (name : String) (texts : List (String × String)) : String :=
  let fields := texts.map fun (field, text) => field ++ ": " ++ text
  name ++ " \x7b " ++ ", ".intercalate fields ++ " \x7d"

/-- the command as messages show it -/
def text : Command → String
  | .createAccount lamports space owner =>
    withFields "CreateAccount"
      [("lamports", toString lamports.toNat), ("space", toString space.toNat),
        ("owner", owner.text)]
  | .assign owner => withFields "Assign" [("owner", owner.text)]
  | .transfer lamports => withFields "Transfer" [("lamports", toString lamports.toNat)]
  | .createAccountWithSeed base seed lamports space owner =>
    withFields "CreateAccountWithSeed"
      [("base", base.text), ("seed", Text.quoted seed), ("lamports", toString lamports.toNat),
        ("space", toString space.toNat), ("owner", owner.text)]
  | .advanceNonce => "AdvanceNonceAccount"
  | .withdrawNonce lamports => s!"WithdrawNonceAccount({lamports.toNat})"
  | .initializeNonce authority => s!"InitializeNonceAccount({authority})"
  | .authorizeNonce authority => s!"AuthorizeNonceAccount({authority})"
  | .allocate space => withFields "Allocate" [("space", toString space.toNat)]
  | .allocateWithSeed base seed space owner =>
    withFields "AllocateWithSeed"
      [("base", base.text), ("seed", Text.quoted seed), ("space", toString space.toNat),
        ("owner", owner.text)]
  | .assignWithSeed base seed owner =>
    withFields "AssignWithSeed"
      [("base", base.text), ("seed", Text.quoted seed), ("owner", owner.text)]
  | .transferWithSeed lamports seed owner =>
    withFields "TransferWithSeed"
      [("lamports", toString lamports.toNat), ("from_seed", Text.quoted seed),
        ("from_owner", owner.text)]
  | .upgradeNonce => "UpgradeNonceAccount"

end Command

/-- the instruction that makes an account -/
def createAccount (payer target : Key) (lamports : Amount) (space : UInt64) (owner : Key) :
    Instruction where
  program := .system
  metas := [⟨payer, true, true⟩, ⟨target, true, true⟩]
  data := Codec.count.write 0 ++ Codec.amount.write lamports ++ Codec.amount.write space ++
    Codec.key.write owner

end AccountLedger.SystemProgram
