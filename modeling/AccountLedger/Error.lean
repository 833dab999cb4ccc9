import AccountLedger.Amount
import AccountLedger.Schema
/-!
# What can go wrong

Every refusal is a value: a program error is a number that programs agree on, a host error is what
the host reports, and an `Error` is the refusal of an operation on the accounts of an invocation.
Each has its wording in one function.
-/

namespace AccountLedger

/-! ## errors of programs and hosts -/

/-- the refusals that programs know by number -/
inductive ProgramError where
  | custom (code : UInt32)
  | invalidArgument
  | invalidInstructionData
  | invalidAccountData
  | accountDataTooSmall
  | insufficientFunds
  | incorrectProgram
  | missingSignature
  | alreadyInitialized
  | uninitialized
  | notEnoughAccounts
  | borrowFailed
  | seedTooLong
  | invalidSeeds
  | unreadable
  | notRentExempt
  | unsupportedVariable
  | illegalOwner
  | tooMuchAllocated
  | invalidReallocation
  | traceTooLong
  | unpaidComputation
  | invalidOwner
  | arithmeticOverflow
  | immutableAccount
  | incorrectAuthority
deriving DecidableEq

namespace ProgramError

/-- the number of an error that is not a program's own; zero for those -/
def number : ProgramError → Nat
  | .custom _ => 0
  | .invalidArgument => 2
  | .invalidInstructionData => 3
  | .invalidAccountData => 4
  | .accountDataTooSmall => 5
  | .insufficientFunds => 6
  | .incorrectProgram => 7
  | .missingSignature => 8
  | .alreadyInitialized => 9
  | .uninitialized => 10
  | .notEnoughAccounts => 11
  | .borrowFailed => 12
  | .seedTooLong => 13
  | .invalidSeeds => 14
  | .unreadable => 15
  | .notRentExempt => 16
  | .unsupportedVariable => 17
  | .illegalOwner => 18
  | .tooMuchAllocated => 19
  | .invalidReallocation => 20
  | .traceTooLong => 21
  | .unpaidComputation => 22
  | .invalidOwner => 23
  | .arithmeticOverflow => 24
  | .immutableAccount => 25
  | .incorrectAuthority => 26

/-- The code on the wire.  Shared errors use the upper half of the word; a program's own code is
itself, but zero would be no error and is written as one in the upper half. -/
def code : ProgramError → UInt64
  | .custom c => if c = 0 then (1 : UInt64) <<< 32 else c.toUInt64
  | e => UInt64.ofNat e.number <<< (32 : UInt64)

/-- all errors whose code is in the upper half -/
def shared : List ProgramError :=
  [.custom 0, .invalidArgument, .invalidInstructionData, .invalidAccountData, .accountDataTooSmall,
    .insufficientFunds, .incorrectProgram, .missingSignature, .alreadyInitialized, .uninitialized,
    .notEnoughAccounts, .borrowFailed, .seedTooLong, .invalidSeeds, .unreadable, .notRentExempt,
    .unsupportedVariable, .illegalOwner, .tooMuchAllocated, .invalidReallocation, .traceTooLong,
    .unpaidComputation, .invalidOwner, .arithmeticOverflow, .immutableAccount, .incorrectAuthority]

/-- the error behind a code; a code that is not shared is a program's own, in its lower half -/
def ofCode (code : UInt64) : ProgramError :=
  (shared.find? (·.code = code)).getD (.custom code.toUInt32)

def message : ProgramError → String
  | .custom c => s!"Custom program error: 0x{String.ofList (Nat.toDigits 16 c.toNat)}"
  | .invalidArgument => "The arguments provided to a program instruction were invalid"
  | .invalidInstructionData => "An instruction's data contents was invalid"
  | .invalidAccountData => "An account's data contents was invalid"
  | .accountDataTooSmall => "An account's data was too small"
  | .insufficientFunds => "An account's balance was too small to complete the instruction"
  | .incorrectProgram => "The account did not have the expected program id"
  | .missingSignature => "A signature was required but not found"
  | .alreadyInitialized =>
    "An initialize instruction was sent to an account that has already been initialized"
  | .uninitialized => "An attempt to operate on an account that hasn't been initialized"
  | .notEnoughAccounts => "The instruction expected additional account keys"
  | .borrowFailed => "Failed to borrow a reference to account data, already borrowed"
  | .seedTooLong => "Length of the seed is too long for address generation"
  | .invalidSeeds => "Provided seeds do not result in a valid address"
  | .unreadable => "IO Error: Unknown"
  | .notRentExempt => "An account does not have enough lamports to be rent-exempt"
  | .unsupportedVariable => "Unsupported sysvar"
  | .illegalOwner => "Provided owner is not allowed"
  | .tooMuchAllocated => "Accounts data allocations exceeded the maximum allowed per transaction"
  | .invalidReallocation => "Account data reallocation was invalid"
  | .traceTooLong => "Instruction trace length exceeded the maximum allowed per transaction"
  | .unpaidComputation => "Builtin programs must consume compute units"
  | .invalidOwner => "Invalid account owner"
  | .arithmeticOverflow => "Program arithmetic overflowed"
  | .immutableAccount => "Account is immutable"
  | .incorrectAuthority => "Incorrect authority provided"

end ProgramError

/-- a refusal of the host, passed on as it is -/
structure HostError where
  message : String
  code : Option UInt64 := none
deriving DecidableEq

namespace HostError

/-- the message, with the code if the host gave one -/
def text (e : HostError) : String :=
  match e.code with
  | some code => s!"{e.message} (code {code.toNat})"
  | none => e.message

/-- a program error as the host reports it -/
def ofProgram (e : ProgramError) : HostError := ⟨e.message, some e.code⟩

end HostError

/-! ## errors of an invocation -/

/-- what an account slot can be allowed to do or required to be -/
inductive Capability where
  | signer
  | writable
  | executable
  | modifiable
  | ownership
deriving DecidableEq, Repr

def Capability.label : Capability → String
  | .signer => "signer"
  | .writable => "writable"
  | .executable => "executable"
  | .modifiable => "non-executable"
  | .ownership => "program ownership"

/-- why seeds derive no address -/
inductive SeedFault where
  | tooMany (count limit : Nat)
  | tooLong (length limit : Nat)
  | onCurve (bump : UInt8)
  | tooManyLists (count limit : Nat)
  | stated (text : String)
deriving DecidableEq

def SeedFault.message : SeedFault → String
  | .tooMany count limit => s!"{count} seeds, limit is {limit}"
  | .tooLong length limit => s!"seed of {length} bytes, limit is {limit}"
  | .onCurve bump => s!"bump {bump.toNat} derives an on-curve address"
  | .tooManyLists count limit => s!"{count} signer seed lists, limit is {limit}"
  | .stated text => text

/-- why an invocation or an inner call is no instruction of the program it is meant for -/
inductive Malformation where
  | wrongProgram (addressed serving : Key)
  | dataSize (what : String) (size limit : Nat)
  | accounts (count limit : Nat)
  | innerAccounts (count limit : Nat)
  | noDiscriminator (size : Nat)
  | unknownDiscriminator (found : Bytes)
  | parameters (instruction : String) (fault : ReadFault)
  | authorityKind (code : UInt8)
  | stated (text : String)
deriving DecidableEq

def Malformation.message : Malformation → String
  | .wrongProgram addressed serving =>
    s!"invocation addressed to {addressed}, dispatcher serves {serving}"
  | .dataSize what size limit => s!"{what} is {size} bytes, limit is {limit}"
  | .accounts count limit => s!"{count} accounts, limit is {limit}"
  | .innerAccounts count limit => s!"{count} inner accounts, limit is {limit}"
  | .noDiscriminator size => s!"{size} bytes of instruction data, discriminator needs 8"
  | .unknownDiscriminator found => s!"unknown instruction discriminator {Bytes.hex found}"
  | .parameters instruction fault => s!"{instruction} parameters: {fault.message}"
  | .authorityKind code => s!"unknown authority type {code.toNat}"
  | .stated text => text

/-- the refusal of an operation on the accounts of an invocation -/
inductive Error where
  /- what a slot lacks -/
  | capability (position : Nat) (key : Key) (missing : Capability)
  | schema (position : Nat) (fault : SchemaFault)
  /- binding -/
  | privilege (position : Nat) (name : String) (missing : Capability)
  | escalation (key : Key) (requested : Capability)
  | aliasing (key : Key) (first second : Nat)
  | accountCount (expected actual : Nat)
  | outOfBounds (position length : Nat)
  | unknownAccount (name : String)
  /- derived addresses -/
  | noValidBump
  | invalidSeeds (fault : SeedFault)
  | unauthorizedSeeds (derived : Key)
  /- inner calls -/
  | callDepth (height limit : Nat)
  | reentrancy (program : Key)
  | programNotFound (program : Key)
  | malformed (fault : Malformation)
  /- creation of accounts -/
  | insufficientFunds (payer : Key) (required available : Amount)
  | alreadyInUse (key : Key)
  /- business logic and host -/
  | assertion (text : String)
  | custom (code : UInt32)
  | host (error : HostError)
deriving DecidableEq

namespace Error

def message : Error → String
  | .capability position key missing =>
    s!"account {position} ({key}) lacks the {missing.label} capability"
  | .schema position fault =>
    s!"account {position} data does not match its schema: {fault.message}"
  | .privilege position name missing => s!"account {position} ({name}) must be {missing.label}"
  | .escalation key requested =>
    s!"cross-program call requests {requested.label} on {key} beyond the outer grant"
  | .aliasing key first second =>
    s!"account {key} bound at positions {first} and {second} with conflicting writability"
  | .accountCount expected actual => s!"expected at least {expected} accounts, got {actual}"
  | .outOfBounds position length =>
    s!"account index {position} out of bounds for table of {length}"
  | .unknownAccount name => s!"no account named {name} in this instruction"
  | .noValidBump => "no bump seed yields an off-curve address"
  | .invalidSeeds fault => s!"invalid seeds: {fault.message}"
  | .unauthorizedSeeds derived =>
    s!"signer seeds derive {derived}, which is not a signer in this call"
  | .callDepth height limit => s!"call stack height {height} exceeds the maximum of {limit}"
  | .reentrancy program => s!"reentrant call into {program} is not allowed"
  | .programNotFound program =>
    s!"program {program} is not an executable account of this invocation"
  | .malformed fault => s!"malformed instruction: {fault.message}"
  | .insufficientFunds payer required available =>
    s!"payer {payer} holds {available.toNat} lamports, {required.toNat} required"
  | .alreadyInUse key => s!"account {key} is already in use"
  | .assertion text => s!"assertion failed: {text}"
  | .custom code => s!"custom program error: 0x{String.ofList (Nat.toDigits 16 code.toNat)}"
  | .host error => s!"host error: {error.text}"

/-- the error is about a privilege that was asked for and not held -/
def isPrivilege : Error → Bool
  | .privilege .. | .escalation .. | .unauthorizedSeeds .. => true
  | .capability _ _ .signer => true
  | _ => false

end Error

end AccountLedger
