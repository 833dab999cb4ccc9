import AccountLedger.Ledger.Native
import AccountLedger.SystemProgram.Command
/-!
# The System Program

It makes accounts, moves lamports between accounts that no other program owns, gives such accounts
to an owner and allocates their data.  A transfer that overflows the receiver's balance has already
taken the lamports from the payer when it refuses, and a size that no memory can hold crashes after
the lamports have moved.
-/

namespace AccountLedger.SystemProgram

variable {n : Nat}

/-- no other program owns the account -/
def requireUnclaimed (a : Account) : Except ProgramError Unit :=
  if a.owner = .system then .ok () else .error .incorrectProgram

/-- takes lamports from one slot and gives them to another -/
def move (accounts : Slots n) (payer target : Fin n) (amount : Amount) :
    Except ProgramError Unit × Slots n :=
  if (accounts.get payer).lamports < amount then (.error .insufficientFunds, accounts)
  else
    let taken := accounts.put payer
      { accounts.get payer with lamports := (accounts.get payer).lamports - amount }
    match (taken.get target).lamports.credit? amount with
    | some balance => (.ok (), taken.put target { taken.get target with lamports := balance })
    | none => (.error .arithmeticOverflow, taken)

/-- gives a slot zeroed data, if memory can hold it -/
def allocateSlot (accounts : Slots n) (target : Fin n) (space : UInt64) (owner : Key) : Reply n :=
  match checkAllocation space.toNat with
  | .error crash => .crash crash accounts
  | .ok () =>
    .done (accounts.put target
      { accounts.get target with data := List.replicate space.toNat 0, owner })

def create (i : Instruction) (accounts : Slots n) (signers : List Key) (lamports : Amount)
    (space : UInt64) (owner : Key) : Reply n :=
  let checks := do
    let payerKey ← i.keyAt 0
    let targetKey ← i.keyAt 1
    requireSigner signers payerKey
    requireSigner signers targetKey
    let payer ← accounts.position payerKey
    let target ← accounts.position targetKey
    if !(accounts.get target).isVacant then throw .alreadyInitialized
    return (payer, target)
  .afterChecks accounts checks fun (payer, target) =>
    match move accounts payer target lamports with
    | (.error e, accounts) => .refuse e accounts
    | (.ok (), accounts) => allocateSlot accounts target space owner

def transfer (i : Instruction) (accounts : Slots n) (signers : List Key) (lamports : Amount) :
    Reply n :=
  let checks := do
    let payerKey ← i.keyAt 0
    let targetKey ← i.keyAt 1
    requireSigner signers payerKey
    let payer ← accounts.position payerKey
    let target ← accounts.position targetKey
    requireUnclaimed (accounts.get payer)
    if !(accounts.get payer).data.isEmpty then throw .invalidArgument
    return (payer, target)
  .afterChecks accounts checks fun (payer, target) =>
    match move accounts payer target lamports with
    | (.error e, accounts) => .refuse e accounts
    | (.ok (), accounts) => .done accounts

/-- the slot of an unclaimed account that signed -/
def ownSlot (i : Instruction) (accounts : Slots n) (signers : List Key) :
    Except ProgramError (Fin n) := do
  let key ← i.keyAt 0
  requireSigner signers key
  let p ← accounts.position key
  requireUnclaimed (accounts.get p)
  return p

def assign (i : Instruction) (accounts : Slots n) (signers : List Key) (owner : Key) : Reply n :=
  .afterChecks accounts (ownSlot i accounts signers) fun p =>
    .done (accounts.put p { accounts.get p with owner })

def allocate (i : Instruction) (accounts : Slots n) (signers : List Key) (space : UInt64) :
    Reply n :=
  let checks := do
    let p ← ownSlot i accounts signers
    if !(accounts.get p).data.isEmpty then throw .alreadyInitialized
    return p
  .afterChecks accounts checks fun p => allocateSlot accounts p space (accounts.get p).owner

/-- carries out a command -/
def perform (i : Instruction) (accounts : Slots n) (signers : List Key) : Command → Reply n
  | .createAccount lamports space owner => create i accounts signers lamports space owner
  | .transfer lamports => transfer i accounts signers lamports
  | .assign owner => assign i accounts signers owner
  | .allocate space => allocate i accounts signers space
  | other =>
    ⟨.error (.refused ⟨s!"system instruction {other.text} is not supported", none⟩), accounts⟩

/-- runs an instruction of the System Program -/
def native : Native := fun _ i _ accounts signers =>
  match Command.read? i.data with
  | some command => perform i accounts signers command
  | none => .refuse .invalidInstructionData accounts

end AccountLedger.SystemProgram
