import AccountLedger.Ledger.Native
import AccountLedger.Token.Command
/-!
# The token program

It opens and closes holdings, moves tokens between holdings of one mint, mints and burns them, and
hands authorities on.  A refused command changes nothing, except that closing has emptied the
holding when the receiver's balance overflows; opening over data too short for a holding is a
crash.
-/

namespace AccountLedger.Token

variable {n : Nat}

/-- a balance after an amount came in -/
def credited (balance amount : Amount) : Except ProgramError Amount :=
  match balance.credit? amount with
  | some sum => .ok sum
  | none => .error .arithmeticOverflow

/-- a balance after an amount went out -/
def debited (balance amount : Amount) : Except ProgramError Amount :=
  match balance.debit? amount with
  | some rest => .ok rest
  | none => .error .insufficientFunds

/-- the authority signed, and it is the one that holds the right -/
def requireAuthority (holder : Option Key) (authority : Key) (signers : List Key) :
    Except ProgramError Unit := do
  requireSigner signers authority
  if holder ≠ some authority then throw .illegalOwner

/-- the slots with other data in one of them -/
def putData (accounts : Slots n) (p : Fin n) (data : Bytes) : Slots n :=
  accounts.put p { accounts.get p with data }

def performOpen (i : Instruction) (accounts : Slots n) (owner : Key) : Reply n :=
  let checks := do
    let p ← accounts.positionAt i 0
    let mintKey ← i.keyAt 1
    let mint ← accounts.position mintKey
    let _ ← Mint.unpack (accounts.get mint).data
    if (accounts.get p).owner ≠ program then throw .incorrectProgram
    if (Holding.unpack (accounts.get p).data).isOk then throw .alreadyInitialized
    return (p, mintKey)
  .afterChecks accounts checks fun (p, mintKey) =>
    let old := (accounts.get p).data
    if old.length < Holding.size then .crash (.sliceEnd Holding.size old.length) accounts
    else
      let h := Holding.opened mintKey owner 0 old
      .done (putData accounts p (h.pack ++ old.drop Holding.size))

def performTransfer (i : Instruction) (accounts : Slots n) (signers : List Key) (amount : Amount) :
    Except ProgramError (Slots n) := do
  let source ← accounts.positionAt i 0
  let destination ← accounts.positionAt i 1
  let authority ← i.keyAt 2
  let giver ← Holding.unpack (accounts.get source).data
  let taker ← Holding.unpack (accounts.get destination).data
  requireAuthority (some giver.owner) authority signers
  if giver.mint ≠ taker.mint then throw .invalidAccountData
  if source = destination then return accounts
  let rest ← debited giver.amount amount
  let sum ← credited taker.amount amount
  let accounts := putData accounts destination { taker with amount := sum }.pack
  return putData accounts source { giver with amount := rest }.pack

def performMint (i : Instruction) (accounts : Slots n) (signers : List Key) (amount : Amount) :
    Except ProgramError (Slots n) := do
  let mintKey ← i.keyAt 0
  let mint ← accounts.position mintKey
  let destination ← accounts.positionAt i 1
  let authority ← i.keyAt 2
  let m ← Mint.unpack (accounts.get mint).data
  let taker ← Holding.unpack (accounts.get destination).data
  requireAuthority m.authority.get? authority signers
  if taker.mint ≠ mintKey then throw .invalidAccountData
  let supply ← credited m.supply amount
  let sum ← credited taker.amount amount
  let accounts := putData accounts mint { m with supply }.pack
  return putData accounts destination { taker with amount := sum }.pack

def performBurn (i : Instruction) (accounts : Slots n) (signers : List Key) (amount : Amount) :
    Except ProgramError (Slots n) := do
  let source ← accounts.positionAt i 0
  let mintKey ← i.keyAt 1
  let mint ← accounts.position mintKey
  let authority ← i.keyAt 2
  let giver ← Holding.unpack (accounts.get source).data
  let m ← Mint.unpack (accounts.get mint).data
  requireAuthority (some giver.owner) authority signers
  if giver.mint ≠ mintKey then throw .invalidAccountData
  let rest ← debited giver.amount amount
  let supply ← debited m.supply amount
  let accounts := putData accounts source { giver with amount := rest }.pack
  return putData accounts mint { m with supply }.pack

/-- a mint after one of its authorities was handed on -/
def Mint.handOn (m : Mint) (kind : AuthorityKind) (successor : Option Key) (authority : Key)
    (signers : List Key) : Except ProgramError Mint :=
  match kind with
  | .mintTokens => do
    requireAuthority m.authority.get? authority signers
    return { m with authority := m.authority.set successor }
  | .freezeAccount => do
    requireAuthority m.freezeAuthority.get? authority signers
    return { m with freezeAuthority := m.freezeAuthority.set successor }
  | .accountOwner | .closeAccount => .error .invalidArgument

/-- A holding after one of its authorities was handed on.  With a new owner nobody else may close
it. -/
def Holding.handOn (h : Holding) (kind : AuthorityKind) (successor : Option Key) (authority : Key)
    (signers : List Key) : Except ProgramError Holding :=
  match kind with
  | .accountOwner => do
    requireAuthority (some h.owner) authority signers
    match successor with
    | some owner => return { h with owner, closeAuthority := h.closeAuthority.set none }
    | none => throw .invalidArgument
  | .closeAccount => do
    requireAuthority (some h.closer) authority signers
    return { h with closeAuthority := h.closeAuthority.set successor }
  | .mintTokens | .freezeAccount => .error .invalidArgument

def performSetAuthority (i : Instruction) (accounts : Slots n) (signers : List Key)
    (kind : AuthorityKind) (successor : Option Key) : Except ProgramError (Slots n) := do
  let target ← accounts.positionAt i 0
  let authority ← i.keyAt 1
  let data := (accounts.get target).data
  if data.length = Mint.size then
    let m ← Mint.unpack data
    let m ← m.handOn kind successor authority signers
    return putData accounts target m.pack
  else
    let h ← Holding.unpack data
    let h ← h.handOn kind successor authority signers
    return putData accounts target h.pack

/-- a closed account is nobody's and empty -/
def closed (a : Account) : Account := { a with data := [], owner := .system }

def performClose (i : Instruction) (accounts : Slots n) (signers : List Key) : Reply n :=
  let checks := do
    let p ← accounts.positionAt i 0
    let destination ← accounts.positionAt i 1
    let authority ← i.keyAt 2
    let h ← Holding.unpack (accounts.get p).data
    requireAuthority (some h.closer) authority signers
    if h.amount ≠ 0 then throw .invalidAccountData
    return (p, destination)
  .afterChecks accounts checks fun (p, destination) =>
    let emptied := accounts.put p { accounts.get p with lamports := 0 }
    match credited (emptied.get destination).lamports (accounts.get p).lamports with
    | .error e => .refuse e emptied
    | .ok balance =>
      let paid := emptied.put destination { emptied.get destination with lamports := balance }
      .done (paid.put p (closed (paid.get p)))

/-- carries out a command -/
def perform (i : Instruction) (accounts : Slots n) (signers : List Key) : Command → Reply n
  | .openHolding owner => performOpen i accounts owner
  | .transfer amount => .ofChanged accounts (performTransfer i accounts signers amount)
  | .setAuthority kind successor =>
    .ofChanged accounts (performSetAuthority i accounts signers kind successor)
  | .mintTo amount => .ofChanged accounts (performMint i accounts signers amount)
  | .burn amount => .ofChanged accounts (performBurn i accounts signers amount)
  | .close => performClose i accounts signers
  | .other _ => .refuse .invalidInstructionData accounts

/-- the code of data that is no command -/
def invalidInstruction : UInt32 := 12

/-- runs an instruction of the token program -/
def native : Native := fun _ i _ accounts signers =>
  match Command.read? i.data with
  | some command => perform i accounts signers command
  | none => .refuse (.custom invalidInstruction) accounts

end AccountLedger.Token
