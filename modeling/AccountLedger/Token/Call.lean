import AccountLedger.Logic
import AccountLedger.SystemProgram.Command
import AccountLedger.Token.Associated
import AccountLedger.Token.Command
/-!
# Calls to the token programs

Business logic calls the token programs with accounts of its table, named by position.  The
accounts of each instruction, the token program and, to make an account, the System Program must
stand in the table.  Keys are looked up in the order in which the arguments come, so the first
position that is not there is the one that is blamed.
-/

namespace AccountLedger.Token.Call

/-- makes and opens a holding for a wallet; seeds speak for the new account -/
def openHolding (payer holding mint : Nat) (wallet : Key) (seeds : List SignerSeeds) :
    Logic Unit := do
  let payerKey ← Logic.keyAt payer
  let holdingKey ← Logic.keyAt holding
  let mintKey ← Logic.keyAt mint
  let rent ← Logic.minimumBalance Holding.size
  Logic.invokeInstruction
    (SystemProgram.createAccount payerKey holdingKey rent (UInt64.ofNat Holding.size) program) seeds
  Logic.invokeInstruction (Token.openHolding holdingKey mintKey wallet) []

/-- closes a holding and sends its lamports to the destination -/
def close (holding destination authority : Nat) (seeds : List SignerSeeds) : Logic Unit := do
  let i := Token.close (← Logic.keyAt holding) (← Logic.keyAt destination) (← Logic.keyAt authority)
  Logic.invokeInstruction i seeds

/-- hands an authority on, or gives it up -/
def setAuthority (target authority : Nat) (successor : Option Key) (kind : AuthorityKind)
    (seeds : List SignerSeeds) : Logic Unit := do
  let targetKey ← Logic.keyAt target
  let authorityKey ← Logic.keyAt authority
  Logic.invokeInstruction (Token.setAuthority targetKey authorityKey kind successor) seeds

def transfer (source destination authority : Nat) (amount : Amount) (seeds : List SignerSeeds) :
    Logic Unit := do
  let i := Token.transfer (← Logic.keyAt source) (← Logic.keyAt destination)
    (← Logic.keyAt authority) amount
  Logic.invokeInstruction i seeds

def mintTo (mint destination authority : Nat) (amount : Amount) (seeds : List SignerSeeds) :
    Logic Unit := do
  let i := Token.mintTo (← Logic.keyAt mint) (← Logic.keyAt destination) (← Logic.keyAt authority)
    amount
  Logic.invokeInstruction i seeds

def burn (holding mint authority : Nat) (amount : Amount) (seeds : List SignerSeeds) :
    Logic Unit := do
  let i := Token.burn (← Logic.keyAt holding) (← Logic.keyAt mint) (← Logic.keyAt authority) amount
  Logic.invokeInstruction i seeds

/-- a result that may be a crash, as logic -/
def orCrash {α : Type} : Except Crash α → Logic α
  | .ok a => .done a
  | .error c => .crash c

/-- the refusal of an account that is not the associated one -/
def notAssociated (found wallet mint : Key) : Error :=
  .assertion s!"{found} is not the associated token account of {wallet} for {mint}"

/-- opens the associated holding of a wallet, or accepts an open one if `idempotent` -/
def openAssociated (payer holding wallet mint : Nat) (idempotent : Bool)
    (seeds : List SignerSeeds) : Logic Unit := do
  let payerKey ← Logic.keyAt payer
  let walletKey ← Logic.keyAt wallet
  let mintKey ← Logic.keyAt mint
  let expected ← orCrash (Associated.address walletKey mintKey)
  let holdingKey ← Logic.keyAt holding
  Logic.requireEq holdingKey expected (notAssociated holdingKey walletKey mintKey)
  Logic.invokeInstruction (Associated.create payerKey holdingKey walletKey mintKey idempotent) seeds

/-! ## reading -/

/-- the data of an account of the token program -/
def ownData (h : Handle) : Except SchemaFault Bytes :=
  if h.account.owner = program then .ok h.account.data
  else .error (.foreignOwner h.account.owner)

/-- the mint in the data of a handle -/
def mintIn (h : Handle) : Except SchemaFault Mint := do
  (Mint.unpack (← ownData h)).mapError (.notMint ·.message)

/-- the holding in the data of a handle -/
def holdingIn (h : Handle) : Except SchemaFault Holding := do
  (Holding.unpack (← ownData h)).mapError (.notTokenAccount ·.message)

/-- the mint at a position -/
def mintAt (position : Nat) : Logic Mint := do
  let h ← Logic.handleAt position
  Logic.ofExcept ((mintIn h).mapError (.schema position))

/-- the holding at a position -/
def holdingAt (position : Nat) : Logic Holding := do
  let h ← Logic.handleAt position
  Logic.ofExcept ((holdingIn h).mapError (.schema position))

/-- the mint under a name -/
def mintOf (name : String) : Logic Mint := do
  mintAt (← Logic.positionOf name)

/-- the holding under a name -/
def holdingOf (name : String) : Logic Holding := do
  holdingAt (← Logic.positionOf name)

end AccountLedger.Token.Call
