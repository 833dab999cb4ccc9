import AccountLedger.Address
import AccountLedger.Ledger.Native
import AccountLedger.Rent
import AccountLedger.Token.Holding
/-!
# Associated holdings

For each wallet and mint one address is set apart: an address derived by a program of its own,
which opens a holding there for anyone who pays the rent.  The canonical bump lies between the
seeds and the program in the hash, as in every derivation.
-/

namespace AccountLedger.Token.Associated

variable {n : Nat}

/-- the program of associated holdings -/
def program : Key := .ofNat 0x8c97258f4e2489f1bb3d1029148e0d830b5a1399daff1084048e7bd8dbe9f859

/-- the bytes whose hash is tried as an associated address -/
def preimage (wallet mint : Key) (bump : UInt8) : Bytes :=
  wallet.bytes ++ Token.program.bytes ++ mint.bytes ++ [bump] ++ program.bytes ++ Address.marker

/-- the hash that is the associated address unless it is a point of the curve -/
def candidate (wallet mint : Key) (bump : UInt8) : Key :=
  ⟨Sha256.digest (preimage wallet mint bump), Sha256.length_digest _⟩

/-- where the holding of a wallet is set apart; that there is no address is a crash -/
def address (wallet mint : Key) : Except Crash Key :=
  match Address.search (candidate wallet mint) Address.bumps with
  | some (found, _) => .ok found
  | none => .error .noAddress

/-- the instruction that opens the holding, or accepts one that is open if `idempotent` -/
def create (payer holding wallet mint : Key) (idempotent : Bool) : Instruction where
  program := program
  metas := [⟨payer, true, true⟩, ⟨holding, false, true⟩, ⟨wallet, false, false⟩,
    ⟨mint, false, false⟩, ⟨.system, false, false⟩, ⟨Token.program, false, false⟩]
  data := [if idempotent then 1 else 0]

/-- what instruction data asks for: whether an open holding is accepted -/
def idempotent? : Bytes → Except ProgramError Bool
  | [] => .ok false
  | b :: _ =>
    if b = 0 then .ok false else if b = 1 then .ok true else .error .invalidInstructionData

/-- the keys of an instruction that its payer signed -/
structure Order where
  idempotent : Bool
  payer : Key
  holding : Key
  wallet : Key
  mint : Key

def readOrder (i : Instruction) (signers : List Key) : Except ProgramError Order := do
  let idempotent ← idempotent? i.data
  let payer ← i.keyAt 0
  let holding ← i.keyAt 1
  let wallet ← i.keyAt 2
  let mint ← i.keyAt 3
  requireSigner signers payer
  return { idempotent, payer, holding, wallet, mint }

/-- the account holds tokens of the mint for the wallet already -/
def isOpen (a : Account) (wallet mint : Key) : Bool :=
  a.owner = Token.program &&
    match Holding.unpack a.data with
    | .ok h => h.owner = wallet && h.mint = mint
    | .error _ => false

/-- an account that was vacant, as a holding that is paid for -/
def openedAt (a : Account) (wallet mint : Key) (rent : Amount) : Account :=
  { a with
    lamports := rent
    owner := Token.program
    data := (Holding.opened mint wallet 0 []).pack }

/-- opens the holding where the order wants it, which is the associated address -/
def fulfil (o : Order) (accounts : Slots n) (rent : Amount) : Except ProgramError (Slots n) := do
  let payer ← accounts.position o.payer
  let holding ← accounts.position o.holding
  let mint ← accounts.position o.mint
  let _ ← Mint.unpack (accounts.get mint).data
  if !(accounts.get holding).isVacant then
    if o.idempotent && isOpen (accounts.get holding) o.wallet o.mint then return accounts
    throw .alreadyInitialized
  match (accounts.get payer).lamports.debit? rent with
  | none => throw .insufficientFunds
  | some rest =>
    let accounts := accounts.put payer { accounts.get payer with lamports := rest }
    return accounts.put holding (openedAt (accounts.get holding) o.wallet o.mint rent)

/-- runs an instruction of the program of associated holdings -/
def native : Native := fun _ i _ accounts signers =>
  .afterChecks accounts (readOrder i signers) fun o =>
    match address o.wallet o.mint, Rent.minimum Holding.size with
    | .error c, _ => .crash c accounts
    | _, .error c => .crash c accounts
    | .ok expected, .ok rent =>
      if o.holding ≠ expected then .refuse .invalidSeeds accounts
      else .ofChanged accounts (fulfil o accounts rent)

end AccountLedger.Token.Associated
