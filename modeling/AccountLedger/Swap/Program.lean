import AccountLedger.Program
import AccountLedger.Swap.Pool
import AccountLedger.Token.Call
/-!
# The swap program

A creator opens a pool for two mints and hands the liquidity mint over to it.  Depositors add both
tokens and receive liquidity, traders swap the first token for the second, and whoever burns
liquidity withdraws that share of both vaults.  The creator may close vaults that are empty.
-/

namespace AccountLedger.Swap

open Token.Call (holdingOf mintOf)

/-! ## what the operations share -/

/-- the account under a name is the recorded one -/
def requireRecorded (name : String) (recorded : Key) : Logic Unit := do
  Logic.requireEq (← Logic.keyOf name) recorded Refusal.poolMismatch.toError

/-- the vaults are those of the pool -/
def requireVaults (pool : Pool) : Logic Unit := do
  requireRecorded "token_a_vault" pool.vaultA
  requireRecorded "token_b_vault" pool.vaultB

/-- the liquidity mint is that of the pool -/
def requireLiquidityMint (pool : Pool) : Logic Unit :=
  requireRecorded "mint_liquidity" pool.liquidityMint

/-- a price as logic -/
def priced (price : Except PriceFault Amount) : Logic Amount :=
  .ofExcept (price.mapError PriceFault.toError)

/-- moves tokens between the holdings of two names -/
def move (source destination : String) (authority : Nat) (amount : Amount)
    (seeds : List SignerSeeds) : Logic Unit := do
  let sourceAt ← Logic.positionOf source
  let destinationAt ← Logic.positionOf destination
  Token.Call.transfer sourceAt destinationAt authority amount seeds

/-! ## creating a pool -/

def createLayout : Layout where
  instruction := "create_pool"
  specs := [
    .account "creator" .writingSigner,
    .account "mint_a" .readonly,
    .account "mint_b" .readonly,
    .account "mint_liquidity" .writing,
    .account "token_a_vault" .writingSigner,
    .account "token_b_vault" .writingSigner,
    .making Pool "pool_info" .writingSigner,
    .program "system_program",
    .program "token_program"]

/-- two different mints, and a liquidity mint that is fresh and the creator's -/
def checkMints (creator mintA mintB : Key) : Logic Unit := do
  Logic.require (mintA ≠ mintB) Refusal.sameMint.toError
  let _ ← mintOf "mint_a"
  let _ ← mintOf "mint_b"
  let liquidity ← mintOf "mint_liquidity"
  Logic.require (liquidity.supply = 0 && liquidity.authority.get? = some creator)
    Refusal.mintNotFresh.toError

/-- puts the accounts of the pool on record -/
def recordPool (creator mintA mintB : Key) : Logic Unit := do
  Logic.create "creator" "pool_info" (Record.space Pool) key none
  let vaultA ← Logic.keyOf "token_a_vault"
  let vaultB ← Logic.keyOf "token_b_vault"
  let liquidityMint ← Logic.keyOf "mint_liquidity"
  let pool : Pool := { creator, mintA, mintB, vaultA, vaultB, liquidityMint }
  Logic.saveRecord "pool_info" pool

/-- makes a vault for a mint -/
def openVault (vault mint : String) (authority : Key) : Logic Unit := do
  let payer ← Logic.positionOf "creator"
  let vaultAt ← Logic.positionOf vault
  let mintAt ← Logic.positionOf mint
  Token.Call.openHolding payer vaultAt mintAt authority []

def createPool (_ : Unit) : Logic Unit := do
  let creator ← Logic.keyOf "creator"
  let mintA ← Logic.keyOf "mint_a"
  let mintB ← Logic.keyOf "mint_b"
  checkMints creator mintA mintB
  recordPool creator mintA mintB
  let (vaultAuthority, _) ← Logic.findAddress [vaultSeed]
  let (mintAuthority, _) ← Logic.findAddress [liquiditySeed]
  openVault "token_a_vault" "mint_a" vaultAuthority
  openVault "token_b_vault" "mint_b" vaultAuthority
  let payer ← Logic.positionOf "creator"
  let liquidityAt ← Logic.positionOf "mint_liquidity"
  Token.Call.setAuthority liquidityAt payer (some mintAuthority) .mintTokens []

/-! ## depositing -/

structure Deposit where
  amountA : Amount
  amountB : Amount
  mintBump : UInt8

def Deposit.codec : Codec Deposit :=
  (Codec.amount.pair (Codec.amount.pair Codec.byte)).iso
    (fun (amountA, amountB, mintBump) => ⟨amountA, amountB, mintBump⟩)
    (fun d => (d.amountA, d.amountB, d.mintBump)) (fun _ => rfl) (fun _ => rfl)

def depositLayout : Layout where
  instruction := "deposit"
  specs := [
    .account "depositor" .writingSigner,
    .account "mint_liquidity" .writing,
    .account "mint_lp_auth" .readonly,
    .account "token_a" .writing,
    .account "token_b" .writing,
    .account "token_liquidity" .writing,
    .account "token_a_vault" .writing,
    .account "token_b_vault" .writing,
    .holding Pool "pool_info" .readonly,
    .program "system_program",
    .program "token_program",
    .program "associated_token_program"]

/-- The liquidity that a deposit is worth.  The first depositor sets the price; later ones are paid
for the side that adds less. -/
def liquidityFor (d : Deposit) (supply : Amount) : Logic Amount := do
  if supply = 0 then return firstLiquidity d.amountA d.amountB
  let reserveA := (← holdingOf "token_a_vault").amount
  let reserveB := (← holdingOf "token_b_vault").amount
  let sideA ← priced (share d.amountA supply reserveA)
  let sideB ← priced (share d.amountB supply reserveB)
  return min sideA sideB

def deposit (d : Deposit) : Logic Unit := do
  Logic.require (0 < d.amountA && 0 < d.amountB) Refusal.zeroAmount.toError
  let pool ← Logic.record Pool "pool_info"
  requireVaults pool
  requireLiquidityMint pool
  let supply := (← mintOf "mint_liquidity").supply
  let liquidity ← liquidityFor d supply
  Logic.require (0 < liquidity) Refusal.zeroLiquidity.toError
  let depositor ← Logic.positionOf "depositor"
  let mintAt ← Logic.positionOf "mint_liquidity"
  let receiverAt ← Logic.positionOf "token_liquidity"
  Token.Call.openAssociated depositor receiverAt depositor mintAt true []
  move "token_a" "token_a_vault" depositor d.amountA []
  move "token_b" "token_b_vault" depositor d.amountB []
  let authority ← Logic.positionOf "mint_lp_auth"
  Token.Call.mintTo mintAt receiverAt authority liquidity [⟨[liquiditySeed], d.mintBump⟩]

/-! ## trading -/

structure Trade where
  amountA : Amount
  /-- the least that the trader accepts -/
  expectedB : Amount
  vaultBump : UInt8

def Trade.codec : Codec Trade :=
  (Codec.amount.pair (Codec.amount.pair Codec.byte)).iso
    (fun (amountA, expectedB, vaultBump) => ⟨amountA, expectedB, vaultBump⟩)
    (fun t => (t.amountA, t.expectedB, t.vaultBump)) (fun _ => rfl) (fun _ => rfl)

def tradeLayout : Layout where
  instruction := "trade"
  specs := [
    .account "trader" .writingSigner,
    .account "token_a" .writing,
    .account "token_b" .writing,
    .account "token_a_vault" .writing,
    .account "token_b_vault" .writing,
    .account "vault_authority" .readonly,
    .holding Pool "pool_info" .readonly,
    .program "token_program"]

def trade (t : Trade) : Logic Unit := do
  Logic.require (0 < t.amountA) Refusal.zeroAmount.toError
  let pool ← Logic.record Pool "pool_info"
  requireVaults pool
  let reserveA := (← holdingOf "token_a_vault").amount
  let reserveB := (← holdingOf "token_b_vault").amount
  Logic.require (0 < reserveA && 0 < reserveB) Refusal.zeroLiquidity.toError
  let amountB ← priced (payout reserveA reserveB t.amountA)
  Logic.require (0 < amountB && t.expectedB ≤ amountB) Refusal.slippageExceeded.toError
  let trader ← Logic.positionOf "trader"
  let authority ← Logic.positionOf "vault_authority"
  move "token_a" "token_a_vault" trader t.amountA []
  move "token_b_vault" "token_b" authority amountB [⟨[vaultSeed], t.vaultBump⟩]

/-! ## withdrawing -/

structure Withdrawal where
  amount : Amount
  vaultBump : UInt8

def Withdrawal.codec : Codec Withdrawal :=
  (Codec.amount.pair Codec.byte).iso (fun (amount, vaultBump) => ⟨amount, vaultBump⟩)
    (fun w => (w.amount, w.vaultBump)) (fun _ => rfl) (fun _ => rfl)

def withdrawLayout : Layout where
  instruction := "withdraw"
  specs := [
    .account "depositor" .writingSigner,
    .account "mint_liquidity" .writing,
    .account "token_a" .writing,
    .account "token_b" .writing,
    .account "token_liquidity" .writing,
    .account "token_a_vault" .writing,
    .account "token_b_vault" .writing,
    .account "vault_authority" .readonly,
    .holding Pool "pool_info" .readonly,
    .program "token_program"]

/-- the depositor holds the liquidity that is to be burnt -/
def checkHeld (w : Withdrawal) (pool : Pool) : Logic Unit := do
  let held ← holdingOf "token_liquidity"
  Logic.requireEq held.mint pool.liquidityMint Refusal.poolMismatch.toError
  Logic.require (w.amount ≤ held.amount) Refusal.insufficientLiquidity.toError

def withdraw (w : Withdrawal) : Logic Unit := do
  Logic.require (0 < w.amount) Refusal.zeroAmount.toError
  let pool ← Logic.record Pool "pool_info"
  requireVaults pool
  requireLiquidityMint pool
  checkHeld w pool
  let supply := (← mintOf "mint_liquidity").supply
  let reserveA := (← holdingOf "token_a_vault").amount
  let reserveB := (← holdingOf "token_b_vault").amount
  let amountA ← priced (share reserveA w.amount supply)
  let amountB ← priced (share reserveB w.amount supply)
  let depositor ← Logic.positionOf "depositor"
  let authority ← Logic.positionOf "vault_authority"
  let seeds : List SignerSeeds := [⟨[vaultSeed], w.vaultBump⟩]
  move "token_a_vault" "token_a" authority amountA seeds
  move "token_b_vault" "token_b" authority amountB seeds
  let mintAt ← Logic.positionOf "mint_liquidity"
  let heldAt ← Logic.positionOf "token_liquidity"
  Token.Call.burn heldAt mintAt depositor w.amount []

/-! ## closing a pool -/

def closeLayout : Layout where
  instruction := "close_pool"
  specs := [
    .account "creator" .writingSigner,
    .account "token_a_vault" .writing,
    .account "token_b_vault" .writing,
    .account "vault_authority" .readonly,
    .holding Pool "pool_info" .readonly,
    .program "token_program"]

/-- a vault holds nothing -/
def requireEmpty (vault : String) : Logic Unit := do
  let held ← holdingOf vault
  Logic.require (held.amount = 0) Refusal.poolNotEmpty.toError

/-- closes a vault in favour of the creator -/
def closeVault (vault : String) (seeds : List SignerSeeds) : Logic Unit := do
  let creator ← Logic.positionOf "creator"
  let authority ← Logic.positionOf "vault_authority"
  let vaultAt ← Logic.positionOf vault
  Token.Call.close vaultAt creator authority seeds

def closePool (vaultBump : UInt8) : Logic Unit := do
  let pool ← Logic.record Pool "pool_info"
  requireRecorded "creator" pool.creator
  requireVaults pool
  requireEmpty "token_a_vault"
  requireEmpty "token_b_vault"
  let seeds : List SignerSeeds := [⟨[vaultSeed], vaultBump⟩]
  closeVault "token_a_vault" seeds
  closeVault "token_b_vault" seeds

/-! ## the program -/

def createRoute : Route where
  Params := Unit
  layout := createLayout
  codec := .unit
  process := createPool

def depositRoute : Route where
  Params := Deposit
  layout := depositLayout
  codec := Deposit.codec
  process := deposit

def tradeRoute : Route where
  Params := Trade
  layout := tradeLayout
  codec := Trade.codec
  process := trade

def withdrawRoute : Route where
  Params := Withdrawal
  layout := withdrawLayout
  codec := Withdrawal.codec
  process := withdraw

def closeRoute : Route where
  Params := UInt8
  layout := closeLayout
  codec := .byte
  process := closePool

def program : Program where
  key
  limits := {}
  routes := [createRoute, depositRoute, tradeRoute, withdrawRoute, closeRoute]

end AccountLedger.Swap
