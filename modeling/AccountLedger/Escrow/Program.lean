import AccountLedger.Escrow.Terms
import AccountLedger.Program
import AccountLedger.Token.Call
/-!
# The escrow

The initializer opens an escrow: the terms are recorded, the vault is made and the deposit is
moved there.  A taker completes it by paying what was asked, or the initializer cancels it; either
way the vault is emptied and closed.  The terms stay on record.
-/

namespace AccountLedger.Escrow

open Token.Call (holdingOf mintOf)

/-! ## opening -/

structure Opening where
  vaultBump : UInt8
  offered : Amount
  asked : Amount

def Opening.codec : Codec Opening :=
  (Codec.byte.pair (Codec.amount.pair Codec.amount)).iso
    (fun (vaultBump, offered, asked) => ⟨vaultBump, offered, asked⟩)
    (fun o => (o.vaultBump, o.offered, o.asked)) (fun _ => rfl) (fun _ => rfl)

def openLayout : Layout where
  instruction := "initialize"
  specs := [
    .account "initializer" .writingSigner,
    .account "mint" .readonly,
    .account "vault" .writing,
    .account "initializer_deposit" .writing,
    .account "initializer_receive" .readonly,
    .making Terms "escrow" .writingSigner,
    .program "system_program",
    .program "token_program"]

/-- the deposit is the initializer's, of the right mint, and covers the offer -/
def checkDeposit (o : Opening) (initializer mint : Key) : Logic Unit := do
  let _ ← mintOf "mint"
  let deposit ← holdingOf "initializer_deposit"
  Logic.requireEq deposit.mint mint Refusal.mintMismatch.toError
  Logic.requireEq deposit.owner initializer Refusal.depositOwnerMismatch.toError
  Logic.require (o.offered ≤ deposit.amount) Refusal.insufficientDeposit.toError
  let _ ← holdingOf "initializer_receive"

/-- puts the terms on record -/
def recordTerms (o : Opening) (initializer : Key) : Logic Unit := do
  Logic.create "initializer" "escrow" (Record.space Terms) key none
  let deposit ← Logic.keyOf "initializer_deposit"
  let receive ← Logic.keyOf "initializer_receive"
  let terms : Terms := { initializer, deposit, receive, offered := o.offered, asked := o.asked }
  Logic.saveRecord "escrow" terms

/-- makes the vault and moves the deposit there -/
def fillVault (o : Opening) : Logic Unit := do
  let (authority, _) ← Logic.findAddress [authoritySeed]
  let payer ← Logic.positionOf "initializer"
  let vault ← Logic.positionOf "vault"
  let mint ← Logic.positionOf "mint"
  Token.Call.openHolding payer vault mint authority [⟨[vaultSeed], o.vaultBump⟩]
  let deposit ← Logic.positionOf "initializer_deposit"
  Token.Call.transfer deposit vault payer o.offered []

def openEscrow (o : Opening) : Logic Unit := do
  Logic.require (0 < o.offered && 0 < o.asked) Refusal.zeroAmount.toError
  let initializer ← Logic.keyOf "initializer"
  let mint ← Logic.keyOf "mint"
  checkDeposit o initializer mint
  recordTerms o initializer
  fillVault o

/-! ## ending -/

/-- the account under a name is the recorded one -/
def requireRecorded (name : String) (recorded : Key) : Logic Unit := do
  Logic.requireEq (← Logic.keyOf name) recorded Refusal.escrowMismatch.toError

/-- the account under the name of the vault is the vault -/
def requireVault : Logic Unit := do
  let (expected, _) ← Logic.findAddress [vaultSeed]
  requireRecorded "vault" expected

/-- empties the vault into a holding and closes it in favour of the initializer -/
def releaseVault (destination : String) (authorityBump : UInt8) (amount : Amount) : Logic Unit := do
  let vault ← Logic.positionOf "vault"
  let receiver ← Logic.positionOf destination
  let initializer ← Logic.positionOf "initializer"
  let authority ← Logic.positionOf "vault_authority"
  let seeds : List SignerSeeds := [⟨[authoritySeed], authorityBump⟩]
  Token.Call.transfer vault receiver authority amount seeds
  Token.Call.close vault initializer authority seeds

def exchangeLayout : Layout where
  instruction := "exchange"
  specs := [
    .account "taker" .signing,
    .account "taker_deposit" .writing,
    .account "taker_receive" .writing,
    .account "initializer" .writing,
    .account "initializer_deposit" .writing,
    .account "initializer_receive" .writing,
    .holding Terms "escrow" .writing,
    .account "vault" .writing,
    .account "vault_authority" .readonly,
    .program "token_program"]

/-- a taker pays what was asked and receives what was offered -/
def exchange (authorityBump : UInt8) : Logic Unit := do
  let terms ← Logic.record Terms "escrow"
  requireRecorded "initializer" terms.initializer
  requireRecorded "initializer_deposit" terms.deposit
  requireRecorded "initializer_receive" terms.receive
  requireVault
  let payment ← Logic.positionOf "taker_deposit"
  let receive ← Logic.positionOf "initializer_receive"
  let taker ← Logic.positionOf "taker"
  Token.Call.transfer payment receive taker terms.asked []
  releaseVault "taker_receive" authorityBump terms.offered

def cancelLayout : Layout where
  instruction := "cancel"
  specs := [
    .account "initializer" .writingSigner,
    .account "initializer_deposit" .writing,
    .account "vault" .writing,
    .account "vault_authority" .readonly,
    .holding Terms "escrow" .writing,
    .program "token_program"]

/-- the initializer takes the deposit back -/
def cancel (authorityBump : UInt8) : Logic Unit := do
  let terms ← Logic.record Terms "escrow"
  requireRecorded "initializer" terms.initializer
  requireRecorded "initializer_deposit" terms.deposit
  requireVault
  releaseVault "initializer_deposit" authorityBump terms.offered

/-! ## the program -/

def openRoute : Route where
  Params := Opening
  layout := openLayout
  codec := Opening.codec
  process := openEscrow

def exchangeRoute : Route where
  Params := UInt8
  layout := exchangeLayout
  codec := .byte
  process := exchange

def cancelRoute : Route where
  Params := UInt8
  layout := cancelLayout
  codec := .byte
  process := cancel

def program : Program where
  key
  limits := {}
  routes := [openRoute, exchangeRoute, cancelRoute]

end AccountLedger.Escrow
