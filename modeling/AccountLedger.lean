import AccountLedger.Access
import AccountLedger.Account
import AccountLedger.Address
import AccountLedger.Amount
import AccountLedger.Bounds
import AccountLedger.Bytes
import AccountLedger.Codec
import AccountLedger.Crash
import AccountLedger.Curve
import AccountLedger.Error
import AccountLedger.Escrow.Program
import AccountLedger.Escrow.Terms
import AccountLedger.Greeter
import AccountLedger.Handle
import AccountLedger.Host
import AccountLedger.InnerCall
import AccountLedger.Instruction
import AccountLedger.Key
import AccountLedger.Layout
import AccountLedger.Ledger
import AccountLedger.Ledger.Change
import AccountLedger.Ledger.Native
import AccountLedger.Ledger.Override
import AccountLedger.Ledger.Store
import AccountLedger.Limits
import AccountLedger.Limits.Document
import AccountLedger.Logic
import AccountLedger.Program
import AccountLedger.Proofs.Address.Canonical
import AccountLedger.Proofs.Address.Scope
import AccountLedger.Proofs.Aliases
import AccountLedger.Proofs.Atomicity
import AccountLedger.Proofs.Batch
import AccountLedger.Proofs.Binding
import AccountLedger.Proofs.BuiltIn
import AccountLedger.Proofs.Calling
import AccountLedger.Proofs.Carried
import AccountLedger.Proofs.Committed
import AccountLedger.Proofs.Conservation
import AccountLedger.Proofs.Contract
import AccountLedger.Proofs.Creation
import AccountLedger.Proofs.Digest
import AccountLedger.Proofs.Dispatch
import AccountLedger.Proofs.Draft
import AccountLedger.Proofs.Edits
import AccountLedger.Proofs.Escrow.Authority
import AccountLedger.Proofs.Escrow.Custody
import AccountLedger.Proofs.Escrow.Ending
import AccountLedger.Proofs.Escrow.Exchange
import AccountLedger.Proofs.Escrow.Locked
import AccountLedger.Proofs.Escrow.Opening
import AccountLedger.Proofs.Escrow.Undo
import AccountLedger.Proofs.Executable
import AccountLedger.Proofs.Faithful
import AccountLedger.Proofs.Folded
import AccountLedger.Proofs.Founding
import AccountLedger.Proofs.Greetings
import AccountLedger.Proofs.Guards
import AccountLedger.Proofs.History
import AccountLedger.Proofs.InnerCall
import AccountLedger.Proofs.Instructions
import AccountLedger.Proofs.Lamports
import AccountLedger.Proofs.Landing
import AccountLedger.Proofs.Making
import AccountLedger.Proofs.Mirror
import AccountLedger.Proofs.Moves
import AccountLedger.Proofs.Naming
import AccountLedger.Proofs.Operation
import AccountLedger.Proofs.Performed
import AccountLedger.Proofs.Privilege
import AccountLedger.Proofs.Process
import AccountLedger.Proofs.Records
import AccountLedger.Proofs.Returns
import AccountLedger.Proofs.Seats
import AccountLedger.Proofs.Services
import AccountLedger.Proofs.Slots
import AccountLedger.Proofs.Stranded
import AccountLedger.Proofs.Superseded
import AccountLedger.Proofs.Swap.Actions
import AccountLedger.Proofs.Swap.Backing
import AccountLedger.Proofs.Swap.Filled
import AccountLedger.Proofs.Swap.Isolation
import AccountLedger.Proofs.Swap.Lasting
import AccountLedger.Proofs.Swap.Payout
import AccountLedger.Proofs.Swap.Priced
import AccountLedger.Proofs.Swap.Prices
import AccountLedger.Proofs.Swap.Redeemed
import AccountLedger.Proofs.Swap.Redeeming
import AccountLedger.Proofs.Swap.Root
import AccountLedger.Proofs.Swap.RoundTrip
import AccountLedger.Proofs.Swap.Turns
import AccountLedger.Proofs.Swap.Vaults
import AccountLedger.Proofs.SystemProgram.Authority
import AccountLedger.Proofs.Tags
import AccountLedger.Proofs.Token.Commands
import AccountLedger.Proofs.Token.Counterfeit
import AccountLedger.Proofs.Token.Fates
import AccountLedger.Proofs.Token.Guarded
import AccountLedger.Proofs.Token.Losses
import AccountLedger.Proofs.Token.Moved
import AccountLedger.Proofs.Token.Opening
import AccountLedger.Proofs.Token.Reopening
import AccountLedger.Proofs.Token.Supply
import AccountLedger.Proofs.Ungranted
import AccountLedger.Proofs.Wide
import AccountLedger.Proofs.Wire
import AccountLedger.Rent
import AccountLedger.Scenario.Bench
import AccountLedger.Scenario.Effect
import AccountLedger.Scenario.Sample
import AccountLedger.Scenario.Script
import AccountLedger.Scenario.Session
import AccountLedger.Scenario.Step
import AccountLedger.Schema
import AccountLedger.Settlement
import AccountLedger.Sha256
import AccountLedger.Swap.Pool
import AccountLedger.Swap.Pricing
import AccountLedger.Swap.Program
import AccountLedger.SystemProgram.Command
import AccountLedger.SystemProgram.Native
import AccountLedger.Table
import AccountLedger.Table.Binding
import AccountLedger.Table.Creation
import AccountLedger.Text.Blank
import AccountLedger.Text.Hidden
import AccountLedger.Text.Quoted
import AccountLedger.Text.Utf8
import AccountLedger.Token.Associated
import AccountLedger.Token.Call
import AccountLedger.Token.Clearable
import AccountLedger.Token.Command
import AccountLedger.Token.Fixture
import AccountLedger.Token.Holding
import AccountLedger.Token.Mint
import AccountLedger.Token.Native
import AccountLedger.Toml.Document
import AccountLedger.Toml.Scalar
import AccountLedger.Toml.Table
