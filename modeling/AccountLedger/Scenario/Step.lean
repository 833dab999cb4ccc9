import AccountLedger.Scenario.Sample
import AccountLedger.Token.Call
/-!
# Steps

A step is one thing that business logic can do, written down as a value, so that a list of steps
is a piece of business logic that can be read from a file.  Each step has an answer.
-/

namespace AccountLedger.Scenario

/-- a handle, by name or by position -/
inductive Place where
  | named (name : String)
  | numbered (position : Nat)

/-- the position of a place; a position is taken as it is -/
def Place.position : Place → Logic Nat
  | named name => Logic.positionOf name
  | .numbered position => pure position

/-- one thing to do -/
inductive Step where
  | get (place : Place)
  | setLamports (place : Place) (amount : Amount)
  | read (place : Place) (kind : Kind)
  | save (place : Place) (sample : Sample)
  | indexOf (name : String)
  | positionOf (key : Key)
  | stats
  | createAt (payer target space : Nat) (owner : Key) (seeds : Option SignerSeeds) (rent : Amount)
  | create (payer target : String) (space : Nat) (owner : Key) (seeds : Option SignerSeeds)
  | invoke (target : Key) (refs : List Ref) (seeds : List SignerSeeds) (data : Bytes)
  | invokeInstruction (instruction : Instruction) (seeds : List SignerSeeds)
  | frame
  | keyOf (name : String)
  | minimumBalance (space : Nat)
  | findAddress (seeds : List String)
  | fail (code : UInt32)
  | require (condition : Bool) (code : Option UInt32)
  | requireEq (a b : Key) (code : Option UInt32)
  | raise (text : Option String)
  | tokenOpen (payer holding mint : Nat) (wallet : Key) (seeds : List SignerSeeds)
  | tokenClose (holding destination authority : Nat) (seeds : List SignerSeeds)
  | tokenAuthority (target authority : Nat) (code : UInt8) (successor : Option Key)
      (seeds : List SignerSeeds)
  | tokenTransfer (source destination authority : Nat) (amount : Amount)
      (seeds : List SignerSeeds)
  | tokenMint (mint destination authority : Nat) (amount : Amount) (seeds : List SignerSeeds)
  | tokenBurn (holding mint authority : Nat) (amount : Amount) (seeds : List SignerSeeds)
  | tokenAssociated (payer holding wallet mint : Nat) (idempotent : Bool)
      (seeds : List SignerSeeds)
  | mintAt (position : Nat)
  | holdingAt (position : Nat)

/-- a handle as it is shown: with its position, and whether it is the program's own -/
structure Shown where
  position : Nat
  handle : Handle
  owned : Bool
deriving DecidableEq

/-- what a step answers -/
inductive Answer where
  | nothing
  | handle (shown : Shown)
  | sample (sample : Sample)
  | index (position : Nat)
  | position (found : Option Nat)
  | stats (length dirty : Nat) (program : Key)
  | frame (program : Key) (height : Nat)
  | key (key : Key)
  | amount (amount : Amount)
  | address (address : Key) (bump : UInt8)
  | mint (mint : Token.Mint)
  | holding (holding : Token.Holding)

namespace Step

/-- the error of a condition that does not hold: a code, or else the text of the condition -/
def refusal (code : Option UInt32) (otherwise : Error) : Error :=
  match code with
  | some code => .custom code
  | none => otherwise

/-- business logic that has nothing to say -/
def quietly (logic : Logic Unit) : Logic Answer := do
  logic
  return .nothing

/-- the handle of a place -/
def getHandle (place : Place) : Logic Answer := do
  let position ← place.position
  let t ← Logic.table
  let h ← Logic.ofExcept (t.handle position)
  return .handle ⟨position, h, t.owns h⟩

/-- the record of a place -/
def readSample (place : Place) (kind : Kind) : Logic Answer := do
  let position ← place.position
  let value ← Logic.ofExcept ((← Logic.table).record kind.Carrier position)
  return .sample ⟨kind, value⟩

/-- fills the data of a place -/
def saveSample (place : Place) (sample : Sample) : Logic Unit := do
  let position ← place.position
  Logic.perform (.save position sample.kind.tag sample.payload)

/-- the business logic of a step -/
def logic : Step → Logic Answer
  | get place => getHandle place
  | setLamports place amount => quietly do
    Logic.perform (.setLamports (← place.position) amount)
  | read place kind => readSample place kind
  | save place sample => quietly (saveSample place sample)
  | indexOf name => do return .index (← Logic.positionOf name)
  | positionOf key => do return .position ((← Logic.table).positionOfKey? key)
  | stats => do
    let t ← Logic.table
    return .stats t.handles.length t.dirtyCount t.program
  | createAt payer target space owner seeds rent =>
    quietly (Logic.perform (.create payer target space owner seeds rent))
  | create payer target space owner seeds =>
    quietly (Logic.create payer target space owner seeds)
  | invoke target refs seeds data => quietly (Logic.perform (.invoke target refs seeds data))
  | invokeInstruction instruction seeds => quietly (Logic.invokeInstruction instruction seeds)
  | frame => do
    let view ← Logic.perform .look
    return .frame view.program view.height
  | keyOf name => do return .key (← Logic.keyOf name)
  | minimumBalance space => do return .amount (← Logic.minimumBalance space)
  | findAddress seeds => do
    let (address, bump) ← Logic.findAddress seeds
    return .address address bump
  | fail code => .fail (.custom code)
  | require condition code =>
    quietly (Logic.require condition (refusal code (.assertion "cond")))
  | requireEq a b code =>
    quietly (Logic.requireEq a b (refusal code (Logic.keysDiffer "a" "b" a b)))
  | raise text => .crash (.raised text)
  | tokenOpen payer holding mint wallet seeds =>
    quietly (Token.Call.openHolding payer holding mint wallet seeds)
  | tokenClose holding destination authority seeds =>
    quietly (Token.Call.close holding destination authority seeds)
  | tokenAuthority target authority code successor seeds => quietly do
    let kind ← Logic.ofExcept (Token.AuthorityKind.ofCode code)
    Token.Call.setAuthority target authority successor kind seeds
  | tokenTransfer source destination authority amount seeds =>
    quietly (Token.Call.transfer source destination authority amount seeds)
  | tokenMint mint destination authority amount seeds =>
    quietly (Token.Call.mintTo mint destination authority amount seeds)
  | tokenBurn holding mint authority amount seeds =>
    quietly (Token.Call.burn holding mint authority amount seeds)
  | tokenAssociated payer holding wallet mint idempotent seeds =>
    quietly (Token.Call.openAssociated payer holding wallet mint idempotent seeds)
  | mintAt position => do return .mint (← Token.Call.mintAt position)
  | holdingAt position => do return .holding (← Token.Call.holdingAt position)

end Step

/-! ## what a step changed -/

/-- all handles of a table as they are shown -/
def shownHandles (t : Table) : List Shown :=
  t.handles.zipIdx.map fun (h, position) => ⟨position, h, t.owns h⟩

/-- the handles that differ between two states of one table -/
def changedHandles (before after : Table) : List Shown :=
  (shownHandles after).filter fun s => before.handles[s.position]? ≠ some s.handle

end AccountLedger.Scenario
