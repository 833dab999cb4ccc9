import AccountLedger.Instruction
import AccountLedger.Table.Binding
/-!
# Hosts

The host is the ledger's side of an invocation: it hands out the staged invocation, knows the
rent, looks up derived addresses, runs inner calls and settles writes.  A host is a record of
functions on a state of its own, so a statement about every host is a statement about all such
records.  It may refuse, or crash; the accounts that an inner call leaves behind are as many as it
was given.
-/

namespace AccountLedger

/-- an invocation as the host hands it out -/
structure Invocation where
  program : Key
  entries : List Entry
  data : Bytes
  /-- one for a call that no program made -/
  height : Nat
  /-- the programs of the enclosing frames, outermost first -/
  callStack : List Key
deriving DecidableEq

/-- the fields of one account that an invocation changes, with the position that changes them -/
structure Write where
  position : Nat
  key : Key
  lamports : Option Amount := none
  data : Option Bytes := none
  owner : Option Key := none
deriving DecidableEq

/-- the accounts of an inner call, each once -/
abbrev Slots (n : Nat) := Vector Account n

/-- how an inner call ended, and the accounts as it left them -/
structure Reply (n : Nat) where
  result : Except (Stop HostError) Unit
  accounts : Slots n

structure Host (σ : Type) where
  /-- the staged invocation, handed out once -/
  take : σ → Except HostError Invocation × σ
  /-- the program that is executing -/
  executing : σ → Key
  /-- the balance that keeps an account of the given size -/
  minimumBalance : σ → Nat → Except Crash Amount
  /-- runs an instruction on accounts, for signers, at a height -/
  invoke : σ → Instruction → {n : Nat} → Slots n → List Key → Nat → Reply n × σ
  /-- applies all writes in order, or none -/
  settle : σ → List Write → Except HostError Unit × σ
  /-- the derived address of the canonical bump, if the host knows one -/
  findAddress : σ → List String → Key → Option (Key × UInt8)

end AccountLedger
