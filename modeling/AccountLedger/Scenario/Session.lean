import AccountLedger.Escrow.Program
import AccountLedger.Ledger.Change
import AccountLedger.Ledger.Override
import AccountLedger.Scenario.Effect
import AccountLedger.Scenario.Script
import AccountLedger.Swap.Program
import AccountLedger.Token.Fixture
/-!
# Sessions

A session works on one ledger: it sets up accounts and programs, stages invocations, has programs
process them, and looks at the result.  Every act ends in a report, a refusal of the host or a
crash, and leaves a ledger to go on with.
-/

namespace AccountLedger.Scenario

/-- a program that can process the staged invocation -/
inductive Server where
  | greeter
  | escrow
  | swap
  | script (key : Key) (limits : Limits) (specs : List Spec) (lines : List Line)

def Server.program : Server → Program
  | greeter => Greeter.program
  | escrow => Escrow.program
  | swap => Swap.program
  | script key limits specs lines => Script.program key limits specs lines

/-- one thing to do with a ledger -/
inductive Act where
  | addAccount (account : Account)
  | fund (key : Key) (units : UInt64)
  | deploy (key : Key)
  | withTokens
  | register (key : Key) (effects : List Effect) (refusal : Option HostError)
  | addMint (key : Key) (authority : Option Key) (supply : Amount)
  | addHolding (key mint owner : Key) (amount : Amount)
  | lay (override : Override)
  | account (key : Key)
  | mint (key : Key)
  | holding (key : Key)
  | minimumBalance (space : Nat)
  | findAddress (program : Key) (seeds : List String)
  | submit (instruction : Instruction) (height : Nat) (callStack : List Key)
  | take
  | process (server : Server)
  | invoke (instruction : Instruction) (accounts : List Account) (signers : List Key)
      (height : Nat)
  | settle (writes : List Write)

/-- what an act reports -/
inductive Report where
  | nothing
  | account (found : Option Account) (lamports : Amount)
  | mint (found : Option Token.Mint)
  | holding (found : Option Token.Holding)
  | amount (amount : Amount)
  | address (found : Option (Key × UInt8))
  | invocation (executing : Key) (invocation : Invocation)
  | outcome (outcome : Outcome)
  /-- the outcome of a script, with its trace if it was reached -/
  | traced (outcome : Outcome) (trace : Option Trace)
  /-- how an inner call ended, and the accounts that it changed -/
  | inner (result : Except HostError Unit) (changed : List (Nat × Account))

/-- a ledger, and the answers that are laid over its own -/
structure Session where
  ledger : Ledger := .start
  override : Override := {}

namespace Session

/-- the accounts that differ, with their positions -/
def changedSlots (before after : List Account) : List (Nat × Account) :=
  (after.zipIdx.filter fun (a, position) => before[position]? ≠ some a).map fun (a, position) =>
    (position, a)

/-- the report of an inner call, or its crash -/
def innerReport {n : Nat} (before : List Account) (reply : Reply n) :
    Except (Stop HostError) Report :=
  let changed := changedSlots before reply.accounts.toList
  match reply.result with
  | .ok () => .ok (.inner (.ok ()) changed)
  | .error (.refused e) => .ok (.inner (.error e) changed)
  | .error (.crashed c) => .error (.crashed c)

/-- the session with another ledger, or the crash that left the ledger as it was -/
def orCrash (s : Session) : Except Crash Ledger → Except (Stop HostError) Report × Session
  | .ok ledger => (.ok .nothing, { s with ledger })
  | .error c => (.error (.crashed c), s)

/-- the report of a program that processed the staged invocation -/
def served (s : Session) (server : Server) (outcome : Outcome) : Report :=
  match server with
  | .script _ _ _ lines =>
    .traced outcome (Script.trace server.program lines s.override.host s.ledger)
  | _ => .outcome outcome

/-- performs an act -/
def perform (s : Session) : Act → Except (Stop HostError) Report × Session
  | .addAccount account => (.ok .nothing, { s with ledger := s.ledger.addAccount account })
  | .fund key units => s.orCrash (s.ledger.fund key units)
  | .deploy key => (.ok .nothing, { s with ledger := s.ledger.deploy key })
  | .withTokens => (.ok .nothing, { s with ledger := s.ledger.withTokens })
  | .register key effects refusal =>
    (.ok .nothing, { s with ledger := s.ledger.register key (Effect.native effects refusal) })
  | .addMint key authority supply => s.orCrash (s.ledger.addMint key authority supply)
  | .addHolding key mint owner amount => s.orCrash (s.ledger.addHolding key mint owner amount)
  | .lay override => (.ok .nothing, { s with override })
  | .account key =>
    (.ok (.account (s.ledger.store.find? key) (s.ledger.store.lamports key)), s)
  | .mint key => (.ok (.mint (s.ledger.mint? key)), s)
  | .holding key => (.ok (.holding (s.ledger.holding? key)), s)
  | .minimumBalance space =>
    (((s.override.host.minimumBalance s.ledger space).map .amount).mapError .crashed, s)
  | .findAddress program seeds =>
    (.ok (.address (s.override.host.findAddress s.ledger seeds program)), s)
  | .submit i height callStack =>
    (.ok .nothing, { s with ledger := s.ledger.submitNested i height callStack })
  | .take =>
    let (result, ledger) := s.override.host.take s.ledger
    (match result with
      | .ok i => .ok (.invocation (s.override.host.executing ledger) i)
      | .error e => .error (.refused e), { s with ledger })
  | .process server =>
    let (outcome, ledger) := server.program.process s.override.host s.ledger
    (.ok (s.served server outcome), { s with ledger })
  | .invoke i accounts signers height =>
    let slots := accounts.toArray.toVector
    let (reply, ledger) := s.override.host.invoke s.ledger i slots signers height
    (innerReport accounts reply, { s with ledger })
  | .settle writes =>
    let (result, ledger) := s.override.host.settle s.ledger writes
    ((result.map fun _ => .nothing).mapError .refused, { s with ledger })

/-- an act as it went: its report, and what it changed in the ledger -/
structure Performed where
  result : Except (Stop HostError) Report
  change : Change

/-- performs acts one after another -/
def performAll : List Act → Session → List Performed × Session
  | [], s => ([], s)
  | act :: rest, s =>
    let (result, next) := s.perform act
    let (performed, last) := performAll rest next
    (⟨result, .between s.ledger next.ledger⟩ :: performed, last)

end Session

end AccountLedger.Scenario
