import AccountLedger.Logic
/-!
# Programs

A program has a key, limits, and a route for each of its instructions.  To process an invocation
is to take it from the host, decode it and bind its accounts (dispatching), to run the business
logic of its instruction (executing), and to settle what that left pending.  Any refusal or crash
on the way aborts the invocation, and then nothing is settled.
-/

namespace AccountLedger

/-- an instruction of a program: its layout, the form of its parameters, and what it does -/
structure Route where
  Params : Type
  layout : Layout
  codec : Codec Params
  process : Params → Logic Unit

namespace Route

/-- the data that calls the instruction with parameters -/
def data (r : Route) (p : r.Params) : Bytes := r.layout.discriminator ++ r.codec.write p

/-- the business logic for encoded parameters, which must be complete and alone -/
def decode (r : Route) (bs : Bytes) : Except Error (Logic Unit) :=
  match r.codec.readAll bs with
  | .ok p => .ok (r.process p)
  | .error fault => .error (.malformed (.parameters r.layout.instruction fault))

end Route

structure Program where
  key : Key
  limits : Limits
  routes : List Route

/-- how far an aborted invocation had come -/
inductive Stage where
  | dispatching
  | executing
deriving DecidableEq, Repr

inductive Outcome where
  | committed (receipt : Receipt)
  | aborted (stage : Stage) (error : Error)
deriving DecidableEq

/-- an invocation that is ready to execute -/
structure Started where
  logic : Logic Unit
  frame : Frame
  table : Table

namespace Program

/-- the route with a discriminator -/
def route? (p : Program) (discriminator : Bytes) : Option Route :=
  p.routes.find? (·.layout.discriminator = discriminator)

/-- the business logic and the table of an invocation, if it is one for this program -/
def start (p : Program) (executing : Key) (i : Invocation) : Except Error Started := do
  if i.program ≠ p.key ∨ executing ≠ p.key then
    throw (.malformed (.wrongProgram i.program p.key))
  checkSize instructionDataLabel i.data.length p.limits.instructionData
  if p.limits.accounts < i.entries.length then
    throw (.malformed (.accounts i.entries.length p.limits.accounts))
  if p.limits.stackHeight < i.height then
    throw (.callDepth i.height p.limits.stackHeight)
  if i.data.length < 8 then
    throw (.malformed (.noDiscriminator i.data.length))
  match p.route? (i.data.take 8) with
  | none => throw (.malformed (.unknownDiscriminator (i.data.take 8)))
  | some r =>
    let logic ← r.decode (i.data.drop 8)
    let table ← Table.bind p.key i.entries r.layout
    return { logic, table, frame := ⟨p.limits, p.key, i.height, i.callStack⟩ }

variable {σ : Type}

/-- takes the staged invocation and starts it -/
def dispatch (p : Program) (host : Host σ) (s : σ) : Except Error Started × σ :=
  match host.take s with
  | (.error e, s) => (.error (.host e), s)
  | (.ok i, s) => (p.start (host.executing s) i, s)

/-- the error of business logic that did not return -/
def abortError : Stop Error → Error
  | .refused e => e
  | .crashed c => .assertion (c.text?.getD "business logic panicked")

/-- settles what business logic left, if it returned -/
def finish (host : Host σ) (ending : Ending Unit) (scene : Scene σ) : Outcome × σ :=
  match ending with
  | .error stop => (.aborted .executing (abortError stop), scene.ledger)
  | .ok () =>
    match scene.table.commit host scene.ledger with
    | (.ok receipt, s) => (.committed receipt, s)
    | (.error e, s) => (.aborted .executing e, s)

/-- processes the staged invocation from beginning to end -/
def process (p : Program) (host : Host σ) (s : σ) : Outcome × σ :=
  match p.dispatch host s with
  | (.error e, s) => (.aborted .dispatching e, s)
  | (.ok started, s) =>
    let (ending, scene) := started.logic.run host started.frame ⟨s, started.table⟩
    finish host ending scene

end Program

end AccountLedger
