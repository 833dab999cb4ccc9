import AccountLedger.Settlement
import AccountLedger.Table.Creation
/-!
# Business logic

Business logic is a tree: it is done, it fails, it crashes, or it performs an operation on the
accounts of its invocation and goes on with the answer, which may be a refusal that it then
ignores.  Running the tree is the only way in which it touches the table and the host, so a
statement about all business logic is a statement about all trees.

* `run_bind`: a sequence of two pieces runs the first and, if it returns, the second.
-/

namespace AccountLedger

/-- what business logic sees without changing anything -/
structure View where
  program : Key
  height : Nat
  table : Table

/-- the operations of business logic -/
inductive Op where
  | look
  | minimumBalance (space : Nat)
  | findAddress (seeds : List String)
  | setLamports (position : Nat) (amount : Amount)
  | save (position : Nat) (expected : Tag) (payload : Bytes)
  | create (payer target space : Nat) (owner : Key) (seeds : Option SignerSeeds) (rent : Amount)
  | invoke (target : Key) (refs : List Ref) (seeds : List SignerSeeds) (data : Bytes)
  | invokeInstruction (instruction : Instruction) (seeds : List SignerSeeds)

/-- the answer to an operation that is not refused -/
abbrev Op.Answer : Op → Type
  | .look => View
  | .minimumBalance _ => Amount
  | .findAddress _ => Key × UInt8
  | _ => Unit

/-- the ledger and the table that business logic works on -/
structure Scene (σ : Type) where
  ledger : σ
  table : Table

namespace Op

variable {σ : Type}

/-- an operation that changes the table alone -/
def onTable (result : Except Error Table) (scene : Scene σ) :
    Except (Stop Error) Unit × Scene σ :=
  match result with
  | .ok table => (.ok (), { scene with table })
  | .error e => (.error (.refused e), scene)

/-- an inner call, with the table it returns -/
def onBoth (result : Except (Stop Error) Table × σ) (scene : Scene σ) :
    Except (Stop Error) Unit × Scene σ :=
  match result with
  | (.ok table, ledger) => (.ok (), ⟨ledger, table⟩)
  | (.error stop, ledger) => (.error stop, { scene with ledger })

/-- performs one operation -/
def run (host : Host σ) (f : Frame) (scene : Scene σ) :
    (op : Op) → Except (Stop Error) op.Answer × Scene σ
  | .look => (.ok ⟨f.program, f.height, scene.table⟩, scene)
  | .minimumBalance space =>
    ((host.minimumBalance scene.ledger space).mapError .crashed, scene)
  | .findAddress seeds =>
    match Address.checkLimits seeds with
    | .error e => (.error (.refused e), scene)
    | .ok () =>
      match host.findAddress scene.ledger seeds f.program with
      | some found => (.ok found, scene)
      | none => (.error (.refused .noValidBump), scene)
  | .setLamports position amount => onTable (scene.table.setLamports position amount) scene
  | .save position expected payload => onTable (scene.table.save position expected payload) scene
  | .create payer target space owner seeds rent =>
    let (result, table) := scene.table.create payer target space owner seeds rent
    (result, { scene with table })
  | .invoke target refs seeds data =>
    onBoth (InnerCall.invoke host f target refs seeds data scene.ledger scene.table) scene
  | .invokeInstruction instruction seeds =>
    onBoth (InnerCall.invokeInstruction host f instruction seeds scene.ledger scene.table) scene

end Op

/-! ## trees of operations -/

inductive Logic (α : Type) where
  | done (a : α)
  | fail (e : Error)
  | crash (c : Crash)
  | call (op : Op) (next : Except Error op.Answer → Logic α)

/-- how business logic ended -/
abbrev Ending (α : Type) := Except (Stop Error) α

namespace Logic

variable {α β : Type} {σ : Type}

def bind : Logic α → (α → Logic β) → Logic β
  | done a, k => k a
  | fail e, _ => fail e
  | crash c, _ => crash c
  | call op next, k => call op fun answer => (next answer).bind k

instance : Monad Logic where
  pure := done
  bind := bind

/-- performs an operation, and fails if it is refused -/
def perform (op : Op) : Logic op.Answer :=
  call op fun
    | .ok answer => done answer
    | .error e => fail e

/-- runs a piece of logic and goes on with its failure, if it fails, as a value -/
def attempt : Logic α → Logic (Except Error α)
  | done a => done (.ok a)
  | fail e => done (.error e)
  | crash c => crash c
  | call op next => call op fun answer => (next answer).attempt

/-- a result as logic -/
def ofExcept : Except Error α → Logic α
  | .ok a => done a
  | .error e => fail e

/-- runs business logic to its end -/
def run (host : Host σ) (f : Frame) : Logic α → Scene σ → Ending α × Scene σ
  | done a, scene => (.ok a, scene)
  | fail e, scene => (.error (.refused e), scene)
  | crash c, scene => (.error (.crashed c), scene)
  | call op next, scene =>
    match op.run host f scene with
    | (.ok answer, scene) => (next (.ok answer)).run host f scene
    | (.error (.refused e), scene) => (next (.error e)).run host f scene
    | (.error (.crashed c), scene) => (.error (.crashed c), scene)

/-! ## running a sequence -/

@[simp] theorem run_pure (host : Host σ) (f : Frame) (a : α) (scene : Scene σ) :
    (pure a : Logic α).run host f scene = (.ok a, scene) := rfl

@[simp] theorem run_fail (host : Host σ) (f : Frame) (e : Error) (scene : Scene σ) :
    (fail e : Logic α).run host f scene = (.error (.refused e), scene) := rfl

theorem run_bind (host : Host σ) (f : Frame) (m : Logic α) (k : α → Logic β) (scene : Scene σ) :
    (m >>= k).run host f scene =
      match m.run host f scene with
      | (.ok a, scene) => (k a).run host f scene
      | (.error stop, scene) => (.error stop, scene) := by
  change (m.bind k).run host f scene = _
  induction m generalizing scene with
  | done a => rfl
  | fail e => rfl
  | crash c => rfl
  | call op next ih =>
    simp only [bind, run]
    split
    · exact ih _ _
    · exact ih _ _
    · rfl

theorem run_perform (host : Host σ) (f : Frame) (op : Op) (scene : Scene σ) :
    (perform op).run host f scene = op.run host f scene := by
  simp only [perform, run]
  split <;> rename_i h <;> rw [h]

theorem run_attempt (host : Host σ) (f : Frame) (m : Logic α) (scene : Scene σ) :
    m.attempt.run host f scene =
      match m.run host f scene with
      | (.ok a, scene) => (.ok (.ok a), scene)
      | (.error (.refused e), scene) => (.ok (.error e), scene)
      | (.error (.crashed c), scene) => (.error (.crashed c), scene) := by
  induction m generalizing scene with
  | done a => rfl
  | fail e => rfl
  | crash c => rfl
  | call op next ih =>
    simp only [attempt, run]
    split
    · exact ih _ _
    · exact ih _ _
    · rfl

/-! ## everyday operations -/

/-- the table as it is now -/
def table : Logic Table := do
  let view ← perform .look
  return view.table

/-- the position of a name -/
def positionOf (name : String) : Logic Nat := do
  ofExcept ((← table).positionOf name)

/-- the handle at a position -/
def handleAt (position : Nat) : Logic Handle := do
  ofExcept ((← table).handle position)

/-- the key at a position -/
def keyAt (position : Nat) : Logic Key := do
  return (← handleAt position).key

/-- the handle of a name -/
def handleOf (name : String) : Logic Handle := do
  handleAt (← positionOf name)

/-- the key of a name -/
def keyOf (name : String) : Logic Key := do
  return (← handleOf name).key

/-- the record under a name -/
def record (α : Type) [Record α] (name : String) : Logic α := do
  let position ← positionOf name
  ofExcept ((← table).record α position)

/-- fills the data under a name with a record -/
def saveRecord {α : Type} [Record α] (name : String) (a : α) : Logic Unit := do
  let position ← positionOf name
  perform (.save position (Record.tag α) (Record.codec.write a))

/-- the balance that keeps an account of the given size -/
def minimumBalance (space : Nat) : Logic Amount := perform (.minimumBalance space)

/-- the derived address of the executing program's canonical bump -/
def findAddress (seeds : List String) : Logic (Key × UInt8) := perform (.findAddress seeds)

/-- makes the account under a name, paid for by another with the balance that keeps it -/
def create (payer target : String) (space : Nat) (owner : Key) (seeds : Option SignerSeeds) :
    Logic Unit := do
  let payer ← positionOf payer
  let target ← positionOf target
  let rent ← minimumBalance space
  perform (.create payer target space owner seeds rent)

/-- runs an instruction of another program -/
def invokeInstruction (i : Instruction) (seeds : List SignerSeeds) : Logic Unit :=
  perform (.invokeInstruction i seeds)

/-- fails with the error unless the condition holds -/
def require (condition : Bool) (e : Error) : Logic Unit := if condition then done () else fail e

/-- fails with the error unless the keys are equal -/
def requireEq (a b : Key) (e : Error) : Logic Unit := if a = b then done () else fail e

/-- the failure that names two keys that should have been equal -/
def keysDiffer (left right : String) (a b : Key) : Error :=
  .assertion s!"{left} != {right} ({a} vs {b})"

end Logic

end AccountLedger
