import AccountLedger.Scenario.Session
/-!
# A table on the bench

A table that is bound to accounts outside any invocation, so that single operations on it can be
looked at.  In the end it is settled or discarded, and then it is gone.
-/

namespace AccountLedger.Scenario

/-- one thing to do with a table -/
inductive Deed where
  | step (step : Step)
  | pending
  | commit
  | discard

/-- what is known of a deed -/
inductive Finding where
  | step (answer : Except (Stop Error) Answer) (changed : List Shown)
  | pending (writes : Except Error (List Write))
  | committed (receipt : Except Error Receipt)
  /-- how many touched handles were dropped -/
  | discarded (count : Nat)
  /-- the table was gone before -/
  | gone

/-- a table, until it is settled or discarded, and the session that it works on -/
structure Bench where
  frame : Frame
  session : Session
  table : Option Table

namespace Bench

/-- a table on which one step was run, or an operation that ended it -/
def performOn (b : Bench) (t : Table) : Deed → Finding × Bench
  | .step step =>
    let (ending, scene) := step.logic.run b.session.override.host b.frame ⟨b.session.ledger, t⟩
    (.step ending (changedHandles t scene.table),
      { b with session := { b.session with ledger := scene.ledger }, table := some scene.table })
  | .pending => (.pending t.pending, b)
  | .commit =>
    let (receipt, ledger) := t.commit b.session.override.host b.session.ledger
    (.committed receipt, { b with session := { b.session with ledger }, table := none })
  | .discard => (.discarded t.dirtyCount, { b with table := none })

def perform (b : Bench) (deed : Deed) : Finding × Bench :=
  match b.table with
  | some t => b.performOn t deed
  | none => (.gone, b)

/-- a deed as it went: what was found, and what it changed in the ledger -/
structure Performed where
  finding : Finding
  change : Change

/-- performs deeds one after another -/
def performAll : List Deed → Bench → List Performed
  | [], _ => []
  | deed :: rest, b =>
    let (finding, next) := b.perform deed
    ⟨finding, .between b.session.ledger next.session.ledger⟩ :: performAll rest next

end Bench

end AccountLedger.Scenario
