import AccountLedger.Program
import AccountLedger.Scenario.Step
/-!
# Scripts

A script is a program with one instruction whose business logic is a list of steps.  A refusal
ends it, unless the step is one whose refusals are ignored.  Following a script step by step gives
a trace of the answers and of the handles that each step changed; a step that crashes leaves no
entry.

* `run_logic`: following a script is running it.
-/

namespace AccountLedger.Scenario

/-- what the instruction of a script is called with -/
structure Params where
  value : UInt64
  label : ShortText
  flag : Bool

def Params.codec : Codec Params :=
  (Codec.amount.pair (Codec.text.pair Codec.flag)).iso
    (fun (value, label, flag) => ⟨value, label, flag⟩) (fun p => (p.value, p.label, p.flag))
    (fun _ => rfl) (fun _ => rfl)

/-- a step, and whether its refusal is ignored -/
structure Line where
  step : Step
  lenient : Bool

/-- what is known of a step that was run -/
structure Entry where
  answer : Except Error Answer
  changed : List Shown

/-- a script as it was followed -/
structure Followed (σ : Type) where
  entries : List Entry
  ending : Ending Unit
  scene : Scene σ

namespace Script

variable {σ : Type}

/-- the business logic of a line -/
def lineLogic (line : Line) : Logic Unit :=
  if line.lenient then do
    let _ ← line.step.logic.attempt
  else do
    let _ ← line.step.logic

/-- the business logic of a list of lines -/
def logic : List Line → Logic Unit
  | [] => pure ()
  | line :: rest => do
    lineLogic line
    logic rest

/-- the entry of a step between two states of the table -/
def entryOf (answer : Except Error Answer) (before after : Scene σ) : Entry :=
  ⟨answer, changedHandles before.table after.table⟩

/-- follows a list of lines -/
def follow (host : Host σ) (f : Frame) : List Line → Scene σ → Followed σ
  | [], scene => ⟨[], .ok (), scene⟩
  | line :: rest, before =>
    match line.step.logic.run host f before with
    | (.ok answer, after) =>
      let followed := follow host f rest after
      { followed with entries := entryOf (.ok answer) before after :: followed.entries }
    | (.error (.refused e), after) =>
      let entry := entryOf (.error e) before after
      if line.lenient then
        let followed := follow host f rest after
        { followed with entries := entry :: followed.entries }
      else ⟨[entry], .error (.refused e), after⟩
    | (.error (.crashed c), after) => ⟨[], .error (.crashed c), after⟩

theorem run_logic (host : Host σ) (f : Frame) (lines : List Line) (scene : Scene σ) :
    (logic lines).run host f scene =
      ((follow host f lines scene).ending, (follow host f lines scene).scene) := by
  induction lines generalizing scene with
  | nil => rfl
  | cons line rest ih =>
    have hline (after : Scene σ) : (pure () : Logic Unit).run host f after = (.ok (), after) := rfl
    cases hl : line.lenient with
    | true =>
      simp only [logic, lineLogic, follow, hl, if_true, Logic.run_bind, Logic.run_attempt]
      generalize line.step.logic.run host f scene = r
      obtain ⟨(e | c) | a, after⟩ := r <;> simp [hline, ih]
    | false =>
      simp only [logic, lineLogic, follow, hl, Bool.false_eq_true, if_false, Logic.run_bind]
      generalize line.step.logic.run host f scene = r
      obtain ⟨(e | c) | a, after⟩ := r <;> simp [hline, ih]

/-! ## the program of a script -/

/-- a program whose only instruction is a script over these accounts -/
def program (key : Key) (limits : Limits) (specs : List Spec) (lines : List Line) : Program where
  key
  limits
  routes := [{
    Params
    layout := ⟨"script", specs⟩
    codec := Params.codec
    process := fun _ => logic lines }]

end Script

/-- what is known of a script that was run: what it was called with, and its entries -/
structure Trace where
  params : Params
  entries : List Entry

namespace Script

variable {σ : Type}

/-- the trace of the staged invocation, if it reaches the script -/
def trace (p : Program) (lines : List Line) (host : Host σ) (s : σ) : Option Trace :=
  match host.take s with
  | (.error _, _) => none
  | (.ok i, s) =>
    match p.start (host.executing s) i, Params.codec.readAll (i.data.drop 8) with
    | .ok started, .ok params =>
      some ⟨params, (follow host started.frame lines ⟨s, started.table⟩).entries⟩
    | _, _ => none

end Script

end AccountLedger.Scenario
