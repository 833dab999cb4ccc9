import AccountLedger.Program
/-!
# The greeter

A user opens a greeting, which counts how often it was greeted.  Only that user may greet through
it.
-/

namespace AccountLedger.Greeter

def key : Key := .ofNat 0x14131dcc2c6988845fcd81266f720d696c235ff427f6b67bebfd47d5c78b0ee7

structure Greeting where
  authority : Key
  count : Amount
deriving DecidableEq

instance : Record Greeting where
  tag := { name := "GreetingAccount" }
  space := 512
  codec := (Codec.key.pair Codec.amount).iso (fun (authority, count) => ⟨authority, count⟩)
    (fun g => (g.authority, g.count)) (fun _ => rfl) (fun _ => rfl)

/-! ## opening -/

def openLayout : Layout where
  instruction := "init"
  specs := [
    .account "user" .writingSigner,
    .making Greeting "greeting" .writingSigner,
    .program "system_program"]

/-- opens a greeting with a count -/
def openGreeting (count : Amount) : Logic Unit := do
  Logic.create "user" "greeting" (Record.space Greeting) key none
  let authority ← Logic.keyOf "user"
  Logic.saveRecord "greeting" ({ authority, count } : Greeting)

/-! ## greeting -/

def greetLayout : Layout where
  instruction := "greet"
  specs := [
    .account "user" .signing,
    .holding Greeting "greeting" .writing]

/-- a count that has no successor -/
def countFull : Error := .custom 0

/-- counts a greeting; who is greeted leaves no trace -/
def greet (_names : ShortList ShortText) : Logic Unit := do
  let user ← Logic.keyOf "user"
  let greeting ← Logic.record Greeting "greeting"
  Logic.requireEq user greeting.authority
    (Logic.keysDiffer "user" "greeting.authority" user greeting.authority)
  match greeting.count.credit? 1 with
  | none => .fail countFull
  | some count => Logic.saveRecord "greeting" { greeting with count }

/-! ## the program -/

def openRoute : Route where
  Params := Amount
  layout := openLayout
  codec := .amount
  process := openGreeting

def greetRoute : Route where
  Params := ShortList ShortText
  layout := greetLayout
  codec := .list .text
  process := greet

def program : Program where
  key
  limits := {}
  routes := [openRoute, greetRoute]

end AccountLedger.Greeter
