import AccountLedger.Ledger.Native
/-!
# Native programs made of effects

A native program for trying things out: it assigns fields of the accounts that it is given, in
order, and then succeeds or refuses.  It keeps no rule, so it shows what others do about that.
-/

namespace AccountLedger.Scenario

/-- fields to assign in one slot -/
structure Effect where
  slot : Nat
  key : Option Key := none
  lamports : Option Amount := none
  data : Option Bytes := none
  owner : Option Key := none
  executable : Option Bool := none
  rentEpoch : Option UInt64 := none

namespace Effect

/-- an account with the fields assigned -/
def assign (e : Effect) (a : Account) : Account where
  key := e.key.getD a.key
  lamports := e.lamports.getD a.lamports
  data := e.data.getD a.data
  owner := e.owner.getD a.owner
  executable := e.executable.getD a.executable
  rentEpoch := e.rentEpoch.getD a.rentEpoch

/-- the slots after an effect, which a slot that is not there ignores -/
def apply {n : Nat} (accounts : Slots n) (e : Effect) : Slots n :=
  if h : e.slot < n then accounts.put ⟨e.slot, h⟩ (e.assign accounts[e.slot]) else accounts

/-- the program that has these effects and then refuses, if there is a refusal -/
def native (effects : List Effect) (refusal : Option HostError) : Native :=
  fun _ _ _ accounts _ =>
    let changed := effects.foldl apply accounts
    match refusal with
    | none => .done changed
    | some e => ⟨.error (.refused e), changed⟩

end Effect

end AccountLedger.Scenario
