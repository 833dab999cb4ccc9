import AccountLedger.Ledger
/-!
# Hosts that answer otherwise

A host that is the ledger except for some of its answers: another executing program, no derived
addresses, settlements that are refused, a constant balance.
-/

namespace AccountLedger

structure Override where
  executing : Option Key := none
  hideAddresses : Bool := false
  refusal : Option HostError := none
  minimumBalance : Option Amount := none

namespace Override

/-- the ledger as a host, with these answers laid over its own -/
def host (o : Override) : Host Ledger :=
  { Ledger.host with
    executing := fun l => o.executing.getD (Ledger.host.executing l)
    minimumBalance := fun l space =>
      match o.minimumBalance with
      | some balance => .ok balance
      | none => Ledger.host.minimumBalance l space
    settle := fun l writes =>
      match o.refusal with
      | some e => (.error e, l)
      | none => Ledger.host.settle l writes
    findAddress := fun l seeds program =>
      if o.hideAddresses then none else Ledger.host.findAddress l seeds program }

end Override

end AccountLedger
