import AccountLedger.Address
import AccountLedger.Bounds
import AccountLedger.Table
/-!
# Making an account

A signing payer funds a vacant account, which gets zeroed data of a given size and an owner.  The
new account must have signed too, or the program speaks for it with seeds that derive its key.
All checks come before the first change; the one fault after them, a size that no memory can hold,
is a crash.
-/

namespace AccountLedger.Table

/-- a handle has a capability -/
def requireAt (position : Nat) (h : Handle) (held : Bool) (missing : Capability) :
    Except Error Unit :=
  if held then .ok () else .error (.capability position h.key missing)

/-- Whether seeds speak for the key.  Without seeds nobody does, and seeds of another key are
refused. -/
def speaksFor (program : Key) (seeds : Option SignerSeeds) (key : Key) : Except Error Bool :=
  match seeds with
  | none => .ok false
  | some s =>
    match s.derive program with
    | .error e => .error e
    | .ok derived => if derived = key then .ok true else .error (.unauthorizedSeeds derived)

/-- Everything that the making of an account needs.  The answer says whether seeds spoke for the new
account, and gives the two handles. -/
def checkCreate (t : Table) (payer target : Nat) (seeds : Option SignerSeeds) (rent : Amount) :
    Except Error (Bool × Handle × Handle) := do
  checkPositions [payer, target] t.handles.length
  let funder ← t.handle payer
  requireAt payer funder funder.writable .writable
  requireAt payer funder funder.signer .signer
  let fresh ← t.handle target
  requireAt target fresh fresh.writable .writable
  let bySeeds ← speaksFor t.program seeds fresh.key
  requireAt target fresh (fresh.signer || bySeeds) .signer
  if payer = target || !fresh.account.isVacant then throw (.alreadyInUse fresh.key)
  if funder.account.lamports < rent then
    throw (.insufficientFunds funder.key rent funder.account.lamports)
  return (bySeeds, funder, fresh)

/-- the new account after it was paid for, as a signer if seeds spoke for it -/
def funded (bySeeds : Bool) (rent : Amount) (fresh : Handle) : Handle :=
  { fresh with signer := fresh.signer || bySeeds }.moveLamports rent

/-- makes an account, and returns the table as it is then -/
def create (t : Table) (payer target space : Nat) (owner : Key) (seeds : Option SignerSeeds)
    (rent : Amount) : Except (Stop Error) Unit × Table :=
  match t.checkCreate payer target seeds rent with
  | .error e => (.error (.refused e), t)
  | .ok (bySeeds, funder, fresh) =>
    let paid := t.put payer (funder.moveLamports (funder.account.lamports - rent))
    let fresh := funded bySeeds rent fresh
    match checkAllocation space with
    | .error crash => (.error (.crashed crash), paid.put target fresh)
    | .ok () => (.ok (), paid.put target (fresh.allocate space owner))

end AccountLedger.Table
