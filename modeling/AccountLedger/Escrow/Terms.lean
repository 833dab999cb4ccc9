import AccountLedger.Error
/-!
# Escrow terms

An escrow trades a deposit of one mint for a payment of another.  Its terms are a record; the
tokens lie in a vault, at the address of one seed, and belong to the authority at the address of
another.
-/

namespace AccountLedger.Escrow

def key : Key := .ofNat 0xdb0c8fc7e6368159106fa694af694fc9a9565598f94796cb8782f747cc133328

/-- the seed of the vault -/
def vaultSeed : String := "token-seed"

/-- the seed of the authority that owns the vault -/
def authoritySeed : String := "escrow"

/-- what an open escrow agreed on -/
structure Terms where
  initializer : Key
  /-- where the deposit came from and goes back to -/
  deposit : Key
  /-- where the payment goes -/
  receive : Key
  offered : Amount
  asked : Amount
deriving DecidableEq

instance : Record Terms where
  tag := { name := "EscrowAccount" }
  space := 120
  codec :=
    (Codec.key.pair (Codec.key.pair (Codec.key.pair (Codec.amount.pair Codec.amount)))).iso
      (fun (initializer, deposit, receive, offered, asked) =>
        ⟨initializer, deposit, receive, offered, asked⟩)
      (fun t => (t.initializer, t.deposit, t.receive, t.offered, t.asked))
      (fun _ => rfl) (fun _ => rfl)

/-- what the escrow refuses on its own -/
inductive Refusal where
  | mintMismatch
  | depositOwnerMismatch
  | insufficientDeposit
  | escrowMismatch
  | zeroAmount
deriving DecidableEq, Repr

namespace Refusal

def code : Refusal → UInt32
  | .mintMismatch => 6000
  | .depositOwnerMismatch => 6001
  | .insufficientDeposit => 6002
  | .escrowMismatch => 6003
  | .zeroAmount => 6004

def toError (r : Refusal) : Error := .custom r.code

end Refusal

end AccountLedger.Escrow
