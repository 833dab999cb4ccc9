import AccountLedger.Error
import AccountLedger.Swap.Pricing
/-!
# Pools

A pool trades tokens of two mints against each other and gives liquidity tokens of a third mint to
those who fill it.  Its accounts are a record.  The vaults belong to the authority at the address
of one seed, and the authority at the address of another mints liquidity.
-/

namespace AccountLedger.Swap

def key : Key := .ofNat 0x8daeed38870339b3141cfe9b2d44ab6be404d4d6cf595679e5ea64426027c44f

/-- the seed of the authority that owns the vaults -/
def vaultSeed : String := "vault-authority"

/-- the seed of the authority that mints liquidity -/
def liquiditySeed : String := "lp-mint-authority"

structure Pool where
  creator : Key
  mintA : Key
  mintB : Key
  vaultA : Key
  vaultB : Key
  liquidityMint : Key
deriving DecidableEq

instance : Record Pool where
  tag := { name := "PoolInfo" }
  space := 200
  codec :=
    let key := Codec.key
    (key.pair (key.pair (key.pair (key.pair (key.pair key))))).iso
      (fun (creator, mintA, mintB, vaultA, vaultB, liquidityMint) =>
        ⟨creator, mintA, mintB, vaultA, vaultB, liquidityMint⟩)
      (fun p => (p.creator, p.mintA, p.mintB, p.vaultA, p.vaultB, p.liquidityMint))
      (fun _ => rfl) (fun _ => rfl)

/-- what the pool refuses on its own -/
inductive Refusal where
  | sameMint
  | mintNotFresh
  | poolMismatch
  | zeroAmount
  | zeroLiquidity
  | slippageExceeded
  | insufficientLiquidity
  | poolNotEmpty
  | priceOutOfRange
deriving DecidableEq, Repr

namespace Refusal

def code : Refusal → UInt32
  | .sameMint => 6000
  | .mintNotFresh => 6001
  | .poolMismatch => 6002
  | .zeroAmount => 6003
  | .zeroLiquidity => 6004
  | .slippageExceeded => 6005
  | .insufficientLiquidity => 6006
  | .poolNotEmpty => 6007
  | .priceOutOfRange => 6008

def toError (r : Refusal) : Error := .custom r.code

end Refusal

/-- a price that is no amount, as a refusal of the pool -/
def PriceFault.toError (_ : PriceFault) : Error := Refusal.priceOutOfRange.toError

end AccountLedger.Swap
