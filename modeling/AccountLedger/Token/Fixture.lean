import AccountLedger.Ledger
import AccountLedger.Token.Associated
import AccountLedger.Token.Native
/-!
# Tokens on the ledger

A ledger that knows the token programs, mints and holdings put there ready made, and the mint or
holding that an account holds.
-/

namespace AccountLedger.Ledger

/-- the ledger with both token programs -/
def withTokens (l : Ledger) : Ledger :=
  (l.register Token.program Token.native).register Token.Associated.program Token.Associated.native

/-- puts data of the token program under a key, paid for -/
def addTokenData (l : Ledger) (key : Key) (data : Bytes) : Except Crash Ledger :=
  (Rent.minimum data.length).map fun lamports =>
    l.addAccount { key, lamports, data, owner := Token.program }

/-- a mint with an authority and a supply -/
def addMint (l : Ledger) (key : Key) (authority : Option Key) (supply : Amount) :
    Except Crash Ledger :=
  let unset : Token.Clearable Key := ⟨false, .ofNat 0⟩
  let m : Token.Mint :=
    { authority := unset.set authority, supply, decimals := 0, initialized := true,
      freezeAuthority := unset }
  l.addTokenData key m.pack

/-- a holding of an owner -/
def addHolding (l : Ledger) (key mint owner : Key) (amount : Amount) : Except Crash Ledger :=
  l.addTokenData key (Token.Holding.opened mint owner amount []).pack

/-- the mint under a key -/
def mint? (l : Ledger) (key : Key) : Option Token.Mint :=
  (l.store.find? key).bind fun a => (Token.Mint.unpack a.data).toOption

/-- the holding under a key -/
def holding? (l : Ledger) (key : Key) : Option Token.Holding :=
  (l.store.find? key).bind fun a => (Token.Holding.unpack a.data).toOption

end AccountLedger.Ledger
