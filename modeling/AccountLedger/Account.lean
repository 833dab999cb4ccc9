import AccountLedger.Amount
import AccountLedger.Key
/-!
# Accounts

An account has a balance of lamports and data that only its owner, a program, may change.  An
account that nobody has paid for or claimed is vacant; vacant accounts need not be stored.
-/

namespace AccountLedger

/-- the System Program, which owns every account that no other program has claimed -/
def Key.system : Key := .ofNat 0

/-- the loader, which owns deployed programs (`BPFLoader2111111111111111111111111111111111`) -/
def Key.loader : Key := .ofNat 0x02a8f6914e88a16e395ae128948ffa695693376818dd47435221f3c600000000

structure Account where
  key : Key
  lamports : Amount := 0
  data : Bytes := []
  owner : Key := .system
  executable : Bool := false
  rentEpoch : UInt64 := 0
deriving DecidableEq

namespace Account

/-- the account that stands for a key without one -/
def vacant (key : Key) : Account := { key }

/-- nothing paid, nothing stored, nobody's -/
def isVacant (a : Account) : Bool := a.lamports == 0 && a.data.isEmpty && a.owner == .system

/-- a deployed program -/
def program (key : Key) : Account := { key, lamports := 1, owner := .loader, executable := true }

@[simp] theorem isVacant_vacant (key : Key) : (vacant key).isVacant = true := by
  simp [vacant, isVacant]

theorem isVacant_iff {a : Account} :
    a.isVacant = true ↔ a.lamports = 0 ∧ a.data = [] ∧ a.owner = .system := by
  simp [isVacant, and_assoc]

end Account

end AccountLedger
