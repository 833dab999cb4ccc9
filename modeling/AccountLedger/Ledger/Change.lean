import AccountLedger.Ledger
/-!
# What changed

The difference between two states of one ledger: accounts that are new or differ, and what was
recorded since.
-/

namespace AccountLedger

structure Change where
  /-- in ascending order of keys -/
  accounts : List Account
  calls : List Request
  writes : List Write
  /-- the count, if it is another one -/
  settlements : Option Nat

namespace Change

/-- the change from one state to a later one -/
def between (before after : Ledger) : Change where
  accounts := after.store.accounts.filter fun a => before.store.find? a.key ≠ some a
  calls := after.calls.drop before.calls.length
  writes := after.writes.drop before.writes.length
  settlements :=
    if after.settlements = before.settlements then none else some after.settlements

end Change

end AccountLedger
