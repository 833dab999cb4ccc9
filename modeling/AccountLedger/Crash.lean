/-!
# Crashes

A refusal is an answer that a program can deal with; a crash is not.  It ends the whole invocation,
and all that is left of it is a text.  Sums that leave the word crash, and so does asking for more
memory than can be addressed.

* `checkAllocation_eq_ok_iff`: fresh data can be had exactly below half of what 64 bits address.
-/

namespace AccountLedger

/-- a fault after which no program goes on -/
inductive Crash where
  | sumOverflow
  | productOverflow
  | capacity
  | sliceEnd (stop length : Nat)
  | noAddress
  | raised (text : Option String)
deriving DecidableEq

/-- what is known of a crash; a crash raised without a text says nothing -/
def Crash.text? : Crash → Option String
  | .sumOverflow => some "attempt to add with overflow"
  | .productOverflow => some "attempt to multiply with overflow"
  | .capacity => some "capacity overflow"
  | .sliceEnd stop length =>
    some s!"range end index {stop} out of range for slice of length {length}"
  | .noAddress => some "Unable to find a viable program address bump seed"
  | .raised text => text

/-- how an operation that does not finish stops: it refuses, or it crashes -/
inductive Stop (ε : Type) where
  | refused (error : ε)
  | crashed (crash : Crash)
deriving DecidableEq

namespace Stop

/-- the same stop with its refusal passed on -/
def map {ε δ : Type} (f : ε → δ) : Stop ε → Stop δ
  | .refused e => .refused (f e)
  | .crashed c => .crashed c

end Stop

/-! ## memory -/

/-- fresh data of this size or more cannot be had: half of what 64 bits address -/
def allocationLimit : Nat := 9223372036854775808

/-- memory for fresh data of the given size can be had -/
def checkAllocation (size : Nat) : Except Crash Unit :=
  if size < allocationLimit then .ok () else .error .capacity

theorem checkAllocation_eq_ok_iff {size : Nat} :
    checkAllocation size = .ok () ↔ size < allocationLimit := by
  unfold checkAllocation
  split <;> simp_all

end AccountLedger
