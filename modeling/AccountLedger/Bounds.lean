import AccountLedger.Error
/-!
# Bounds

Checks of what a caller hands over before anything is done with it: the size of data, and positions
in a table.
-/

namespace AccountLedger

/-- the data fits the limit -/
def checkSize (what : String) (size limit : Nat) : Except Error Unit :=
  if limit < size then .error (.malformed (.dataSize what size limit)) else .ok ()

/-- fresh data of the size can be had, and fits the limit -/
def checkFresh (what : String) (size limit : Nat) : Except (Stop Error) Unit := do
  (checkAllocation size).mapError .crashed
  (checkSize what size limit).mapError .refused

/-- the position is one of a table of this length -/
def checkPosition (position length : Nat) : Except Error Unit :=
  if position < length then .ok () else .error (.outOfBounds position length)

/-- all positions are; the first that is not is blamed -/
def checkPositions : List Nat → Nat → Except Error Unit
  | [], _ => .ok ()
  | position :: rest, length =>
    match checkPosition position length with
    | .ok () => checkPositions rest length
    | .error e => .error e

theorem checkSize_eq_ok_iff {what : String} {size limit : Nat} :
    checkSize what size limit = .ok () ↔ size ≤ limit := by
  unfold checkSize
  split <;> simp_all

theorem checkPosition_eq_ok_iff {position length : Nat} :
    checkPosition position length = .ok () ↔ position < length := by
  unfold checkPosition
  split <;> simp_all

theorem checkPositions_eq_ok_iff {positions : List Nat} {length : Nat} :
    checkPositions positions length = .ok () ↔ ∀ position ∈ positions, position < length := by
  induction positions with
  | nil => simp [checkPositions]
  | cons position rest ih =>
    by_cases h : position < length <;> simp [checkPositions, checkPosition, h, ih]

/-- what messages call the data of an invocation -/
def instructionDataLabel : String := "instruction data"

/-- what messages call the data of an inner call -/
def innerDataLabel : String := "cross-program instruction data"

end AccountLedger
