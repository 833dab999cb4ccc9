import AccountLedger.Handle
/-!
# Account tables

The table of an invocation: the executing program and one handle for each entry of the account
list, in its order.  Positions are never merged, so one account may have several handles.
-/

namespace AccountLedger

structure Table where
  program : Key
  handles : List Handle
deriving DecidableEq

namespace Table

/-- the handle at a position -/
def handle (t : Table) (position : Nat) : Except Error Handle :=
  match t.handles[position]? with
  | some h => .ok h
  | none => .error (.outOfBounds position t.handles.length)

/-- the position of a name -/
def positionOf (t : Table) (name : String) : Except Error Nat :=
  match t.handles.findIdx? (·.name = some name) with
  | some position => .ok position
  | none => .error (.unknownAccount name)

/-- the first position of a key -/
def positionOfKey? (t : Table) (key : Key) : Option Nat := t.handles.findIdx? (·.key = key)

/-- the table with another handle at a position -/
def put (t : Table) (position : Nat) (h : Handle) : Table :=
  { t with handles := t.handles.set position h }

/-- the handle belongs to the executing program -/
def owns (t : Table) (h : Handle) : Bool := h.account.owner == t.program

/-- how many handles were touched -/
def dirtyCount (t : Table) : Nat := t.handles.countP (·.isDirty)

/-- changes the handle at a position, or refuses with the handle's reason -/
def update (t : Table) (position : Nat) (f : Handle → Except Handle.Fault Handle) :
    Except Error Table :=
  match t.handle position with
  | .error e => .error e
  | .ok h =>
    match f h with
    | .ok h' => .ok (t.put position h')
    | .error fault => .error (fault.toError position h.key)

/-- sets the balance at a position -/
def setLamports (t : Table) (position : Nat) (amount : Amount) : Except Error Table :=
  t.update position (·.setLamports t.program amount)

/-- fills the data at a position with a payload of the expected schema -/
def save (t : Table) (position : Nat) (expected : Tag) (payload : Bytes) : Except Error Table :=
  t.update position (·.save t.program expected payload)

/-- the record at a position -/
def record (α : Type) [Record α] (t : Table) (position : Nat) : Except Error α :=
  match t.handle position with
  | .error e => .error e
  | .ok h => (h.record α).mapError (·.toError position h.key)

theorem handle_eq_ok_iff {t : Table} {position : Nat} {h : Handle} :
    t.handle position = .ok h ↔ t.handles[position]? = some h := by
  unfold handle
  split
  · rename_i h' hs
    rw [hs, Except.ok.injEq, Option.some.injEq]
  · rename_i hs
    simp [hs]

theorem handles_put (t : Table) (position : Nat) (h : Handle) :
    (t.put position h).handles = t.handles.set position h := rfl

theorem update_eq_ok_iff {t t' : Table} {position : Nat} {f : Handle → Except Handle.Fault Handle} :
    t.update position f = .ok t' ↔
      ∃ h h', t.handles[position]? = some h ∧ f h = .ok h' ∧ t' = t.put position h' := by
  unfold update
  split
  · rename_i e he
    constructor
    · intro h; cases h
    · rintro ⟨h, h', hs, _, _⟩
      rw [← handle_eq_ok_iff, he] at hs
      cases hs
  · rename_i h hh
    rw [handle_eq_ok_iff] at hh
    split
    · rename_i h' hf
      rw [Except.ok.injEq]
      constructor
      · rintro rfl; exact ⟨h, h', hh, hf, rfl⟩
      · rintro ⟨g, g', hg, hf', rfl⟩
        rw [hh] at hg; cases hg
        rw [hf] at hf'; cases hf'
        rfl
    · rename_i fault hf
      constructor
      · intro h'; cases h'
      · rintro ⟨g, g', hg, hf', _⟩
        rw [hh] at hg; cases hg
        rw [hf] at hf'; cases hf'

end Table

end AccountLedger
