import AccountLedger.Codec
/-!
# Fields that can be cleared

An optional field of a fixed size is a 32-bit mark, zero or one, and the bytes of its value.  The
bytes stay when the field is cleared, so they are part of its state although nobody reads them.

* `get?_set`: what is set is what is read.
-/

namespace AccountLedger.Token

structure Clearable (α : Type) where
  present : Bool
  stored : α
deriving DecidableEq

namespace Clearable

variable {α : Type}

/-- the value, if the field has one -/
def get? (c : Clearable α) : Option α := if c.present then some c.stored else none

/-- sets the field, or clears it -/
def set (c : Clearable α) : Option α → Clearable α
  | some a => ⟨true, a⟩
  | none => { c with present := false }

@[simp] theorem get?_set (c : Clearable α) (v : Option α) : (c.set v).get? = v := by
  cases v <;> rfl

/-- the mark of a field -/
def mark : Codec Bool :=
  Codec.count.refine
    (fun n => if n = 0 then .ok false else if n = 1 then .ok true else .error (.badTag n))
    (fun b => if b then 1 else 0)
    (fun b => by cases b <;> rfl)
    (fun n b h => by
      split at h
      · rename_i hn
        cases h
        simp [hn]
      · split at h
        · rename_i hn
          cases h
          simp [hn]
        · cases h)

/-- the form of a field -/
def codec (c : Codec α) : Codec (Clearable α) :=
  (mark.pair c).iso (fun p => ⟨p.1, p.2⟩) (fun f => (f.present, f.stored)) (fun _ => rfl)
    (fun _ => rfl)

end Clearable

end AccountLedger.Token
