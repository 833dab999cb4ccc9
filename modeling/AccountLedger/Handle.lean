import AccountLedger.Account
import AccountLedger.Error
/-!
# Handles

A handle is one position of an invocation's account list.  It holds the pending state of its
account, what the caller granted there, the schema that the position is bound to, and marks on the
fields that were touched.  Nothing reaches the ledger before the whole invocation is settled.
-/

namespace AccountLedger

/-- which fields of a pending state were touched -/
structure Dirty where
  lamports : Bool := false
  data : Bool := false
  owner : Bool := false
deriving DecidableEq

def Dirty.any (d : Dirty) : Bool := d.lamports || d.data || d.owner

structure Handle where
  name : Option String
  account : Account
  signer : Bool
  writable : Bool
  tag : Option Tag
  dirty : Dirty := {}
deriving DecidableEq

namespace Handle

/-- why a handle refuses an operation -/
inductive Fault where
  | lacks (missing : Capability)
  | schema (fault : SchemaFault)

/-- the refusal as an error of the position -/
def Fault.toError (fault : Fault) (position : Nat) (key : Key) : Error :=
  match fault with
  | .lacks missing => .capability position key missing
  | .schema fault => .schema position fault

abbrev key (h : Handle) : Key := h.account.key

def isDirty (h : Handle) : Bool := h.dirty.any

def require (held : Bool) (missing : Capability) : Except Fault Unit :=
  if held then .ok () else .error (.lacks missing)

/-- the position may be written and its account is no program -/
def requireModifiable (h : Handle) : Except Fault Unit := do
  require h.writable .writable
  require (!h.account.executable) .modifiable

/-! ## what business logic may do -/

/-- Sets the balance.  Only the owner of an account may lower it. -/
def setLamports (program : Key) (amount : Amount) (h : Handle) : Except Fault Handle := do
  h.requireModifiable
  if amount < h.account.lamports then require (h.account.owner = program) .ownership
  return { h with
    account := { h.account with lamports := amount }
    dirty := { h.dirty with lamports := true } }

/-- the schema of the position, if it is the expected one -/
def boundTag (expected : Tag) (h : Handle) : Except Fault Tag :=
  match h.tag with
  | some tag => if tag = expected then .ok tag else .error (.schema (.boundTo tag expected))
  | none => .error (.schema (.unbound expected))

/-- Fills the data with a record's payload under the bound schema, keeping its length.  Only the
owner of an account may change its data. -/
def save (program : Key) (expected : Tag) (payload : Bytes) (h : Handle) : Except Fault Handle := do
  h.requireModifiable
  require (h.account.owner = program) .ownership
  let tag ← h.boundTag expected
  let data ← (tag.refill payload h.account.data).mapError .schema
  return { h with
    account := { h.account with data }
    dirty := { h.dirty with data := true } }

/-- the record in the data, read through the bound schema -/
def record (α : Type) [Record α] (h : Handle) : Except Fault α := do
  let tag ← h.boundTag (Record.tag α)
  (tag.decode Record.codec h.account.data).mapError .schema

/-! ## what only the ledger's own operations do -/

/-- sets the balance, which is touched only if it changes -/
def moveLamports (amount : Amount) (h : Handle) : Handle :=
  if amount = h.account.lamports then h
  else { h with
    account := { h.account with lamports := amount }
    dirty := { h.dirty with lamports := true } }

/-- zeroed data of the given size, and an owner -/
def allocate (space : Nat) (owner : Key) (h : Handle) : Handle :=
  { h with
    account := { h.account with data := List.replicate space 0, owner }
    dirty := { h.dirty with data := true, owner := true } }

/-- takes over balance, data and owner of a state that came back from an inner call -/
def adopt (updated : Account) (h : Handle) : Handle :=
  { h with
    account := { h.account with
      lamports := updated.lamports, data := updated.data, owner := updated.owner }
    dirty := {
      lamports := true
      data := true
      owner := h.dirty.owner || updated.owner != h.account.owner } }

@[simp] theorem key_moveLamports (amount : Amount) (h : Handle) :
    (h.moveLamports amount).account.key = h.account.key := by
  unfold moveLamports
  split <;> rfl

@[simp] theorem key_allocate (space : Nat) (owner : Key) (h : Handle) :
    (h.allocate space owner).account.key = h.account.key := rfl

@[simp] theorem key_adopt (updated : Account) (h : Handle) :
    (h.adopt updated).account.key = h.account.key := rfl

end Handle

end AccountLedger
