import AccountLedger.Layout
import AccountLedger.Table
/-!
# Binding an account list to a layout

The caller hands over a flat list of entries.  Binding makes a handle of each, in order, if there
are enough of them, no key is named twice with different writability, and every position of the
layout is granted what it needs.  Entries behind the layout are bound without a name.
-/

namespace AccountLedger

/-- one entry of an account list, with what the caller grants there -/
structure Entry where
  signer : Bool
  writable : Bool
  account : Account
deriving DecidableEq

namespace Table

/-- The lowest position that names a key with another writability than the first position of that
key. -/
def conflict? (entries : List Entry) : Option Error :=
  entries.zipIdx.findSome? fun (e, second) =>
    match entries.zipIdx.find? (·.1.account.key = e.account.key) with
    | some (f, first) =>
      if f.writable = e.writable then none else some (.aliasing e.account.key first second)
    | none => none

/-- an entry of the executing program holds a record of the schema -/
def checkRecord (program : Key) (position : Nat) (name : String) (tag : Tag) (a : Account) :
    Except Error Unit :=
  if a.owner ≠ program then .error (.privilege position name .ownership)
  else (tag.check a.data).mapError (.schema position)

/-- an entry has all that its position needs; the access is checked first, then the kind of
account, then its record -/
def checkEntry (program : Key) (position : Nat) (spec : Spec) (e : Entry) : Except Error Unit :=
  if spec.access.signer && !e.signer then .error (.privilege position spec.name .signer)
  else if spec.access.writable && !e.writable then .error (.privilege position spec.name .writable)
  else if spec.access.writable && e.account.executable then
    .error (.privilege position spec.name .modifiable)
  else if spec.executable && !e.account.executable then
    .error (.privilege position spec.name .executable)
  else
    match spec.data with
    | some (.existing tag) => checkRecord program position spec.name tag e.account
    | _ => .ok ()

/-- the handle of an entry that has what its position needs -/
def named (spec : Spec) (e : Entry) : Handle where
  name := some spec.name
  account := e.account
  signer := e.signer
  writable := e.writable
  tag := spec.data.map DataBinding.tag

/-- the handle of an entry behind the layout -/
def unnamed (e : Entry) : Handle where
  name := none
  account := e.account
  signer := e.signer
  writable := e.writable
  tag := none

/-- the handles of the entries from a position on -/
def bindFrom (program : Key) : Nat → List Spec → List Entry → Except Error (List Handle)
  | _, _, [] => .ok []
  | position, [], e :: entries => do
    let handles ← bindFrom program (position + 1) [] entries
    return unnamed e :: handles
  | position, spec :: specs, e :: entries => do
    checkEntry program position spec e
    let handles ← bindFrom program (position + 1) specs entries
    return named spec e :: handles

/-- the table of a program for an account list -/
def bind (program : Key) (entries : List Entry) (layout : Layout) : Except Error Table :=
  if entries.length < layout.specs.length then
    .error (.accountCount layout.specs.length entries.length)
  else
    match conflict? entries with
    | some e => .error e
    | none => (bindFrom program 0 layout.specs entries).map fun handles => ⟨program, handles⟩

end Table

end AccountLedger
