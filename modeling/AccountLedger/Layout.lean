import AccountLedger.Access
import AccountLedger.Schema
/-!
# Layouts

A layout says what an instruction expects of its accounts, position by position: a name, the access
it needs, whether a program must stand there, and which record the data is or will become.
-/

namespace AccountLedger

/-- what the data of a position is bound to -/
inductive DataBinding where
  /-- the instruction makes the record -/
  | fresh (tag : Tag)
  /-- the record is there already -/
  | existing (tag : Tag)
deriving DecidableEq

def DataBinding.tag : DataBinding → Tag
  | .fresh tag | .existing tag => tag

/-- what an instruction expects at one position -/
structure Spec where
  name : String
  access : Access := .readonly
  data : Option DataBinding := none
  executable : Bool := false
deriving DecidableEq

namespace Spec

/-- any account with the access -/
def account (name : String) (access : Access) : Spec := { name, access }

/-- an account that holds a record of the type -/
def holding (α : Type) [Record α] (name : String) (access : Access) : Spec :=
  { name, access, data := some (.existing (Record.tag α)) }

/-- an account that will hold a record of the type -/
def making (α : Type) [Record α] (name : String) (access : Access) : Spec :=
  { name, access, data := some (.fresh (Record.tag α)) }

/-- an executable account -/
def program (name : String) : Spec := { name, executable := true }

end Spec

structure Layout where
  instruction : String
  specs : List Spec
deriving DecidableEq

namespace Layout

/-- the position of a name -/
def position? (l : Layout) (name : String) : Option Nat := l.specs.findIdx? (·.name = name)

/-- the eight bytes that call the instruction -/
def discriminator (l : Layout) : Bytes := AccountLedger.discriminator s!"global:{l.instruction}"

@[simp] theorem length_discriminator (l : Layout) : l.discriminator.length = 8 :=
  AccountLedger.length_discriminator _

end Layout

end AccountLedger
