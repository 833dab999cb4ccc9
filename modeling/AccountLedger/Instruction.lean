import AccountLedger.Key
/-!
# Instructions

An instruction names a program, lists the accounts that the program shall see, with what it may do
to each, and carries data.
-/

namespace AccountLedger

/-- one account of an instruction, by key -/
structure Meta where
  key : Key
  signer : Bool
  writable : Bool
deriving DecidableEq

structure Instruction where
  program : Key
  metas : List Meta
  data : Bytes
deriving DecidableEq

/-- one account of an inner call, by its position in the caller's table -/
structure Ref where
  position : Nat
  writable : Bool
  signer : Bool
deriving DecidableEq

end AccountLedger
