import AccountLedger.InnerCall
/-!
# Native programs

A native program is run by the ledger itself: a function of the instruction, the accounts and the
signers, and of all inner calls before, which is all that a program with a memory could remember.
It answers with the accounts as it leaves them, even when it refuses.
-/

namespace AccountLedger

abbrev Native := List Request → Instruction → {n : Nat} → Slots n → List Key → Reply n

namespace Reply

variable {n : Nat} {α : Type}

def done (accounts : Slots n) : Reply n := ⟨.ok (), accounts⟩

def refuse (e : ProgramError) (accounts : Slots n) : Reply n :=
  ⟨.error (.refused (.ofProgram e)), accounts⟩

def crash (c : Crash) (accounts : Slots n) : Reply n := ⟨.error (.crashed c), accounts⟩

/-- goes on with what the checks found, or refuses and leaves the accounts as they are -/
def afterChecks (accounts : Slots n) (checks : Except ProgramError α) (next : α → Reply n) :
    Reply n :=
  match checks with
  | .ok a => next a
  | .error e => refuse e accounts

/-- all changes at once, or none -/
def ofChanged (accounts : Slots n) (changed : Except ProgramError (Slots n)) : Reply n :=
  afterChecks accounts changed done

end Reply

/-- the key at a place of the instruction -/
def Instruction.keyAt (i : Instruction) (place : Nat) : Except ProgramError Key :=
  match i.metas[place]? with
  | some m => .ok m.key
  | none => .error .notEnoughAccounts

namespace Slots

variable {n : Nat}

/-- the first slot of a key -/
def position (accounts : Slots n) (key : Key) : Except ProgramError (Fin n) :=
  match accounts.findFinIdx? (·.key = key) with
  | some p => .ok p
  | none => .error .notEnoughAccounts

/-- the first slot of the key at a place of the instruction -/
def positionAt (accounts : Slots n) (i : Instruction) (place : Nat) :
    Except ProgramError (Fin n) := do
  accounts.position (← i.keyAt place)

/-- the slots with another account in one of them -/
def put (accounts : Slots n) (p : Fin n) (a : Account) : Slots n := accounts.set p.val a p.isLt

/-- the sum of all balances -/
def total (accounts : Slots n) : Nat := Amount.total (·.lamports) accounts.toList

end Slots

/-- the key signed -/
def requireSigner (signers : List Key) (key : Key) : Except ProgramError Unit :=
  if key ∈ signers then .ok () else .error .missingSignature

end AccountLedger
