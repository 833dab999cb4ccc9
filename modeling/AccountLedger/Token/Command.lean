import AccountLedger.Instruction
import AccountLedger.Token.Holding
/-!
# Commands of the token program

A command is a byte and fields behind it; what follows the fields is ignored.  The program knows
more commands than it carries out, and refuses those whose fields are not there like unknown ones.
-/

namespace AccountLedger.Token

/-- which authority over a mint or a holding -/
inductive AuthorityKind where
  | mintTokens
  | freezeAccount
  | accountOwner
  | closeAccount
deriving DecidableEq, Repr

namespace AuthorityKind

def code : AuthorityKind → UInt8
  | .mintTokens => 0
  | .freezeAccount => 1
  | .accountOwner => 2
  | .closeAccount => 3

def all : List AuthorityKind := [.mintTokens, .freezeAccount, .accountOwner, .closeAccount]

/-- the kind with a code -/
def ofCode? (code : UInt8) : Option AuthorityKind := all.find? (·.code = code)

/-- the kind with a code, or the refusal of an instruction that gives another -/
def ofCode (code : UInt8) : Except Error AuthorityKind :=
  match ofCode? code with
  | some kind => .ok kind
  | none => .error (.malformed (.authorityKind code))

theorem ofCode?_eq_some_iff {code : UInt8} {kind : AuthorityKind} :
    ofCode? code = some kind ↔ kind.code = code := by
  constructor
  · intro h
    simpa using List.find?_some h
  · rintro rfl
    cases kind <;> rfl

end AuthorityKind

inductive Command where
  | openHolding (owner : Key)
  | transfer (amount : Amount)
  | setAuthority (kind : AuthorityKind) (successor : Option Key)
  | mintTo (amount : Amount)
  | burn (amount : Amount)
  | close
  /-- known, and not carried out -/
  | other (number : UInt8)
deriving DecidableEq

namespace Command

/-- the value at the front of the fields -/
def field? {α : Type} (c : Codec α) (fields : Bytes) : Option α :=
  match c.read fields with
  | .ok (a, _) => some a
  | .error _ => none

/-- a command that is known by its number, if its fields are there -/
def seen {α : Type} (c : Codec α) (number : UInt8) (fields : Bytes) : Option Command :=
  (field? c fields).map fun _ => .other number

/-- a new authority behind its kind -/
def setAuthority? (fields : Bytes) : Option Command := do
  let (code, successor) ← field? (Codec.byte.pair (Codec.option .key)) fields
  return .setAuthority (← AuthorityKind.ofCode? code) successor

/-- the fields of the command with a number -/
def ofFields (number : UInt8) (fields : Bytes) : Option Command :=
  match number.toNat with
  | 0 | 20 => seen (Codec.byte.pair (Codec.key.pair (Codec.option .key))) number fields
  | 1 | 5 | 10 | 11 | 17 | 21 | 22 => some (.other number)
  | 2 | 19 => seen .byte number fields
  | 3 => (field? .amount fields).map .transfer
  | 4 | 23 => seen .amount number fields
  | 6 => setAuthority? fields
  | 7 => (field? .amount fields).map .mintTo
  | 8 => (field? .amount fields).map .burn
  | 9 => some .close
  | 12 | 13 | 14 | 15 => seen (Codec.amount.pair .byte) number fields
  | 16 => seen .key number fields
  | 18 => (field? .key fields).map .openHolding
  | 24 =>
    match Text.ofBytes fields with
    | .ok _ => some (.other number)
    | .error _ => none
  | _ => none

/-- the command at the front of instruction data -/
def read? : Bytes → Option Command
  | [] => none
  | number :: fields => ofFields number fields

end Command

/-! ## instructions -/

/-- opens a holding of a mint for an owner -/
def openHolding (holding mint owner : Key) : Instruction where
  program := program
  metas := [⟨holding, false, true⟩, ⟨mint, false, false⟩]
  data := 18 :: Codec.key.write owner

def transfer (source destination authority : Key) (amount : Amount) : Instruction where
  program := program
  metas := [⟨source, false, true⟩, ⟨destination, false, true⟩, ⟨authority, true, false⟩]
  data := 3 :: Codec.amount.write amount

def mintTo (mint holding authority : Key) (amount : Amount) : Instruction where
  program := program
  metas := [⟨mint, false, true⟩, ⟨holding, false, true⟩, ⟨authority, true, false⟩]
  data := 7 :: Codec.amount.write amount

def burn (holding mint authority : Key) (amount : Amount) : Instruction where
  program := program
  metas := [⟨holding, false, true⟩, ⟨mint, false, true⟩, ⟨authority, true, false⟩]
  data := 8 :: Codec.amount.write amount

def close (holding destination authority : Key) : Instruction where
  program := program
  metas := [⟨holding, false, true⟩, ⟨destination, false, true⟩, ⟨authority, true, false⟩]
  data := [9]

def setAuthority (target authority : Key) (kind : AuthorityKind) (successor : Option Key) :
    Instruction where
  program := program
  metas := [⟨target, false, true⟩, ⟨authority, true, false⟩]
  data := 6 :: kind.code :: (Codec.option .key).write successor

end AccountLedger.Token
