import AccountLedger.Limits
import AccountLedger.Text.Utf8
import AccountLedger.Toml.Document
/-!
# Limits from a settings document

The top level of a document may give any of the limits by name, as an integer that is not negative.
What it does not give has its default, and all else in the document is ignored.
-/

namespace AccountLedger.Limits

/-- why a document gives no limits -/
inductive DocumentFault where
  | missing
  | malformed
  | invalid (fault : LimitsFault)
deriving DecidableEq

/-- the number under a key, or the default if the key is not there -/
def field (entries : Toml.Entries) (name : String) (default : Nat) : Except DocumentFault Nat :=
  match entries.get? name with
  | none => .ok default
  | some (.value (.integer n)) => if 0 ≤ n then .ok n.toNat else .error .malformed
  | some _ => .error .malformed

/-- the limits that the table of a document gives -/
def ofEntries (entries : Toml.Entries) : Except DocumentFault Limits := do
  let d : Limits := {}
  let stackHeight ← field entries "max_stack_height" d.stackHeight
  let accounts ← field entries "max_accounts" d.accounts
  let instructionData ← field entries "max_instruction_data" d.instructionData
  let innerData ← field entries "max_cpi_data" d.innerData
  let innerAccounts ← field entries "max_cpi_accounts" d.innerAccounts
  let signerSeeds ← field entries "max_signer_seeds" d.signerSeeds
  return { stackHeight, accounts, instructionData, innerData, innerAccounts, signerSeeds }

/-- the limits that a document gives -/
def ofText (text : String) : Except DocumentFault Limits :=
  match Toml.document text with
  | none => .error .malformed
  | some entries =>
    match ofEntries entries with
    | .error fault => .error fault
    | .ok l => l.check.mapError .invalid

/-- the limits of a settings file, if there is one, after the settings of the environment -/
def load (content : Option Bytes) (environment : String → Option String) :
    Except DocumentFault Limits :=
  match content with
  | none => .error .missing
  | some bytes =>
    match Text.ofBytes bytes with
    | .error _ => .error .missing
    | .ok text =>
      match ofText text with
      | .error fault => .error fault
      | .ok l => (l.override environment).mapError .invalid

end AccountLedger.Limits
