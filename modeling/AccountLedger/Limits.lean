import AccountLedger.Text.Blank
import AccountLedger.Text.Quoted
/-!
# Limits

The bounds that an invocation and its inner calls are held to.  Each has a default and may be
overridden by a setting of the environment, which is an unsigned number of 64 bits.  No limit may
be zero.
-/

namespace AccountLedger

structure Limits where
  /-- frames of nested calls, the outermost included -/
  stackHeight : Nat := 5
  /-- accounts of an invocation -/
  accounts : Nat := 64
  /-- bytes of instruction data of an invocation -/
  instructionData : Nat := 1232
  /-- bytes of instruction data of an inner call -/
  innerData : Nat := 10240
  /-- accounts of an inner call -/
  innerAccounts : Nat := 64
  /-- seed lists presented with an inner call -/
  signerSeeds : Nat := 16
deriving DecidableEq, Repr

/-- why limits cannot be used -/
inductive LimitsFault where
  | noHeight
  | zero (name : String)
  | notNumber (setting given : String)
deriving DecidableEq

def LimitsFault.message : LimitsFault → String
  | .noHeight => "invalid configuration: max_stack_height must be at least 1"
  | .zero name => s!"invalid configuration: {name} must be non-zero"
  | .notNumber setting given =>
    s!"invalid configuration: {setting} must be an unsigned integer, got {Text.quoted given}"

namespace Limits

/-! ## validity -/

/-- the limits other than the stack height, by name -/
def named (l : Limits) : List (String × Nat) :=
  [("max_accounts", l.accounts), ("max_instruction_data", l.instructionData),
    ("max_cpi_data", l.innerData), ("max_cpi_accounts", l.innerAccounts),
    ("max_signer_seeds", l.signerSeeds)]

/-- the limits themselves, unless one is zero; of several the first is blamed -/
def check (l : Limits) : Except LimitsFault Limits :=
  if l.stackHeight = 0 then .error .noHeight
  else
    match l.named.find? (·.2 = 0) with
    | some (name, _) => .error (.zero name)
    | none => .ok l

theorem check_eq_ok_iff {l m : Limits} :
    l.check = .ok m ↔ m = l ∧ 0 < l.stackHeight ∧ 0 < l.accounts ∧ 0 < l.instructionData ∧
      0 < l.innerData ∧ 0 < l.innerAccounts ∧ 0 < l.signerSeeds := by
  unfold check
  split
  · rename_i h
    simp [h]
  · rename_i h
    split
    · rename_i name n hf
      have h1 := List.mem_of_find?_eq_some hf
      have h2 : n = 0 := by simpa using List.find?_some hf
      subst h2
      simp only [reduceCtorEq, false_iff]
      intro ⟨_, _, h3, h4, h5, h6, h7⟩
      simp only [named, List.mem_cons, Prod.mk.injEq, List.not_mem_nil, or_false] at h1
      omega
    · rename_i hf
      rw [List.find?_eq_none] at hf
      have g1 := hf ("max_accounts", l.accounts) (by simp [named])
      have g2 := hf ("max_instruction_data", l.instructionData) (by simp [named])
      have g3 := hf ("max_cpi_data", l.innerData) (by simp [named])
      have g4 := hf ("max_cpi_accounts", l.innerAccounts) (by simp [named])
      have g5 := hf ("max_signer_seeds", l.signerSeeds) (by simp [named])
      simp only [decide_eq_true_eq] at g1 g2 g3 g4 g5
      rw [Except.ok.injEq]
      constructor
      · rintro rfl
        exact ⟨rfl, by omega, by omega, by omega, by omega, by omega, by omega⟩
      · rintro ⟨rfl, _⟩; rfl

/-! ## settings of the environment -/

/-- the number that decimal digits spell -/
def decimal? (cs : List Char) : Option Nat :=
  if cs.all fun c => '0' ≤ c && c ≤ '9' then
    some (cs.foldl (fun acc c => 10 * acc + (c.toNat - 48)) 0)
  else none

/-- an unsigned number of 64 bits, after a plus sign perhaps, with blanks around it -/
def number? (text : String) : Option Nat :=
  let digits := match Text.trim text.toList with
    | '+' :: rest => rest
    | cs => cs
  if digits = [] then none else (decimal? digits).filter (· < UInt64.size)

/-- the settings that override limits, in the order in which they are read -/
def settings : List (String × (Nat → Limits → Limits)) :=
  [("SETTLEMENT_MAX_STACK_HEIGHT", fun n l => { l with stackHeight := n }),
    ("SETTLEMENT_MAX_ACCOUNTS", fun n l => { l with accounts := n }),
    ("SETTLEMENT_MAX_INSTRUCTION_DATA", fun n l => { l with instructionData := n }),
    ("SETTLEMENT_MAX_CPI_DATA", fun n l => { l with innerData := n }),
    ("SETTLEMENT_MAX_CPI_ACCOUNTS", fun n l => { l with innerAccounts := n }),
    ("SETTLEMENT_MAX_SIGNER_SEEDS", fun n l => { l with signerSeeds := n })]

/-- the limits after the given settings, each read if it is there -/
def read (environment : String → Option String) :
    List (String × (Nat → Limits → Limits)) → Limits → Except LimitsFault Limits
  | [], l => .ok l
  | (setting, update) :: rest, l =>
    match environment setting with
    | none => read environment rest l
    | some given =>
      match number? given with
      | none => .error (.notNumber setting given)
      | some n => read environment rest (update n l)

/-- the limits after the settings of the environment, if none of them is zero then -/
def override (l : Limits) (environment : String → Option String) : Except LimitsFault Limits :=
  match read environment settings l with
  | .error fault => .error fault
  | .ok m => m.check

end Limits

end AccountLedger
