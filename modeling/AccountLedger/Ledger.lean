import AccountLedger.Ledger.Store
import AccountLedger.Rent
import AccountLedger.SystemProgram.Native
/-!
# The ledger

The ledger in memory: a store of accounts, the native programs, the invocation that is staged, and
a record of everything that programs did through it.  As a host it runs inner calls only if they
keep the sum of the balances, and settles writes only if they touch no program and keep that sum
too.
-/

namespace AccountLedger

structure Ledger where
  store : Store := .empty
  natives : Key → Option Native := fun _ => none
  /-- the program of the invocation that was staged last -/
  executing : Key := .system
  staged : Option Invocation := none
  /-- all inner calls, in order -/
  calls : List Request := []
  /-- all settled writes, in order -/
  writes : List Write := []
  settlements : Nat := 0

namespace Ledger

/-! ## setting up -/

/-- puts an account into the store -/
def addAccount (l : Ledger) (a : Account) : Ledger := { l with store := l.store.insert a }

/-- marks a key as a program -/
def deploy (l : Ledger) (key : Key) : Ledger := l.addAccount (.program key)

/-- a ledger that knows the System Program alone -/
def start : Ledger := deploy {} .system

/-- a program that the ledger itself runs -/
def register (l : Ledger) (key : Key) (program : Native) : Ledger :=
  let l := l.deploy key
  { l with natives := fun k => if k = key then some program else l.natives k }

/-- lamports in a whole unit -/
def lamportsPerUnit : Nat := 1000000000

/-- an account of nobody's program with a balance in whole units -/
def fund (l : Ledger) (key : Key) (units : UInt64) : Except Crash Ledger :=
  match Amount.ofNat? (units.toNat * lamportsPerUnit) with
  | some lamports => .ok (l.addAccount { key, lamports })
  | none => .error .productOverflow

/-! ## staging -/

/-- the entry that an instruction gets for one of its accounts -/
def entryOf (l : Ledger) (m : Meta) : Entry := ⟨m.signer, m.writable, l.store.read m.key⟩

/-- stages an instruction as a call from `callStack` at a height -/
def submitNested (l : Ledger) (i : Instruction) (height : Nat) (callStack : List Key) : Ledger :=
  { l with
    executing := i.program
    staged := some ⟨i.program, i.metas.map l.entryOf, i.data, height, callStack⟩ }

/-- stages an instruction that no program calls -/
def submit (l : Ledger) (i : Instruction) : Ledger := l.submitNested i 1 []

/-! ## inner calls -/

/-- a program leaves the sum of the balances as it was -/
def balanced {n : Nat} (program : Key) (before : Slots n) (reply : Reply n) : Reply n :=
  match reply.result with
  | .error _ => reply
  | .ok () =>
    if before.total = reply.accounts.total then reply
    else
      let text := s!"program {program} unbalanced the instruction: {before.total} -> " ++
        s!"{reply.accounts.total} lamports"
      ⟨.error (.refused ⟨text, none⟩), reply.accounts⟩

/-- the program that the ledger runs for a key -/
def native? (l : Ledger) (key : Key) : Option Native :=
  if key = .system then some SystemProgram.native else l.natives key

/-- runs an instruction on accounts, without a record -/
def execute {n : Nat} (l : Ledger) (i : Instruction) (accounts : Slots n) (signers : List Key) :
    Reply n :=
  match l.native? i.program with
  | some program => balanced i.program accounts (program l.calls i accounts signers)
  | none =>
    let e : HostError :=
      ⟨s!"program {i.program} is not loaded", some ProgramError.incorrectProgram.code⟩
    ⟨.error (.refused e), accounts⟩

/-- the ledger with an inner call on record -/
def record {n : Nat} (l : Ledger) (i : Instruction) (accounts : Slots n) (signers : List Key)
    (height : Nat) : Ledger :=
  { l with calls := l.calls ++ [⟨i, accounts.toList, signers, height⟩] }

/-! ## settlement -/

/-- the first key that a write names and that is a program -/
def frozen? (s : Store) (writes : List Write) : Option Key :=
  (writes.find? fun w => (s.read w.key).executable).map (·.key)

/-- the sum of the balances under the writes as the store has them -/
def totalBefore (s : Store) (writes : List Write) : Nat :=
  Amount.total (fun w => s.lamports w.key) writes

/-- the sum of the balances under the writes as the writes want them -/
def totalAfter (s : Store) (writes : List Write) : Nat :=
  Amount.total (fun w => w.lamports.getD (s.lamports w.key)) writes

/-- an account with the fields of a write -/
def overwrite (a : Account) (w : Write) : Account :=
  { a with
    lamports := w.lamports.getD a.lamports
    data := w.data.getD a.data
    owner := w.owner.getD a.owner }

/-- the store after one write -/
def applyWrite (s : Store) (w : Write) : Store := s.insert (overwrite (s.read w.key) w)

/-- settles a batch of writes -/
def settle (l : Ledger) (writes : List Write) : Except HostError Unit × Ledger :=
  match frozen? l.store writes with
  | some key => (.error ⟨s!"executable account {key} cannot be modified", none⟩, l)
  | none =>
    let before := totalBefore l.store writes
    let after := totalAfter l.store writes
    if before ≠ after then
      (.error ⟨s!"settlement changes total lamports: {before} -> {after}", none⟩, l)
    else
      (.ok (), { l with
        store := writes.foldl applyWrite l.store
        writes := l.writes ++ writes
        settlements := l.settlements + 1 })

/-! ## the ledger as a host -/

/-- the staged invocation, which is then staged no more -/
def take (l : Ledger) : Except HostError Invocation × Ledger :=
  match l.staged with
  | some i => (.ok i, { l with staged := none })
  | none => (.error ⟨"no instruction staged for this invocation", none⟩, l)

def host : Host Ledger where
  take := take
  executing l := l.executing
  minimumBalance _ space := Rent.minimum space
  invoke l i _ accounts signers height :=
    (l.execute i accounts signers, l.record i accounts signers height)
  settle := settle
  findAddress _ seeds program := (Address.find program seeds).toOption

end Ledger

end AccountLedger
