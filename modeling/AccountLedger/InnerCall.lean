import AccountLedger.Address
import AccountLedger.Bounds
import AccountLedger.Host
import AccountLedger.Limits
/-!
# Inner calls

A program calls another with accounts of its own table.  It can hand on only what it holds: an
account is writable in the inner call only if its position is, and signs only if its position
signed or if seeds presented with the call derive its key.  A program on the call stack is never
entered again.  `request` makes all checks before the host sees anything; what the host gives back
is taken over by every position of a writable account, and a change to any other account voids the
call.

* `nodup_map_distinctBy`: each account goes to the host once.
-/

namespace AccountLedger

/-- the first of each group of items with one key, in order -/
def distinctBy {α β : Type} [DecidableEq β] (key : α → β) : List α → List α
  | [] => []
  | a :: rest => a :: (distinctBy key rest).filter fun b => key b ≠ key a

theorem mem_of_mem_distinctBy {α β : Type} [DecidableEq β] {key : α → β} {l : List α} {a : α}
    (h : a ∈ distinctBy key l) : a ∈ l := by
  induction l with
  | nil => simp [distinctBy] at h
  | cons b rest ih =>
    simp only [distinctBy, List.mem_cons, List.mem_filter] at h
    rcases h with rfl | ⟨h, _⟩
    · simp
    · simp [ih h]

theorem nodup_map_distinctBy {α β : Type} [DecidableEq β] (key : α → β) (l : List α) :
    ((distinctBy key l).map key).Nodup := by
  induction l with
  | nil => simp [distinctBy]
  | cons a rest ih =>
    simp only [distinctBy, List.map_cons, List.nodup_cons, List.mem_map, List.mem_filter]
    refine ⟨?_, ih.sublist (List.filter_sublist.map key)⟩
    rintro ⟨b, ⟨_, hb⟩, hk⟩
    simp [hk] at hb

theorem exists_mem_distinctBy {α β : Type} [DecidableEq β] {key : α → β} {l : List α} {a : α}
    (h : a ∈ l) : ∃ b ∈ distinctBy key l, key b = key a := by
  induction l with
  | nil => cases h
  | cons c rest ih =>
    by_cases hk : key c = key a
    · exact ⟨c, by simp [distinctBy], hk⟩
    · rcases List.mem_cons.1 h with rfl | h
      · exact absurd rfl hk
      · obtain ⟨b, hb, hba⟩ := ih h
        refine ⟨b, ?_, hba⟩
        simp only [distinctBy, List.mem_cons, List.mem_filter]
        exact .inr ⟨hb, by simpa [hba] using fun h => hk h.symm⟩

/-- the frame that a program executes in -/
structure Frame where
  limits : Limits
  program : Key
  height : Nat
  callStack : List Key

/-- what the host is asked to run -/
structure Request where
  instruction : Instruction
  /-- the accounts of the instruction, each once, with their pending states -/
  accounts : List Account
  signers : List Key
  height : Nat

namespace InnerCall

/-! ## what may be called -/

/-- the target is not executing and not waiting on the call stack -/
def checkTarget (f : Frame) (target : Key) : Except (Stop Error) Unit :=
  if target = f.program || f.callStack.contains target then .error (.refused (.reentrancy target))
  else .ok ()

/-- The height of the inner frame, if the limit allows it.  A height beyond 64 bits is a crash. -/
def innerHeight (f : Frame) : Except (Stop Error) Nat :=
  let height := f.height + 1
  if UInt64.size ≤ height then .error (.crashed .sumOverflow)
  else if f.limits.stackHeight < height then
    .error (.refused (.callDepth height f.limits.stackHeight))
  else .ok height

/-- the call keeps the limits, and every reference is to a position of the table -/
def checkLimits (f : Frame) (t : Table) (refs : List Ref) (seeds : List SignerSeeds)
    (data : Bytes) : Except Error Unit := do
  checkSize innerDataLabel data.length f.limits.innerData
  if f.limits.innerAccounts < refs.length then
    throw (.malformed (.innerAccounts refs.length f.limits.innerAccounts))
  if f.limits.signerSeeds < seeds.length then
    throw (.invalidSeeds (.tooManyLists seeds.length f.limits.signerSeeds))
  checkPositions (refs.map (·.position)) t.handles.length

/-- the target is a program of the table -/
def checkProgram (t : Table) (target : Key) : Except Error Unit :=
  if t.handles.any fun h => h.key = target && h.account.executable then .ok ()
  else .error (.programNotFound target)

/-! ## what may be handed on -/

/-- the handles that the references point to, in their order -/
def referred (t : Table) : List Ref → List (Ref × Handle)
  | [] => []
  | r :: rest =>
    match t.handles[r.position]? with
    | some h => (r, h) :: referred t rest
    | none => referred t rest

/-- The keys that seeds derive under the executing program.  Each must be asked for as a signer. -/
def derivedSigners (program : Key) (refs : List (Ref × Handle)) :
    List SignerSeeds → Except Error (List Key)
  | [] => .ok []
  | s :: rest =>
    match s.derive program with
    | .error e => .error e
    | .ok derived =>
      if refs.any fun (r, h) => r.signer && h.key = derived then
        (derivedSigners program refs rest).map (derived :: ·)
      else .error (.unauthorizedSeeds derived)

/-- no reference asks for more than its position holds or seeds add -/
def attenuate (derived : List Key) : List (Ref × Handle) → Except Error Unit
  | [] => .ok ()
  | (r, h) :: rest =>
    if r.writable && !h.writable then .error (.escalation h.key .writable)
    else if r.signer && !h.signer && !derived.contains h.key then .error (.escalation h.key .signer)
    else attenuate derived rest

/-- The positions of one key agree on its pending state, since all of them take over the result. -/
def checkAliases (t : Table) : List (Ref × Handle) → Except Error Unit
  | [] => .ok ()
  | (r, h) :: rest =>
    match t.handles.findIdx? fun g => g.key = h.key && g.account ≠ h.account with
    | some other => .error (.aliasing h.key (min other r.position) (max other r.position))
    | none => checkAliases t rest

/-- the request for the host, if every check passes -/
def request (f : Frame) (t : Table) (target : Key) (refs : List Ref) (seeds : List SignerSeeds)
    (data : Bytes) : Except (Stop Error) Request := do
  checkTarget f target
  let height ← innerHeight f
  (checkLimits f t refs seeds data).mapError .refused
  (checkProgram t target).mapError .refused
  let passed := referred t refs
  let derived ← (derivedSigners f.program passed seeds).mapError .refused
  (attenuate derived passed).mapError .refused
  (checkAliases t passed).mapError .refused
  return {
    instruction := {
      program := target
      metas := passed.map fun (r, h) => ⟨h.key, r.signer, r.writable⟩
      data }
    accounts := distinctBy Account.key (passed.map (·.2.account))
    signers := distinctBy id ((passed.filter (·.1.signer)).map (·.2.key))
    height }

/-! ## what comes back -/

/-- the keys that an instruction may write -/
def writableKeys (i : Instruction) : List Key := (i.metas.filter (·.writable)).map (·.key)

/-- the first account that changed although the instruction may not write it -/
def trespass? (writable : List Key) (before after : List Account) : Option Key :=
  (before.zip after).findSome? fun (old, new) =>
    if !writable.contains old.key && old ≠ new then some old.key else none

/-- every handle of the account's key takes over its state -/
def adoptOne (updated : Account) (handles : List Handle) : List Handle :=
  handles.map fun h => if h.key = updated.key then h.adopt updated else h

/-- the table after the states of writable accounts came back, in order -/
def adopt (writable : List Key) (after : List Account) (t : Table) : Table :=
  { t with
    handles := (after.filter fun a => writable.contains a.key).foldl (fun hs a => adoptOne a hs)
      t.handles }

/-- the table after a request was run, or why the call is void -/
def conclude {n : Nat} (r : Request) (reply : Reply n) (t : Table) : Except (Stop Error) Table :=
  match reply.result with
  | .error stop => .error (stop.map .host)
  | .ok () =>
    let writable := writableKeys r.instruction
    match trespass? writable r.accounts reply.accounts.toList with
    | some key => .error (.refused (.escalation key .writable))
    | none => .ok (adopt writable reply.accounts.toList t)

/-- runs an instruction of another program on accounts of the table -/
def invoke {σ : Type} (host : Host σ) (f : Frame) (target : Key) (refs : List Ref)
    (seeds : List SignerSeeds) (data : Bytes) (s : σ) (t : Table) :
    Except (Stop Error) Table × σ :=
  match request f t target refs seeds data with
  | .error stop => (.error stop, s)
  | .ok r =>
    let (reply, s) := host.invoke s r.instruction r.accounts.toArray.toVector r.signers r.height
    (conclude r reply t, s)

/-- the first positions of the keys that an instruction names -/
def refsOf (t : Table) : List Meta → Except Error (List Ref)
  | [] => .ok []
  | m :: rest =>
    match t.positionOfKey? m.key with
    | none => .error (.unknownAccount m.key.text)
    | some position => (refsOf t rest).map (⟨position, m.writable, m.signer⟩ :: ·)

/-- runs an instruction that names its accounts by key -/
def invokeInstruction {σ : Type} (host : Host σ) (f : Frame) (i : Instruction)
    (seeds : List SignerSeeds) (s : σ) (t : Table) : Except (Stop Error) Table × σ :=
  match refsOf t i.metas with
  | .error e => (.error (.refused e), s)
  | .ok refs => invoke host f i.program refs seeds i.data s t

end InnerCall

end AccountLedger
