import AccountLedger.Escrow.Program
import AccountLedger.Greeter
import AccountLedger.Proofs.Dispatch
import AccountLedger.Proofs.Process
import AccountLedger.Swap.Program
/-!
# The wire format of a program

A program reads the data of an invocation as one of its instructions with parameters.  `start` goes
from the data to business logic in one step; here the instruction and its parameters are held
fast, so that it can be said which of them the data stands for.

* `Program.start_eq`: starting an invocation is preparing it, up to what is remembered of it;
* `Program.decode_eq_ok_iff`: data stands for an instruction with parameters exactly if it is the
  discriminator followed by their binary form;
* `Program.wire_format`: so business logic is reached with them exactly if the invocation is for the
  program, keeps its limits, carries this data and has accounts that bind.
-/

namespace AccountLedger

/-- an instruction with parameters -/
structure Message where
  route : Route
  params : route.Params

namespace Message

/-- the data that stands for the message -/
def data (m : Message) : Bytes := m.route.data m.params

/-- the business logic that the message calls for -/
def logic (m : Message) : Logic Unit := m.route.process m.params

end Message

/-- a message with the accounts that it is about -/
structure Prepared where
  message : Message
  table : Table

namespace Program

/-! ## preparing -/

/-- the message that data stands for -/
def decode (p : Program) (data : Bytes) : Except Error Message :=
  if data.length < 8 then .error (.malformed (.noDiscriminator data.length))
  else
    match p.route? (data.take 8) with
    | none => .error (.malformed (.unknownDiscriminator (data.take 8)))
    | some r =>
      match r.codec.readAll (data.drop 8) with
      | .error fault => .error (.malformed (.parameters r.layout.instruction fault))
      | .ok params => .ok ⟨r, params⟩

/-- the invocation is for the program and keeps its limits -/
def vet (p : Program) (executing : Key) (i : Invocation) : Except Error Unit := do
  if i.program ≠ p.key ∨ executing ≠ p.key then
    throw (.malformed (.wrongProgram i.program p.key))
  checkSize instructionDataLabel i.data.length p.limits.instructionData
  if p.limits.accounts < i.entries.length then
    throw (.malformed (.accounts i.entries.length p.limits.accounts))
  if p.limits.stackHeight < i.height then
    throw (.callDepth i.height p.limits.stackHeight)

/-- the message and the accounts of an invocation, if it is one for this program -/
def prepare (p : Program) (executing : Key) (i : Invocation) : Except Error Prepared :=
  match p.vet executing i with
  | .error e => .error e
  | .ok () =>
    match p.decode i.data with
    | .error e => .error e
    | .ok message =>
      match Table.bind p.key i.entries message.route.layout with
      | .error e => .error e
      | .ok table => .ok ⟨message, table⟩

/-- the frame that an invocation is executed in -/
def frame (p : Program) (i : Invocation) : Frame := ⟨p.limits, p.key, i.height, i.callStack⟩

variable {p : Program} {executing : Key} {i : Invocation} {m : Message}

/-- To start an invocation is to prepare it and to go on with the business logic of its message. -/
theorem start_eq (p : Program) (executing : Key) (i : Invocation) :
    p.start executing i = (p.prepare executing i).map fun x =>
      ⟨x.message.logic, p.frame i, x.table⟩ := by
  unfold start prepare vet
  by_cases hprogram : i.program ≠ p.key ∨ executing ≠ p.key
  · rw [if_pos hprogram, if_pos hprogram]
    rfl
  rw [if_neg hprogram, if_neg hprogram]
  cases hdata : checkSize instructionDataLabel i.data.length p.limits.instructionData with
  | error e => rfl
  | ok u =>
    by_cases hentries : p.limits.accounts < i.entries.length
    · simp only [if_pos hentries]
      rfl
    simp only [if_neg hentries]
    by_cases hheight : p.limits.stackHeight < i.height
    · simp only [if_pos hheight]
      rfl
    simp only [if_neg hheight]
    unfold decode Route.decode
    by_cases hshort : i.data.length < 8
    · simp only [if_pos hshort]
      rfl
    simp only [if_neg hshort]
    cases p.route? (i.data.take 8) with
    | none => rfl
    | some r =>
      simp only
      cases r.codec.readAll (i.data.drop 8) with
      | error fault => rfl
      | ok params =>
        simp only
        cases Table.bind p.key i.entries r.layout with
        | error e => rfl
        | ok table => rfl

/-! ## what data stands for -/

/-- no two instructions of the program have the same discriminator -/
def Distinct (p : Program) : Prop := (p.routes.map (·.layout.discriminator)).Nodup

/-- An instruction is found by its discriminator. -/
theorem Distinct.route?_eq (distinct : p.Distinct) {r : Route} (hr : r ∈ p.routes) :
    p.route? r.layout.discriminator = some r := by
  cases hf : p.route? r.layout.discriminator with
  | none =>
    have := List.find?_eq_none.1 hf r hr
    simp at this
  | some found =>
    have hk : found.layout.discriminator = r.layout.discriminator := by
      simpa using List.find?_some hf
    rw [eq_of_nodup distinct (List.mem_of_find?_eq_some hf) hr hk]

theorem decode_eq_ok_iff (distinct : p.Distinct) {data : Bytes} :
    p.decode data = .ok m ↔ m.route ∈ p.routes ∧ data = m.data := by
  unfold decode
  refine ⟨?_, ?_⟩
  · intro h
    by_cases hshort : data.length < 8
    · rw [if_pos hshort] at h
      cases h
    rw [if_neg hshort] at h
    cases hr : p.route? (data.take 8) with
    | none =>
      rw [hr] at h
      cases h
    | some r =>
      rw [hr] at h
      cases hread : r.codec.readAll (data.drop 8) with
      | error fault =>
        simp only [hread] at h
        cases h
      | ok params =>
        simp only [hread] at h
        cases h
        have hfront : r.layout.discriminator = data.take 8 := by simpa using List.find?_some hr
        refine ⟨List.mem_of_find?_eq_some hr, ?_⟩
        rw [Message.data, Route.data, hfront, ← r.codec.readAll_eq_ok_iff.1 hread,
          List.take_append_drop]
  · rintro ⟨hr, rfl⟩
    obtain ⟨r, params⟩ := m
    have hlength : r.layout.discriminator.length = 8 := r.layout.length_discriminator
    have hshort : ¬ (r.layout.discriminator ++ r.codec.write params).length < 8 := by
      rw [List.length_append, hlength]
      omega
    simp only [Message.data, Route.data, if_neg hshort, List.take_left' hlength,
      List.drop_left' hlength, distinct.route?_eq hr, r.codec.readAll_eq_ok_iff.2 rfl]

/-! ## what is received -/

theorem vet_eq_ok_iff : p.vet executing i = .ok () ↔
    i.program = p.key ∧ executing = p.key ∧ i.data.length ≤ p.limits.instructionData ∧
      i.entries.length ≤ p.limits.accounts ∧ i.height ≤ p.limits.stackHeight := by
  simp only [vet, throw_or_eq_ok_iff, bind_eq_ok_iff, exists_unit, not_or, ne_eq,
    Decidable.not_not, Nat.not_lt, checkSize_eq_ok_iff, and_assoc]
  refine and_congr_right fun _ => and_congr_right fun _ => and_congr_right fun _ =>
    and_congr_right fun _ => ?_
  by_cases h : p.limits.stackHeight < i.height
  · rw [if_pos h]
    refine ⟨fun h' => ?_, fun h' => absurd h (Nat.not_lt.2 h')⟩
    cases h'
  · rw [if_neg h]
    exact ⟨fun _ => Nat.not_lt.1 h, fun _ => rfl⟩

/-- The invocation is for the program, keeps its limits, and is the message in its binary form, with
accounts that bind to the layout of its instruction. -/
structure Receives (p : Program) (executing : Key) (i : Invocation) (x : Prepared) : Prop where
  registered : x.message.route ∈ p.routes
  program : i.program = p.key
  executing : executing = p.key
  data_le : i.data.length ≤ p.limits.instructionData
  entries_le : i.entries.length ≤ p.limits.accounts
  height_le : i.height ≤ p.limits.stackHeight
  data : i.data = x.message.data
  bound : Table.bind p.key i.entries x.message.route.layout = .ok x.table

theorem prepare_eq_ok_iff (distinct : p.Distinct) {x : Prepared} :
    p.prepare executing i = .ok x ↔ p.Receives executing i x := by
  unfold prepare
  refine ⟨?_, ?_⟩
  · intro h
    cases hvet : p.vet executing i with
    | error e =>
      rw [hvet] at h
      cases h
    | ok u =>
      rw [hvet] at h
      cases hdecode : p.decode i.data with
      | error e =>
        simp only [hdecode] at h
        cases h
      | ok m =>
        simp only [hdecode] at h
        cases hbind : Table.bind p.key i.entries m.route.layout with
        | error e =>
          simp only [hbind] at h
          cases h
        | ok table =>
          simp only [hbind] at h
          cases h
          obtain ⟨program, executing, data_le, entries_le, height_le⟩ := vet_eq_ok_iff.1 hvet
          obtain ⟨registered, data⟩ := (decode_eq_ok_iff distinct).1 hdecode
          exact ⟨registered, program, executing, data_le, entries_le, height_le, data, hbind⟩
  · intro receives
    have hvet : p.vet executing i = .ok () := vet_eq_ok_iff.2
      ⟨receives.program, receives.executing, receives.data_le, receives.entries_le, receives.height_le⟩
    have hdecode := (decode_eq_ok_iff distinct).2 ⟨receives.registered, receives.data⟩
    simp only [hvet, hdecode, receives.bound]

/-- runs the business logic of a prepared invocation and settles what it left -/
def carryOut {σ : Type} (p : Program) (host : Host σ) (s : σ) (i : Invocation) (x : Prepared) :
    Outcome × σ :=
  let (ending, scene) := x.message.logic.run host (p.frame i) ⟨s, x.table⟩
  finish host ending scene

theorem process_of_untaken {σ : Type} (host : Host σ) {s s' : σ} {e : HostError}
    (untaken : host.take s = (.error e, s')) :
    p.process host s = (.aborted .dispatching (.host e), s') := by
  simp only [process, dispatch, untaken]

/-- Business logic is reached by an invocation that is prepared, and by no other. -/
theorem process_of_prepare {σ : Type} (host : Host σ) {s s' : σ} (taken : host.take s = (.ok i, s')) :
    (∀ e, p.prepare (host.executing s') i = .error e →
      p.process host s = (.aborted .dispatching e, s')) ∧
    ∀ x, p.prepare (host.executing s') i = .ok x →
      p.process host s = p.carryOut host s' i x := by
  simp only [process, dispatch, taken, start_eq]
  refine ⟨?_, ?_⟩
  · intro e h
    rw [h]
    rfl
  · intro x h
    rw [h]
    rfl

end Program

/-! ## the format -/

/-- What is said of a program that reads its invocations without confusion. -/
structure Program.Wire (p : Program) : Prop where
  /-- without an invocation there is nothing to prepare -/
  untaken : ∀ {σ : Type} (host : Host σ) (s s' : σ) (e : HostError), host.take s = (.error e, s') →
    p.process host s = (.aborted .dispatching (.host e), s')
  /-- business logic is reached by what is prepared, and by nothing else -/
  reached : ∀ {σ : Type} (host : Host σ) (s s' : σ) (i : Invocation), host.take s = (.ok i, s') →
    (∀ e, p.prepare (host.executing s') i = .error e →
      p.process host s = (.aborted .dispatching e, s')) ∧
    ∀ x, p.prepare (host.executing s') i = .ok x → p.process host s = p.carryOut host s' i x
  /-- an invocation is prepared as a message exactly if it is received as one -/
  received : ∀ (executing : Key) (i : Invocation) (x : Prepared),
    p.prepare executing i = .ok x ↔ p.Receives executing i x
  /-- the data of a message is decoded back to it -/
  decoded : ∀ m : Message, m.route ∈ p.routes → p.decode m.data = .ok m
  /-- what runs the same message has the same data -/
  unambiguous : ∀ (executing executing' : Key) (i i' : Invocation) (x x' : Prepared),
    p.prepare executing i = .ok x → p.prepare executing' i' = .ok x' → x.message = x'.message →
      i.data = i'.data

theorem Greeter.distinct : program.Distinct := by
  unfold Program.Distinct
  decide +kernel

theorem Escrow.distinct : program.Distinct := by
  unfold Program.Distinct
  decide +kernel

theorem Swap.distinct : program.Distinct := by
  unfold Program.Distinct
  decide +kernel

/-- A program whose instructions have different discriminators, as those of greeter, escrow and swap
have, accepts exactly its wire format. -/
theorem Program.wire_format :
    (Greeter.program.Distinct ∧ Escrow.program.Distinct ∧ Swap.program.Distinct) ∧
      ∀ p : Program, p.Distinct → p.Wire := by
  refine ⟨⟨Greeter.distinct, Escrow.distinct, Swap.distinct⟩, fun p distinct => ?_⟩
  exact {
    untaken := fun host _ _ _ untaken => process_of_untaken host untaken
    reached := fun host _ _ _ taken => process_of_prepare host taken
    received := fun _ _ _ => prepare_eq_ok_iff distinct
    decoded := fun m hm => (decode_eq_ok_iff distinct).2 ⟨hm, rfl⟩
    unambiguous := fun _ _ i i' x x' hx hx' same => by
      rw [((prepare_eq_ok_iff distinct).1 hx).data, ((prepare_eq_ok_iff distinct).1 hx').data, same] }

/-- an invocation by which a user opens a greeting whose count starts at seven -/
def Invocation.welcome : Invocation where
  program := Greeter.key
  entries := [⟨true, true, { key := .ofNat 1, lamports := 500 }⟩, ⟨true, true, { key := .ofNat 2 }⟩,
    ⟨false, false, .program .system⟩]
  data := Greeter.openRoute.data (7 : Amount)
  height := 1
  callStack := []

theorem Invocation.welcome_prepared : ∃ table,
    Table.bind Greeter.key welcome.entries Greeter.openLayout = .ok table ∧
      Greeter.program.prepare Greeter.key welcome = .ok ⟨⟨Greeter.openRoute, (7 : Amount)⟩, table⟩ := by
  refine ⟨⟨Greeter.key, Table.bound Greeter.openLayout.specs welcome.entries⟩, rfl, ?_⟩
  refine ((Program.wire_format.2 Greeter.program Program.wire_format.1.1).received ..).2
    ⟨List.mem_cons_self .., rfl, rfl, ?_, by decide, by decide, rfl, rfl⟩
  show (Greeter.openLayout.discriminator ++ Codec.amount.write 7).length ≤ _
  rw [List.length_append, Layout.length_discriminator]
  decide

end AccountLedger
