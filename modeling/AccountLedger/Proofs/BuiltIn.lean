import AccountLedger.Proofs.Stranded
/-!
# The ledger has nothing to object to

The ledger looks at the balances after every inner call and refuses one whose program has changed
their sum.  The programs that come with it never do: they move lamports from slot to slot, also if the
two are one, or if several slots have one key.  Nor do they touch what the ledger alone gives an
account.

* `Account.SameKind`: what no program changes about an account;
* `SystemProgram.Performed.sameKind`, `Token.Performed.sameKind`, `Associated.Performed.sameKind`: the
  three programs do not;
* `Objection`, `BuiltIn.objects`: all that they refuse an instruction with;
* `BuiltIn.keeps_balance`: so the ledger answers what the program does.
-/

namespace AccountLedger

/-! ## what no program changes -/

/-- The account has the key, the mark of a program and the epoch that it had. -/
structure Account.SameKind (a b : Account) : Prop where
  key : b.key = a.key
  executable : b.executable = a.executable
  rentEpoch : b.rentEpoch = a.rentEpoch

theorem Account.SameKind.refl (a : Account) : a.SameKind a := ⟨rfl, rfl, rfl⟩

theorem Account.SameKind.trans {a b c : Account} (h : a.SameKind b) (h' : b.SameKind c) :
    a.SameKind c :=
  ⟨h'.key.trans h.key, h'.executable.trans h.executable, h'.rentEpoch.trans h.rentEpoch⟩

section

variable {n : Nat} {accounts after : Slots n} {p q r : Fin n}

theorem Slots.sameKind_put {a : Account} (h : (accounts.get p).SameKind a) :
    (accounts.get r).SameKind ((accounts.put p a).get r) := by
  rw [get_put]
  split
  · rename_i hr
    exact hr ▸ h
  · exact .refl _

theorem Slots.sameKind_moved (accounts : Slots n) (p q : Fin n) (amount : Amount) (r : Fin n) :
    (accounts.get r).SameKind ((accounts.moved p q amount).get r) := by
  rw [get_moved]
  exact ⟨rfl, rfl, rfl⟩

variable {i : Instruction} {signers : List Key}

theorem SystemProgram.Performed.sameKind (h : Performed i accounts signers after) :
    (accounts.get r).SameKind (after.get r) := by
  cases h with
  | created => exact (Slots.sameKind_moved _ _ _ _ _).trans (Slots.sameKind_put ⟨rfl, rfl, rfl⟩)
  | transferred => exact Slots.sameKind_moved _ _ _ _ _
  | assigned => exact Slots.sameKind_put ⟨rfl, rfl, rfl⟩
  | allocated => exact Slots.sameKind_put ⟨rfl, rfl, rfl⟩

theorem Token.Rewritten.sameKind {a b : Account} (h : Rewritten a b) : a.SameKind b := by
  cases h <;> exact ⟨rfl, rfl, rfl⟩

theorem Token.Performed.sameKind (h : Performed i accounts signers after) :
    (accounts.get r).SameKind (after.get r) := by
  cases h with
  | opened => exact Slots.sameKind_put ⟨rfl, rfl, rfl⟩
  | rewritten _ each => exact (each r).sameKind
  | closed => exact (Slots.sameKind_moved _ _ _ _ _).trans (Slots.sameKind_put ⟨rfl, rfl, rfl⟩)

theorem Token.Associated.Performed.sameKind (h : Performed accounts signers after) :
    (accounts.get r).SameKind (after.get r) := by
  cases h with
  | accepted => exact .refl _
  | opened => exact (Slots.sameKind_moved _ _ _ _ _).trans (Slots.sameKind_put ⟨rfl, rfl, rfl⟩)

end

/-! ## what a program refuses with -/

/-- the ledger's objection to a program that has changed the sum of the balances -/
def Ledger.unbalanced (program : Key) (before after : Nat) : HostError :=
  ⟨s!"program {program} unbalanced the instruction: {before} -> " ++ s!"{after} lamports", none⟩

theorem Ledger.balanced_of_uneven {n : Nat} {program : Key} {before : Slots n} {reply : Reply n}
    (ok : reply.result = .ok ()) (uneven : before.total ≠ reply.accounts.total) :
    balanced program before reply =
      ⟨.error (.refused (unbalanced program before.total reply.accounts.total)), reply.accounts⟩ := by
  rw [balanced, ok]
  exact if_neg uneven

/-- what a native program refuses an instruction with: a program error, or that it does not know the
instruction -/
inductive Objection : HostError → Prop
  | program (e : ProgramError) : Objection (.ofProgram e)
  | unsupported (command : SystemProgram.Command) :
      Objection ⟨s!"system instruction {command.text} is not supported", none⟩

theorem Objection.ne_unbalanced {e : HostError} (h : Objection e) (program : Key)
    (before after : Nat) : e ≠ Ledger.unbalanced program before after := by
  intro he
  cases h with
  | program e => cases congrArg HostError.code he
  | unsupported command =>
    have hfirst := congrArg (fun e => e.message.toList.head?) he
    have hs : (toString "system instruction ").toList.head? = some 's' := by decide
    have hp : (toString "program ").toList.head? = some 'p' := by decide
    simp [Ledger.unbalanced, hs, hp] at hfirst

namespace Reply

variable {n : Nat} {α : Type} {accounts : Slots n}

/-- If the reply is a refusal, it is one that programs make. -/
def Objects (reply : Reply n) : Prop :=
  ∀ e, reply.result = .error (.refused e) → Objection e

theorem objects_refuse (e : ProgramError) (accounts : Slots n) : (refuse e accounts).Objects := by
  rintro _ ⟨⟩
  exact .program e

theorem objects_done (accounts : Slots n) : (done accounts).Objects := fun _ h => nomatch h

theorem objects_crash (c : Crash) (accounts : Slots n) : (crash c accounts).Objects :=
  fun _ h => nomatch h

theorem objects_afterChecks {checks : Except ProgramError α} {next : α → Reply n}
    (h : ∀ a, (next a).Objects) : (afterChecks accounts checks next).Objects := by
  cases checks with
  | error e => exact objects_refuse e accounts
  | ok a => exact h a

theorem objects_ofChanged (changed : Except ProgramError (Slots n)) :
    (ofChanged accounts changed).Objects :=
  objects_afterChecks objects_done

end Reply

section

variable {n : Nat} {accounts : Slots n}

theorem SystemProgram.allocateSlot_objects (p : Fin n) (space : UInt64) (owner : Key) :
    (allocateSlot accounts p space owner).Objects := by
  unfold allocateSlot
  split
  · exact Reply.objects_crash _ _
  · exact Reply.objects_done _

theorem SystemProgram.perform_objects (i : Instruction) (accounts : Slots n) (signers : List Key)
    (command : Command) : (perform i accounts signers command).Objects := by
  cases command with
  | createAccount amount space owner =>
    refine Reply.objects_afterChecks fun found => ?_
    dsimp only
    split
    · exact Reply.objects_refuse _ _
    · exact allocateSlot_objects _ _ _
  | transfer amount =>
    refine Reply.objects_afterChecks fun found => ?_
    dsimp only
    split
    · exact Reply.objects_refuse _ _
    · exact Reply.objects_done _
  | assign owner => exact Reply.objects_afterChecks fun p => Reply.objects_done _
  | allocate space => exact Reply.objects_afterChecks fun p => allocateSlot_objects _ _ _
  | _ =>
    rintro _ ⟨⟩
    exact .unsupported _

theorem Token.perform_objects (i : Instruction) (accounts : Slots n) (signers : List Key)
    (command : Command) : (perform i accounts signers command).Objects := by
  cases command with
  | openHolding wallet =>
    refine Reply.objects_afterChecks fun found => ?_
    dsimp only
    split
    · exact Reply.objects_crash _ _
    · exact Reply.objects_done _
  | close =>
    refine Reply.objects_afterChecks fun found => ?_
    dsimp only
    split
    · exact Reply.objects_refuse _ _
    · exact Reply.objects_done _
  | other number => exact Reply.objects_refuse _ _
  | _ => exact Reply.objects_ofChanged _

end

/-! ## the programs that come with the ledger -/

/-- the programs that come with the ledger -/
inductive BuiltIn where
  | system
  | token
  | associated

namespace BuiltIn

def native : BuiltIn → Native
  | .system => SystemProgram.native
  | .token => Token.native
  | .associated => Token.Associated.native

variable {n : Nat} {accounts after : Slots n} {i : Instruction} {signers : List Key}
  {calls : List Request}

theorem even (b : BuiltIn) : b.native.Even := by
  cases b with
  | system => exact SystemProgram.native_even
  | token => exact Token.native_even
  | associated => exact Token.Associated.native_even

theorem sameKind (b : BuiltIn) (h : b.native calls i accounts signers = .done after) (p : Fin n) :
    (accounts.get p).SameKind (after.get p) := by
  cases b with
  | system =>
    change SystemProgram.native calls i accounts signers = _ at h
    exact (SystemProgram.performed_of_done h).sameKind
  | token =>
    change Token.native calls i accounts signers = _ at h
    exact (Token.performed_of_done h).sameKind
  | associated =>
    change Token.Associated.native calls i accounts signers = _ at h
    exact (Token.Associated.performed_of_done h).sameKind

theorem objects (b : BuiltIn) (calls : List Request) (i : Instruction) (accounts : Slots n)
    (signers : List Key) : (b.native calls i accounts signers).Objects := by
  cases b with
  | system =>
    show (SystemProgram.native calls i accounts signers).Objects
    unfold SystemProgram.native
    split
    · exact SystemProgram.perform_objects _ _ _ _
    · exact Reply.objects_refuse _ _
  | token =>
    show (Token.native calls i accounts signers).Objects
    unfold Token.native
    split
    · exact Token.perform_objects _ _ _ _
    · exact Reply.objects_refuse _ _
  | associated =>
    refine Reply.objects_afterChecks fun o => ?_
    split
    · exact Reply.objects_crash _ _
    · exact Reply.objects_crash _ _
    · split
      · exact Reply.objects_refuse _ _
      · exact Reply.objects_ofChanged _

/-- A program that comes with the ledger leaves the sum of the balances and the kind of every account
when it carries out an instruction, so the ledger answers what the program does and never objects. -/
theorem keeps_balance (b : BuiltIn) (i : Instruction) (accounts : Slots n) (signers : List Key) :
    (∀ calls, (b.native calls i accounts signers).result = .ok () →
      (b.native calls i accounts signers).accounts.total = accounts.total ∧
        ∀ p, (accounts.get p).SameKind ((b.native calls i accounts signers).accounts.get p)) ∧
    ∀ (l : Ledger) (height : Nat), l.native? i.program = some b.native →
      (Ledger.host.invoke l i accounts signers height).1 = b.native l.calls i accounts signers ∧
        ∀ before after, (Ledger.host.invoke l i accounts signers height).1.result ≠
          .error (.refused (Ledger.unbalanced i.program before after)) := by
  refine ⟨fun calls ok => ?_, fun l height loaded => ?_⟩
  · have hdone := Reply.result_eq_ok_iff.1 ok
    exact ⟨b.even _ _ _ _ _ hdone, b.sameKind hdone⟩
  · have hreply : (Ledger.host.invoke l i accounts signers height).1 =
        b.native l.calls i accounts signers := Ledger.execute_of_even loaded b.even
    refine ⟨hreply, fun before after objected => ?_⟩
    rw [hreply] at objected
    exact (b.objects _ _ _ _ _ objected).ne_unbalanced _ _ _ rfl

/-! ## a wallet that pays itself -/

/-- one wallet in two slots -/
def doubled : Slots 2 := #v[{ key := .ofNat 1, lamports := 10 }, { key := .ofNat 1, lamports := 5 }]

def selfPayment : Instruction where
  program := .system
  metas := [⟨.ofNat 1, true, true⟩, ⟨.ofNat 1, true, true⟩]
  data := [2, 0, 0, 0, 7, 0, 0, 0, 0, 0, 0, 0]

theorem selfPayment_keeps_balance :
    (system.native [] selfPayment doubled [.ofNat 1]).result = .ok () ∧
      (system.native [] selfPayment doubled [.ofNat 1]).accounts.total = doubled.total ∧
      (Ledger.host.invoke .start selfPayment doubled [.ofNat 1] 2).1 =
        system.native [] selfPayment doubled [.ofNat 1] := by
  have ok : (system.native [] selfPayment doubled [.ofNat 1]).result = .ok () :=
    Reply.result_of_isOk (by decide +kernel)
  have h := keeps_balance .system selfPayment doubled [.ofNat 1]
  exact ⟨ok, (h.1 [] ok).1, (h.2 .start 2 rfl).1⟩

end BuiltIn

end AccountLedger
