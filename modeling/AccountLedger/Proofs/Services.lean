import AccountLedger.Proofs.Conservation
import AccountLedger.Proofs.Escrow.Ending
import AccountLedger.Proofs.Swap.Backing
/-!
# Runs of the greeter, the escrow and the swap program

Three programs serve the same ledger, in any order.  Whatever they do is a sequence of moves, so what
all moves preserve is preserved by their runs.

* `Greeter.opened_of_commit`, `Greeter.greeted_of_commit`: what the greeter has done when it commits;
* `Swap.acts_of_commit`: what the swap program has done;
* `Greeter.moves_of_commit` and the like: an invocation that commits has made moves;
* `Service.moves_of_run`: a run makes moves if every invocation that commits does;
* `run_even`: what is in circulation changes just as what was made, over any run.
-/

namespace AccountLedger

open Token (Holding circulating supply)

variable {l l' : Ledger} {i : Instruction} {f : Frame} {first last : Scene Ledger} {s s' : Store}
  {gives : Key → Prop}

/-! ## the greeter -/

namespace Greeter

/-- An opening that commits has made a vacant account a greeting of the user, and nothing else. -/
theorem opened_of_commit {count : Amount}
    (commit : program.Commit l i l' openRoute count f first last) :
    ∃ user k rent, openLayout.keyOf? i "user" = some user ∧
      openLayout.keyOf? i "greeting" = some k ∧ (l.store.read k).isVacant = true ∧
      ∀ k', l'.store.read k' = ((l.store.made user k rent (Record.space Greeting) key).putData k
        (Greeting.image ⟨user, count⟩ (Record.space Greeting))).read k' := by
  have h : Logic.Returns Ledger.host f first (openGreeting count) () last := commit.returns
  rw [openGreeting, Logic.returns_bind_iff] at h
  obtain ⟨_, mid, hmake, h⟩ := h
  obtain ⟨payer, record, rent, position, huser, hrecord, hp, hkey, _, vacant, _, _, drafts, sole⟩ :=
    commit.drafts.made commit.shown commit.clean (by decide) hmake
  simp only [Logic.returns_bind_iff, drafts.seated.returns_keyOf_iff, and_assoc,
    exists_eq_left] at h
  obtain ⟨user, hnamed, hsave⟩ := h
  cases huser.symm.trans hnamed
  have drafts := drafts.filled hp hkey sole hsave
  exact ⟨payer, record, rent, huser, hrecord, vacant, commit.settled _ drafts.mirrors⟩

theorem moves_of_open {count : Amount}
    (commit : program.Commit l i l' openRoute count f first last) :
    Moves gives l.store l'.store := by
  obtain ⟨user, k, rent, _, _, vacant, same⟩ := opened_of_commit commit
  have room : 8 + (Record.codec.write (⟨user, count⟩ : Greeting)).length ≤
      Record.space Greeting := by
    rw [Greeting.length_write]
    decide
  exact (Moves.one (.of_record _ vacant room (by decide))).more (.same same)

/-- What a greeting that commits has found and done: the account that it goes through is the
greeter's and begins as a greeting of a user who has signed, and it counts one more. -/
structure Greeted (i : Instruction) (k : Key) (g : Greeting) (s s' : Store) : Prop where
  named : greetLayout.keyOf? i "greeting" = some k
  owner : (s.read k).owner = key
  fits : (Record.tag Greeting).fits (s.read k).data = true
  decoded : Record.decode (s.read k).data = .ok g
  signed : i.Signed g.authority
  counted : ∃ count : Amount, count.toNat = g.count.toNat + 1 ∧ ∀ k', s'.read k' =
    (s.putData k (Greeting.image { g with count } (s.read k).data.length)).read k'

theorem greeted_of_commit {names : ShortList ShortText}
    (commit : program.Commit l i l' greetRoute names f first last) :
    ∃ k g, Greeted i k g l.store l'.store := by
  have h : Logic.Returns Ledger.host f first (greet names) () last := commit.returns
  simp only [greet, Logic.returns_bind_iff, commit.drafts.seated.returns_keyOf_iff,
    commit.drafts.seated.returns_record_iff commit.shown, Logic.returns_requireEq_iff, and_assoc,
    exists_and_left, exists_eq_left] at h
  obtain ⟨_, huser, g, ⟨k, hk, _, decoded⟩, rfl, _, h⟩ := h
  split at h
  · exact absurd h Logic.not_returns_fail
  rename_i count hcount
  obtain ⟨m, hm, _⟩ := Option.map_eq_some_iff.1 ((Layout.keyOf?_eq rfl i).symm.trans hk)
  obtain ⟨greeting, here, _⟩ := commit.drafts.seated.exists_handle hm
  obtain ⟨_, drafts⟩ := commit.drafts.saved rfl ((Layout.keyOf?_eq rfl i).symm.trans hk)
    (commit.shown.sole commit.clean here) h
  obtain ⟨_, _, hkey, met⟩ := commit.met_named "greeting" rfl rfl hk
  obtain ⟨owner, fits⟩ := met.record _ rfl
  exact ⟨k, g, hk, hkey ▸ owner, hkey ▸ fits, decoded,
    commit.signed_named "user" rfl rfl rfl huser, count, Amount.credit?_eq_some.1 hcount,
    commit.settled _ drafts.mirrors⟩

theorem moves_of_greet {names : ShortList ShortText}
    (commit : program.Commit l i l' greetRoute names f first last) : Moves gives l.store l'.store := by
  obtain ⟨k, g, greeted⟩ := greeted_of_commit commit
  obtain ⟨count, _, same⟩ := greeted.counted
  exact (Moves.one (.greets greeted.owner greeted.fits rfl)).more (.same same)

theorem moves_of_commit {r : Route} {params : r.Params}
    (commit : program.Commit l i l' r params f first last) : Moves gives l.store l'.store := by
  have hmem := List.mem_of_find?_eq_some commit.route
  simp only [program, List.mem_cons, List.not_mem_nil, or_false] at hmem
  rcases hmem with rfl | rfl
  · exact moves_of_open commit
  · exact moves_of_greet commit

end Greeter

/-! ## the escrow -/

namespace Escrow

theorem Steps.moves {o : Opening} {p : Parties} {held giver taker : Holding} {rent vaultRent : Amount}
    (steps : Steps o p held giver taker rent vaultRent s) (may : gives p.initializer) :
    Moves gives s
      (Token.transferred (p.opened o rent vaultRent s) p.deposit p.vault o.offered giver taker) := by
  have room : 8 + (Record.codec.write (p.terms o)).length ≤ Record.space Terms := by
    rw [Terms.length_write]
    decide
  have recorded : Move gives s (p.recorded o rent s) :=
    .of_record (p.terms o) steps.record_vacant room (by decide)
  have made : Move gives (p.recorded o rent s) (p.opened o rent vaultRent s) :=
    .makes ⟨steps.vault_vacant, vaultRent, rfl⟩
  exact ((Moves.one recorded).more made).more (.transfers may ⟨giver, taker, steps.may, rfl⟩)

theorem moves_of_open {o : Opening} (commit : program.Commit l i l' openRoute o f first last)
    (tokens : l.natives Token.program = some Token.native) : Moves i.Signed l.store l'.store := by
  obtain ⟨p, held, giver, taker, rent, vaultRent, _, signed, steps, drafts⟩ :=
    steps_of_returns commit.drafts commit.shown commit.clean commit.frame tokens commit.returns
  exact (steps.moves signed).more (.same (commit.settled _ drafts.mirrors))

theorem moves_of_commit {r : Route} {params : r.Params}
    (commit : program.Commit l i l' r params f first last)
    (tokens : l.natives Token.program = some Token.native) :
    Moves (fun _ => True) l.store l'.store := by
  have hmem := List.mem_of_find?_eq_some commit.route
  simp only [program, List.mem_cons, List.not_mem_nil, or_false] at hmem
  rcases hmem with rfl | rfl | rfl
  · exact (moves_of_open commit tokens).mono fun _ _ => trivial
  · obtain ⟨_, _, _, _, _, now, pays, emptied, drafts⟩ :=
      emptied_of_exchange commit.drafts commit.shown commit.frame tokens commit.returns
    exact ((Moves.one (.transfers trivial pays)).trans emptied.moves).more
      (.same (commit.settled now drafts.mirrors))
  · obtain ⟨now, emptied, drafts⟩ :=
      emptied_of_cancel commit.drafts commit.shown commit.frame tokens commit.returns
    exact emptied.moves.more (.same (commit.settled now drafts.mirrors))

end Escrow

/-! ## the swap program -/

namespace Swap

variable {p : Pool}

theorem Created.moves {record : Key} (h : Created record p s s') : Moves gives s s' := by
  obtain ⟨vacant, _, _, makesA, makesB, hands⟩ := h
  have room : 8 + (Record.codec.write p).length ≤ Record.space Pool := by
    rw [Pool.length_write]
    decide
  exact (((Moves.one (.of_record p vacant room (by decide))).more (.makes makesA)).more
    (.makes makesB)).more (.hands hands)

theorem Deposited.moves {d : Deposit} (h : Deposited i d p s s') : Moves (Vouched i) s s' := by
  obtain ⟨signed, _, _, _, _, sets, paysA, paysB, mints⟩ := h
  have may : Vouched i _ := .inl signed
  exact (((Moves.one (.sets sets)).more (.transfers may paysA)).more (.transfers may paysB)).more
    (.mints mints)

theorem Traded.moves {t : Trade} (h : Traded i t p s s') : Moves (Vouched i) s s' := by
  obtain ⟨signed, vouched, _, _, _, _, pays, yields⟩ := h
  exact (Moves.one (.transfers (.inl signed) pays)).more (.transfers vouched yields)

theorem Withdrawn.moves {w : Withdrawal} (h : Withdrawn i w p s s') : Moves (Vouched i) s s' := by
  obtain ⟨signed, vouched, _, _, _, _, _, drawsA, drawsB, burns⟩ := h
  exact ((Moves.one (.transfers vouched drawsA)).more (.transfers vouched drawsB)).more
    (.burns (.inl signed) burns)

theorem Shut.moves (h : Shut i p s s') : Moves (Vouched i) s s' := by
  obtain ⟨vouched, vouched', closesA, closesB⟩ := h
  exact (Moves.one (.closes vouched closesA)).more (.closes vouched' closesB)

/-- what an instruction of the swap program does -/
inductive Acts (i : Instruction) (s s' : Store) : Prop
  | created {record : Key} {p : Pool} (h : Created record p s s')
  | deposited {p : Pool} {d : Deposit} (h : Deposited i d p s s')
  | traded {p : Pool} {t : Trade} (h : Traded i t p s s')
  | withdrawn {p : Pool} {w : Withdrawal} (h : Withdrawn i w p s s')
  | shut {p : Pool} (h : Shut i p s s')

theorem acts_of_commit {r : Route} {params : r.Params}
    (commit : program.Commit l i l' r params f first last)
    (tokens : l.natives Token.program = some Token.native)
    (associated : l.natives Token.Associated.program = some Token.Associated.native) :
    ∃ now, Acts i l.store now ∧ ∀ k, l'.store.read k = now.read k := by
  have acts : ∃ now, Acts i l.store now ∧ last.Drafts l r.layout i now := by
    have hmem := List.mem_of_find?_eq_some commit.route
    simp only [program, List.mem_cons, List.not_mem_nil, or_false] at hmem
    rcases hmem with rfl | rfl | rfl | rfl | rfl
    · obtain ⟨_, _, now, _, _, created, drafts⟩ := created_of_returns commit.drafts commit.shown
        commit.clean commit.frame tokens commit.returns
      exact ⟨now, .created created, drafts⟩
    · obtain ⟨_, now, _, deposited, drafts⟩ :=
        deposited_of_returns commit.drafts commit.shown tokens associated commit.returns
      exact ⟨now, .deposited deposited, drafts⟩
    · obtain ⟨_, now, _, traded, drafts⟩ :=
        traded_of_returns commit.drafts commit.shown commit.frame tokens commit.returns
      exact ⟨now, .traded traded, drafts⟩
    · obtain ⟨_, now, _, withdrawn, drafts⟩ :=
        withdrawn_of_returns commit.drafts commit.shown commit.frame tokens commit.returns
      exact ⟨now, .withdrawn withdrawn, drafts⟩
    · obtain ⟨_, now, _, _, _, shut, drafts⟩ :=
        shut_of_returns commit.drafts commit.shown commit.frame tokens commit.returns
      exact ⟨now, .shut shut, drafts⟩
  obtain ⟨now, acts, drafts⟩ := acts
  exact ⟨now, acts, commit.settled now drafts.mirrors⟩

theorem moves_of_commit {r : Route} {params : r.Params}
    (commit : program.Commit l i l' r params f first last)
    (tokens : l.natives Token.program = some Token.native)
    (associated : l.natives Token.Associated.program = some Token.Associated.native) :
    Moves (Vouched i) l.store l'.store := by
  obtain ⟨now, acts, same⟩ := acts_of_commit commit tokens associated
  have moves : Moves (Vouched i) l.store now := by
    cases acts with
    | created h => exact h.moves
    | deposited h => exact h.moves
    | traded h => exact h.moves
    | withdrawn h => exact h.moves
    | shut h => exact h.moves
  exact moves.more (.same same)

end Swap

/-! ## runs -/

/-- the programs that serve a ledger together -/
inductive Service where
  | greeter
  | escrow
  | swap
deriving DecidableEq

namespace Service

def program : Service → Program
  | .greeter => Greeter.program
  | .escrow => Escrow.program
  | .swap => Swap.program

/-- what becomes of a ledger that is given a submission for one of the services -/
def served (l : Ledger) (x : Service × Submission) : Ledger := x.1.program.served l x.2

theorem conserves_run (l : Ledger) (run : List (Service × Submission)) :
    l.Conserves (run.foldl served l) := by
  induction run generalizing l with
  | nil => exact .of_store_eq rfl
  | cons x rest ih =>
    have staged : l.Conserves (l.submitNested x.2.instruction x.2.height x.2.callStack) :=
      .of_store_eq rfl
    exact (staged.trans (Ledger.process_conserves _ _)).trans (ih (served l x))

theorem moves_of_commit {r : Route} {params : r.Params} (service : Service)
    (commit : service.program.Commit l i l' r params f first last)
    (tokens : l.natives Token.program = some Token.native)
    (associated : l.natives Token.Associated.program = some Token.Associated.native) :
    Moves (fun _ => True) l.store l'.store := by
  cases service with
  | greeter => exact Greeter.moves_of_commit commit
  | escrow => exact Escrow.moves_of_commit commit tokens
  | swap => exact (Swap.moves_of_commit commit tokens associated).mono fun _ _ => trivial

/-- If every submission that commits has made moves, a run has. -/
theorem moves_of_run {run : List (Service × Submission)} {l : Ledger}
    (step : ∀ x ∈ run, ∀ here, here.natives = l.natives → ∀ r params f first last,
      x.1.program.Commit here x.2.instruction (served here x) r params f first last →
        Moves gives here.store (served here x).store) :
    let last := run.foldl served l
    last.natives = l.natives ∧ Moves gives l.store last.store := by
  have keeps : ∀ here, here.natives = l.natives → Moves gives l.store here.store →
      (run.foldl served here).natives = l.natives ∧
        Moves gives l.store (run.foldl served here).store := by
    induction run with
    | nil => exact fun here natives moves => ⟨natives, moves⟩
    | cons x rest ih =>
      intro here natives moves
      rw [List.foldl_cons]
      refine ih (fun y hy => step y (List.mem_cons_of_mem _ hy)) (served here x) ?_ (moves.trans ?_)
      · exact (Program.natives_served here x.2).trans natives
      · rcases Program.served_cases (p := x.1.program) here x.2 with
          ⟨_, hstore⟩ | ⟨_, r, params, f, first, last, commit⟩
        · rw [served, hstore]
          exact .none
        · exact step x (List.mem_cons_self ..) here natives r params f first last commit
  exact keeps l rfl .none

end Service

/-- Over any run of the three programs what is in circulation changes just as what was made, if no
account of the greeter is a holding at the start. -/
theorem run_even (l : Ledger) (run : List (Service × Submission))
    (installed : l.natives Token.program = some Token.native)
    (associated : l.natives Token.Associated.program = some Token.Associated.native)
    (apart : Greeter.Apart l.store) :
    let last := run.foldl Service.served l
    ∀ mint, (circulating last.store mint : Int) - supply last.store mint =
      circulating l.store mint - supply l.store mint := by
  intro last mint
  have moved : last.natives = l.natives ∧ Moves (fun _ => True) l.store last.store := by
    refine Service.moves_of_run fun x _ here natives r params f first last commit => ?_
    exact x.1.moves_of_commit commit (natives ▸ installed) (natives ▸ associated)
  obtain ⟨even, _⟩ := moved.2.even apart
  have := even mint
  omega

/-- The creator of a pool burns its liquidity, opens an escrow with what it got, and opens a
greeting. -/
def errands : List (Service × Submission) :=
  let parties : Escrow.Parties :=
    ⟨.ofNat 2, .ofNat 12, Escrow.vault, .ofNat 24, .ofNat 25, .ofNat 31⟩
  let greeting : Instruction :=
    { program := Greeter.key
      metas := [⟨.ofNat 2, true, true⟩, ⟨.ofNat 30, true, true⟩, ⟨.system, false, false⟩]
      data := Greeter.openRoute.data (0 : Amount) }
  [(.swap, Swap.drawing), (.escrow, ⟨parties.opening ⟨254, 49, 1⟩, 1, []⟩),
    (.greeter, ⟨greeting, 1, []⟩)]

/-- All of them commit, and what was burnt is missing on both sides. -/
theorem errands_even :
    let l := Swap.stocked
    let last := errands.foldl Service.served l
    let mint := Key.ofNat 14
    (circulating l.store mint, supply l.store mint) = (30, 70) ∧
      (circulating last.store mint, supply last.store mint) = (0, 40) ∧
      Token.tokens last.store Escrow.vault = 49 ∧
      (last.store.read (.ofNat 30)).owner = Greeter.key ∧
      (circulating last.store mint : Int) - supply last.store mint =
        circulating l.store mint - supply l.store mint := by
  have run : (circulating Swap.stocked.store (.ofNat 14), supply Swap.stocked.store (.ofNat 14)) =
        (30, 70) ∧
      let last := errands.foldl Service.served Swap.stocked
      (circulating last.store (.ofNat 14), supply last.store (.ofNat 14)) = (0, 40) ∧
        Token.tokens last.store Escrow.vault = 49 ∧
          (last.store.read (.ofNat 30)).owner = Greeter.key := by
    decide +kernel
  have apart : Greeter.Apart Swap.stocked.store := fun k owner =>
    absurd owner (Store.owner_read_ne (by decide) (by decide +kernel) k)
  have even := run_even Swap.stocked errands rfl rfl apart (.ofNat 14)
  exact ⟨run.1, run.2.1, run.2.2.1, run.2.2.2, even⟩

/-! ## an account that is a greeting and a holding -/

namespace Greeter

/-- a mint whose key begins as a greeting of the user does -/
def doubledMint : Key := .ofNat 0xe1b6384d6da68ea5000000000000000000000000000000000000000000000000

/-- a ledger on which all five tokens of a mint lie in an account that is also a greeting of the
user -/
def doubled : Ledger :=
  let unset : Token.Clearable Key := ⟨false, .ofNat 0⟩
  let mint : Token.Mint := ⟨unset, 5, 0, true, unset⟩
  let owner : Key := .ofNat 0x0000000000000001000000000000000000000000000000000000000000000000
  let held : Account :=
    { key := .ofNat 4, lamports := 10000000, data := (Holding.opened doubledMint owner 5 []).pack,
      owner := key }
  [{ key := .ofNat 1, lamports := 1000000000 }, held,
    { key := doubledMint, lamports := 10000000, data := mint.pack, owner := Token.program }].foldl
      Ledger.addAccount Ledger.start.withTokens

def greeting : Submission where
  instruction :=
    { program := key
      metas := [⟨.ofNat 1, true, false⟩, ⟨.ofNat 4, false, true⟩]
      data := greetRoute.data (⟨[], by decide⟩ : ShortList ShortText) }
  height := 1
  callStack := []

/-- The user greets, and the greeting is written over the holding.  The tokens are gone, but the mint
says that there are five. -/
theorem greeted_uneven :
    let last := Service.served doubled (.greeter, greeting)
    program.committed? doubled greeting = some greeting.instruction ∧
      (circulating doubled.store doubledMint, supply doubled.store doubledMint) = (5, 5) ∧
      (circulating last.store doubledMint, supply last.store doubledMint) = (0, 5) ∧
      (circulating last.store doubledMint : Int) - supply last.store doubledMint ≠
        circulating doubled.store doubledMint - supply doubled.store doubledMint := by
  decide +kernel

end Greeter

end AccountLedger
