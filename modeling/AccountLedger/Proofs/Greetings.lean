import AccountLedger.Proofs.Services
import AccountLedger.Proofs.Wire
/-!
# What a greeting counts

An account that was made a greeting counts the greetings through it, whatever else is carried out on
the ledger meanwhile.  Nothing but a greeting writes to it: it is neither a holding nor a mint, so no
command of the token programs touches its data, and it is not vacant, so nothing is made of it.

* `Rests`: what is neither a holding nor a mint stays as it is; `rests_of_commit`: it does so unless a
  greeting is carried out;
* `Counts`: what is known of a greeting after some greetings through it;
* `Counts.of_commit`: one invocation that commits;
* `Counts.run`: a run;
* `run_counts`: a greeting from its opening on.
-/

namespace AccountLedger

open Token (Fate Holding Mint)

variable {l l' : Ledger} {i : Instruction} {f : Frame} {first last : Scene Ledger} {s s' s'' : Store}
  {k user : Key} {n : Nat}

/-! ## what stays as it is -/

/-- the account belongs to a program, and is neither a holding nor a mint -/
structure Filed (a : Account) : Prop where
  claimed : a.owner ≠ .system
  noHolding : ∀ held, Holding.unpack a.data ≠ .ok held
  noMint : ∀ m, Mint.unpack a.data ≠ .ok m

theorem Filed.occupied {a : Account} (h : Filed a) : a.isVacant = false :=
  Bool.eq_false_iff.2 fun vacant => h.claimed (Account.isVacant_iff.1 vacant).2.2

/-- what belongs to a program and is neither a holding nor a mint stays so, with its data -/
def Rests (s s' : Store) : Prop :=
  ∀ k, Filed (s.read k) → (s'.read k).data = (s.read k).data ∧ (s'.read k).owner = (s.read k).owner

namespace Rests

theorem of_same (h : ∀ k, s'.read k = s.read k) : Rests s s' := fun k _ =>
  ⟨congrArg Account.data (h k), congrArg Account.owner (h k)⟩

theorem trans (h : Rests s s') (h' : Rests s' s'') : Rests s s'' := by
  intro k filed
  obtain ⟨data, owner⟩ := h k filed
  have filed' : Filed (s'.read k) :=
    ⟨owner ▸ filed.claimed, data ▸ filed.noHolding, data ▸ filed.noMint⟩
  obtain ⟨data', owner'⟩ := h' k filed'
  exact ⟨data'.trans data, owner'.trans owner⟩

/-- No step of the token programs touches such an account. -/
theorem of_fates {takes closes : Key → Key → Prop}
    (fates : ∀ k, Fate (takes k) (closes k) (s.read k) (s'.read k)) : Rests s s' := fun k filed =>
  (fates k).same filed.occupied filed.noHolding filed.noMint

/-- The making of a record touches a vacant account and a balance. -/
theorem recorded {payer record owner : Key} {rent : Amount} {space : Nat} {data : Bytes}
    (vacant : (s.read record).isVacant = true) :
    Rests s ((s.made payer record rent space owner).putData record data) := by
  intro k filed
  rw [Store.read_filled]
  by_cases hk : record = k
  · rw [hk, filed.occupied] at vacant
    cases vacant
  · rw [if_neg hk]
    split
    · rename_i h
      rw [h]
      exact ⟨rfl, rfl⟩
    · exact ⟨rfl, rfl⟩

end Rests

/-! ## invocations that are no greeting -/

theorem Escrow.Steps.rests {o : Escrow.Opening} {p : Escrow.Parties} {held giver taker : Holding}
    {rent vaultRent : Amount} (steps : Escrow.Steps o p held giver taker rent vaultRent s) :
    Rests s
      (Token.transferred (p.opened o rent vaultRent s) p.deposit p.vault o.offered giver taker) := by
  have recorded : Rests s (p.recorded o rent s) := .recorded steps.record_vacant
  have made : Token.Makes (p.recorded o rent s) p.initializer p.vault p.mint Escrow.authority
      (p.opened o rent vaultRent s) := ⟨steps.vault_vacant, vaultRent, rfl⟩
  have filled : Token.Transfers (p.opened o rent vaultRent s) p.deposit p.vault p.initializer
    o.offered _ := ⟨giver, taker, steps.may, rfl⟩
  exact (recorded.trans (.of_fates made.fate)).trans (.of_fates filled.fate)

theorem Escrow.Emptied.rests (h : Escrow.Emptied s s') : Rests s s' := by
  obtain ⟨sends, closes⟩ := h
  exact (Rests.of_fates sends.fate).trans (.of_fates closes.fate)

theorem Escrow.rests_of_commit {r : Route} {params : r.Params}
    (commit : Escrow.program.Commit l i l' r params f first last)
    (tokens : l.natives Token.program = some Token.native) : Rests l.store l'.store := by
  have hmem := List.mem_of_find?_eq_some commit.route
  simp only [Escrow.program, List.mem_cons, List.not_mem_nil, or_false] at hmem
  rcases hmem with rfl | rfl | rfl
  · obtain ⟨p, held, giver, taker, rent, vaultRent, _, _, steps, drafts⟩ :=
      steps_of_returns commit.drafts commit.shown commit.clean commit.frame tokens commit.returns
    exact steps.rests.trans (.of_same (commit.settled _ drafts.mirrors))
  · obtain ⟨_, _, _, _, _, now, pays, emptied, drafts⟩ :=
      emptied_of_exchange commit.drafts commit.shown commit.frame tokens commit.returns
    exact ((Rests.of_fates pays.fate).trans emptied.rests).trans
      (.of_same (commit.settled now drafts.mirrors))
  · obtain ⟨now, emptied, drafts⟩ :=
      emptied_of_cancel commit.drafts commit.shown commit.frame tokens commit.returns
    exact emptied.rests.trans (.of_same (commit.settled now drafts.mirrors))

namespace Swap

variable {p : Pool}

theorem Created.rests {record : Key} (h : Created record p s s') : Rests s s' := by
  obtain ⟨vacant, _, _, makesA, makesB, hands⟩ := h
  exact (((Rests.recorded vacant).trans (.of_fates makesA.fate)).trans (.of_fates makesB.fate)).trans
    (.of_fates hands.fate)

theorem Deposited.rests {d : Deposit} (h : Deposited i d p s s') : Rests s s' := by
  obtain ⟨_, _, _, _, _, sets, paysA, paysB, mints⟩ := h
  exact (((Rests.of_fates sets.fate).trans (.of_fates paysA.fate)).trans (.of_fates paysB.fate)).trans
    (.of_fates mints.fate)

theorem Traded.rests {t : Trade} (h : Traded i t p s s') : Rests s s' := by
  obtain ⟨_, _, _, _, _, _, pays, yields⟩ := h
  exact (Rests.of_fates pays.fate).trans (.of_fates yields.fate)

theorem Withdrawn.rests {w : Withdrawal} (h : Withdrawn i w p s s') : Rests s s' := by
  obtain ⟨_, _, _, _, _, _, _, drawsA, drawsB, burns⟩ := h
  exact ((Rests.of_fates drawsA.fate).trans (.of_fates drawsB.fate)).trans (.of_fates burns.fate)

theorem Shut.rests (h : Shut i p s s') : Rests s s' := by
  obtain ⟨_, _, closesA, closesB⟩ := h
  exact (Rests.of_fates closesA.fate).trans (.of_fates closesB.fate)

theorem rests_of_commit {r : Route} {params : r.Params}
    (commit : program.Commit l i l' r params f first last)
    (tokens : l.natives Token.program = some Token.native)
    (associated : l.natives Token.Associated.program = some Token.Associated.native) :
    Rests l.store l'.store := by
  obtain ⟨now, acts, same⟩ := acts_of_commit commit tokens associated
  have rests : Rests l.store now := by
    cases acts with
    | created h => exact h.rests
    | deposited h => exact h.rests
    | traded h => exact h.rests
    | withdrawn h => exact h.rests
    | shut h => exact h.rests
  exact rests.trans (.of_same same)

end Swap

/-! ## one invocation -/

namespace Greeter

/-- the instruction greets through the account -/
def Greets (k : Key) (x : Service × Instruction) : Prop :=
  x.1 = .greeter ∧ x.2.data.take 8 = greetLayout.discriminator ∧
    greetLayout.keyOf? x.2 "greeting" = some k

/-- the instruction makes the account a greeting -/
def Opens (k : Key) (x : Service × Instruction) : Prop :=
  x.1 = .greeter ∧ x.2.data.take 8 = openLayout.discriminator ∧
    openLayout.keyOf? x.2 "greeting" = some k

instance (k : Key) (x : Service × Instruction) : Decidable (Greets k x) :=
  inferInstanceAs (Decidable (_ ∧ _ ∧ _))

instance (k : Key) (x : Service × Instruction) : Decidable (Opens k x) :=
  inferInstanceAs (Decidable (_ ∧ _ ∧ _))

/-- the account is a greeting of the user, with a count -/
structure Counts (k user : Key) (n : Nat) (s : Store) : Prop where
  owner : (s.read k).owner = key
  data : ∃ count : Amount, count.toNat = n ∧
    (s.read k).data = Greeting.image ⟨user, count⟩ (Record.space Greeting)

namespace Counts

theorem filed (h : Counts k user n s) : Filed (s.read k) := by
  obtain ⟨count, _, data⟩ := h.data
  refine ⟨?_, ?_, ?_⟩
  · rw [h.owner]
    decide
  · rw [data]
    exact Greeting.not_holding _ _
  · rw [data]
    exact not_mint_of_fits (Tag.fits_image _ _ _)

theorem rests (h : Counts k user n s) (rests : Rests s s') : Counts k user n s' := by
  obtain ⟨data, owner⟩ := rests k h.filed
  exact ⟨owner.trans h.owner, data ▸ h.data⟩

theorem decoded (h : Counts k user n s) :
    ∃ g : Greeting, Record.decode (s.read k).data = .ok g ∧ g.authority = user ∧
      g.count.toNat = n := by
  obtain ⟨count, hcount, data⟩ := h.data
  refine ⟨⟨user, count⟩, ?_, rfl, hcount⟩
  rw [data]
  exact Tag.decode_image _ _ _ _

/-- A greeting through the account is one of the user, and is counted. -/
theorem greeted {g : Greeting} (h : Counts k user n s) (greeted : Greeted i k g s s') :
    i.Signed user ∧ Counts k user (n + 1) s' := by
  obtain ⟨g', hdecoded, rfl, hcount⟩ := h.decoded
  obtain rfl : g' = g := Except.ok.inj (hdecoded.symm.trans greeted.decoded)
  obtain ⟨next, hnext, same⟩ := greeted.counted
  obtain ⟨_, _, data⟩ := h.data
  have hlength : (s.read k).data.length = Record.space Greeting := by
    rw [data]
    exact Tag.length_image (by rw [Greeting.length_write]; decide)
  have hread := same k
  rw [Store.read_putData, if_pos rfl, hlength] at hread
  refine ⟨greeted.signed, (congrArg Account.owner hread).trans h.owner, next, ?_,
    congrArg Account.data hread⟩
  rw [hnext, hcount]

/-- A greeting through another account is not counted. -/
theorem passed {k' : Key} {g : Greeting} (h : Counts k user n s) (greeted : Greeted i k' g s s')
    (ne : k' ≠ k) : Counts k user n s' := by
  obtain ⟨_, _, same⟩ := greeted.counted
  have hread := same k
  rw [Store.read_putData, if_neg ne] at hread
  exact ⟨hread ▸ h.owner, hread ▸ h.data⟩

theorem discriminators_ne : openLayout.discriminator ≠ greetLayout.discriminator := by
  decide +kernel

/-- A greeting is opened in a vacant account, so in another one. -/
theorem of_open {count : Amount} (commit : program.Commit l i l' openRoute count f first last)
    (h : Counts k user n l.store) :
    ¬ Opens k (.greeter, i) ∧ ¬ Greets k (.greeter, i) ∧ Counts k user n l'.store := by
  have htag : i.data.take 8 = openLayout.discriminator := commit.discriminator_eq
  obtain ⟨_, k', _, _, named, vacant, same⟩ := opened_of_commit commit
  refine ⟨?_, ?_, h.rests ((Rests.recorded vacant).trans (.of_same same))⟩
  · rintro ⟨_, _, here⟩
    cases named.symm.trans here
    rw [h.filed.occupied] at vacant
    cases vacant
  · rintro ⟨_, hgreet, _⟩
    exact discriminators_ne (htag.symm.trans hgreet)

/-- A greeting is counted where it is named. -/
theorem of_greet {names : ShortList ShortText}
    (commit : program.Commit l i l' greetRoute names f first last) (h : Counts k user n l.store) :
    ¬ Opens k (.greeter, i) ∧ (Greets k (.greeter, i) → i.Signed user) ∧
      Counts k user (n + if Greets k (.greeter, i) then 1 else 0) l'.store := by
  have htag : i.data.take 8 = greetLayout.discriminator := commit.discriminator_eq
  have unopened : ¬ Opens k (.greeter, i) := by
    rintro ⟨_, hopen, _⟩
    exact discriminators_ne (hopen.symm.trans htag)
  obtain ⟨k', g, greeted⟩ := greeted_of_commit commit
  by_cases hk : k' = k
  · subst hk
    obtain ⟨signed, counted⟩ := h.greeted greeted
    rw [if_pos ⟨rfl, htag, greeted.named⟩]
    exact ⟨unopened, fun _ => signed, counted⟩
  · have silent : ¬ Greets k (.greeter, i) := by
      rintro ⟨_, _, here⟩
      exact hk (Option.some.inj (greeted.named.symm.trans here))
    rw [if_neg silent]
    exact ⟨unopened, fun greets => absurd greets silent, h.passed greeted hk⟩

/-- An invocation that commits does not make the account a greeting again, and it is counted just if
it greets through it, which only the user does. -/
theorem of_commit {service : Service} {r : Route} {params : r.Params}
    (commit : service.program.Commit l i l' r params f first last)
    (tokens : l.natives Token.program = some Token.native)
    (associated : l.natives Token.Associated.program = some Token.Associated.native)
    (h : Counts k user n l.store) :
    ¬ Opens k (service, i) ∧ (Greets k (service, i) → i.Signed user) ∧
      Counts k user (n + if Greets k (service, i) then 1 else 0) l'.store := by
  have quiet : service ≠ .greeter → Rests l.store l'.store → ¬ Opens k (service, i) ∧
      (Greets k (service, i) → i.Signed user) ∧
        Counts k user (n + if Greets k (service, i) then 1 else 0) l'.store := by
    intro other rests
    have silent : ¬ Greets k (service, i) := fun greets => other greets.1
    rw [if_neg silent]
    exact ⟨fun opens => other opens.1, fun greets => absurd greets silent, h.rests rests⟩
  cases service with
  | escrow => exact quiet nofun (Escrow.rests_of_commit commit tokens)
  | swap => exact quiet nofun (Swap.rests_of_commit commit tokens associated)
  | greeter =>
    have hmem := List.mem_of_find?_eq_some commit.route
    simp only [Service.program, program, List.mem_cons, List.not_mem_nil, or_false] at hmem
    rcases hmem with rfl | rfl
    · obtain ⟨unopened, silent, counts⟩ := h.of_open commit
      rw [if_neg silent]
      exact ⟨unopened, fun greets => absurd greets silent, counts⟩
    · exact h.of_greet commit

end Counts

end Greeter

/-! ## runs -/

namespace Service

/-- the instructions that commit in a run, in order, each with its program -/
def committed (l : Ledger) : List (Service × Submission) → List (Service × Instruction)
  | [] => []
  | x :: rest =>
    ((x.1.program.committed? l x.2).toList.map fun i => (x.1, i)) ++ committed (served l x) rest

theorem natives_run (l : Ledger) (run : List (Service × Submission)) :
    (run.foldl served l).natives = l.natives := by
  induction run generalizing l with
  | nil => rfl
  | cons x rest ih => exact (ih (served l x)).trans (Program.natives_served l x.2)

end Service

namespace Greeter

/-- Over a run the greetings through an account are counted, all are the user's, and the account is
not made a greeting again. -/
theorem Counts.run {run : List (Service × Submission)}
    (tokens : l.natives Token.program = some Token.native)
    (associated : l.natives Token.Associated.program = some Token.Associated.native)
    (h : Counts k user n l.store) :
    let since := Service.committed l run
    Counts k user (n + since.countP (Greets k ·)) (run.foldl Service.served l).store ∧
      ∀ x ∈ since, ¬ Opens k x ∧ (Greets k x → x.2.Signed user) := by
  induction run generalizing l n with
  | nil => exact ⟨h, by simp [Service.committed]⟩
  | cons x rest ih =>
    have natives := Program.natives_served (p := x.1.program) l x.2
    have htokens := (congrFun natives _).trans tokens
    have hassociated := (congrFun natives _).trans associated
    rw [Service.committed, List.foldl_cons]
    rcases Program.served_cases (p := x.1.program) l x.2 with
      ⟨hnone, hstore⟩ | ⟨hsome, r, params, f, first, last, commit⟩
    · rw [hnone]
      exact ih htokens hassociated (by rw [Service.served, hstore]; exact h)
    · obtain ⟨unopened, signed, counts⟩ := h.of_commit commit tokens associated
      obtain ⟨counts, others⟩ := ih htokens hassociated counts
      rw [hsome]
      refine ⟨?_, List.forall_mem_cons.2 ⟨⟨unopened, signed⟩, others⟩⟩
      rw [Nat.add_assoc, Nat.add_comm (ite _ _ _)] at counts
      simp only [Option.toList_some, List.map_cons, List.map_nil, List.singleton_append,
        List.countP_cons, decide_eq_true_eq]
      exact counts

/-- The account of an opening that commits counts. -/
theorem Counts.of_opened {count : Amount}
    (commit : program.Commit l i l' openRoute count f first last)
    (huser : openLayout.keyOf? i "user" = some user)
    (hgreeting : openLayout.keyOf? i "greeting" = some k) :
    Counts k user count.toNat l'.store := by
  obtain ⟨_, _, _, huser', hgreeting', _, same⟩ := opened_of_commit commit
  cases huser.symm.trans huser'
  cases hgreeting.symm.trans hgreeting'
  have hread := same k
  rw [Store.read_filled, if_pos rfl] at hread
  exact ⟨congrArg Account.owner hread, count, rfl, congrArg Account.data hread⟩

/-- A greeting belongs to the user that opened it, wherever in a run that was, and its count is that
of the opening and one more for each greeting through it since.  All of these were signed by the user,
and the greeting was not opened again. -/
theorem run_counts (l : Ledger) (earlier later : List (Service × Submission)) (s : Submission)
    (count : Amount) (user k : Key)
    (tokens : l.natives Token.program = some Token.native)
    (associated : l.natives Token.Associated.program = some Token.Associated.native)
    (opening : s.instruction.data = openRoute.data count)
    (commits : program.committed? (earlier.foldl Service.served l) s = some s.instruction)
    (huser : openLayout.keyOf? s.instruction "user" = some user)
    (hgreeting : openLayout.keyOf? s.instruction "greeting" = some k) :
    let opened := program.served (earlier.foldl Service.served l) s
    let since := Service.committed opened later
    let last := later.foldl Service.served opened
    (last.store.read k).owner = key ∧
      (∃ g : Greeting, Record.decode (last.store.read k).data = .ok g ∧ g.authority = user ∧
        g.count.toNat = count.toNat + since.countP (Greets k ·)) ∧
      ∀ x ∈ since, ¬ Opens k x ∧ (Greets k x → x.2.Signed user) := by
  intro opened since last
  have natives : opened.natives = l.natives :=
    (Program.natives_served _ s).trans (Service.natives_run l earlier)
  have hroute : s.instruction.data.take 8 = openLayout.discriminator :=
    opening ▸ List.take_left' openLayout.length_discriminator
  obtain ⟨params, f, first, last', commit⟩ := Program.commit_of_committed? commits
    (hroute ▸ distinct.route?_eq (r := openRoute) (List.mem_cons_self ..))
  obtain rfl : count = params := commit.params_eq opening
  obtain ⟨counts, others⟩ : Counts k user (count.toNat + since.countP (Greets k ·)) last.store ∧
      ∀ x ∈ since, ¬ Opens k x ∧ (Greets k x → x.2.Signed user) :=
    (Counts.of_opened commit huser hgreeting).run ((congrFun natives _).trans tokens)
      ((congrFun natives _).trans associated)
  exact ⟨counts.owner, counts.decoded, others⟩

/-- the creator of the pool opens a greeting that begins with five -/
def inviting : Submission where
  instruction :=
    { program := key
      metas := [⟨.ofNat 2, true, true⟩, ⟨.ofNat 30, true, true⟩, ⟨.system, false, false⟩]
      data := openRoute.data (5 : Amount) }
  height := 1
  callStack := []

/-- somebody greets through that greeting -/
def visit (user : Nat) : Service × Submission :=
  let metas : List Meta := [⟨.ofNat user, true, false⟩, ⟨.ofNat 30, false, true⟩]
  (.greeter, { greeting with instruction := { greeting.instruction with metas } })

/-- The user comes twice, and opens an escrow between; a stranger and another opening are turned
away. -/
def visits : List (Service × Submission) :=
  let parties : Escrow.Parties :=
    ⟨.ofNat 2, .ofNat 12, Escrow.vault, .ofNat 24, .ofNat 25, .ofNat 31⟩
  [visit 2, (.escrow, ⟨parties.opening ⟨254, 49, 1⟩, 1, []⟩), visit 3, (.greeter, inviting), visit 2]

theorem visits_counted :
    let l := [(.swap, Swap.drawing)].foldl Service.served Swap.stocked
    let opened := program.served l inviting
    let since := Service.committed opened visits
    let last := visits.foldl Service.served opened
    program.committed? l inviting = some inviting.instruction ∧
      (since.map (·.1), since.countP (Greets (.ofNat 30) ·)) = ([.greeter, .escrow, .greeter], 2) ∧
      (last.store.read (.ofNat 30)).owner = key ∧
      (∃ g : Greeting, Record.decode (last.store.read (.ofNat 30)).data = .ok g ∧
        g.authority = .ofNat 2 ∧ g.count.toNat = 7) ∧
      ∀ x ∈ since, ¬ Opens (.ofNat 30) x ∧ (Greets (.ofNat 30) x → x.2.Signed (.ofNat 2)) := by
  have run :
      let l := [(.swap, Swap.drawing)].foldl Service.served Swap.stocked
      let since := Service.committed (program.served l inviting) visits
      program.committed? l inviting = some inviting.instruction ∧
        (since.map (·.1), since.countP (Greets (.ofNat 30) ·)) =
          ([.greeter, .escrow, .greeter], 2) := by
    decide +kernel
  obtain ⟨commits, since⟩ := run
  obtain ⟨owner, ⟨g, decoded, authority, counted⟩, others⟩ :=
    run_counts Swap.stocked [(.swap, Swap.drawing)] visits inviting 5 (.ofNat 2) (.ofNat 30) rfl rfl rfl
      commits rfl rfl
  refine ⟨commits, since, owner, ⟨g, decoded, authority, ?_⟩, others⟩
  rw [counted, (Prod.mk.inj since).2]
  rfl

end Greeter

end AccountLedger
