import AccountLedger.Proofs.Escrow.Ending
/-!
# Custody of deposits

All escrows share one vault account, that of the canonical bump.  It is made by each opening that
names it and closed by each end, while the records stay.  Which record an end names is not tied to
the vault that is open, so custody holds as far as the run is disciplined: as long as nobody ends an
escrow that is not open.

* `Event`, `holder`: what the committed instructions did to the escrows, and whose vault is open;
* `Custody`: what a run keeps between the events and the store;
* `run_custody`: tokens leave the vault when an escrow ends, and in a disciplined run it is the one
  whose vault is open.
-/

namespace AccountLedger.Escrow

open Token (Holding tokens)

/-! ## events -/

/-- what an instruction that commits does to the escrows -/
inductive Event where
  | opened (record vault : Key)
  | released (record : Key)
deriving DecidableEq

/-- what the instruction does if it commits -/
def event? (i : Instruction) : Option Event :=
  match program.route? (i.data.take 8) with
  | none => none
  | some r =>
    if r.layout = openLayout then do
      return .opened (← openLayout.keyOf? i "escrow") (← openLayout.keyOf? i "vault")
    else (r.layout.keyOf? i "escrow").map .released

/-- the record whose opening made the vault that is open -/
def holder (events : List Event) : Option Key :=
  events.foldl (fun holder event =>
    match event with
    | .opened record v => if v = vault then some record else holder
    | .released _ => none) none

/-- the records that were opened with the canonical vault, in order -/
def openers (events : List Event) : List Key :=
  events.filterMap fun event =>
    match event with
    | .opened record v => if v = vault then some record else none
    | .released _ => none

def releases (events : List Event) : List Key :=
  events.filterMap fun event =>
    match event with
    | .opened _ _ => none
    | .released record => some record

/-- Only records that were opened with the canonical vault are released, and none of them twice. -/
def Disciplined (events : List Event) : Prop :=
  ∀ front record rest, events = front ++ .released record :: rest →
    .opened record vault ∈ front ∧ .released record ∉ front

variable {past : List Event} {record v : Key} {event : Event}

@[simp] theorem holder_opened :
    holder (past ++ [.opened record v]) = if v = vault then some record else holder past := by
  simp [holder]

@[simp] theorem holder_released : holder (past ++ [.released record]) = none := by
  simp [holder]

@[simp] theorem openers_opened :
    openers (past ++ [.opened record v]) = openers past ++ if v = vault then [record] else [] := by
  by_cases h : v = vault <;> simp [openers, h]

@[simp] theorem openers_released : openers (past ++ [.released record]) = openers past := by
  simp [openers]

@[simp] theorem releases_opened : releases (past ++ [.opened record v]) = releases past := by
  simp [releases]

@[simp] theorem releases_released :
    releases (past ++ [.released record]) = releases past ++ [record] := by
  simp [releases]

theorem mem_openers (h : .opened record vault ∈ past) : record ∈ openers past :=
  List.mem_filterMap.2 ⟨_, h, by simp⟩

theorem mem_of_mem_releases (h : record ∈ releases past) : .released record ∈ past := by
  obtain ⟨event, hevent, h⟩ := List.mem_filterMap.1 h
  cases event with
  | opened r v => cases h
  | released r =>
    cases h
    exact hevent

theorem Disciplined.front (h : Disciplined (past ++ [event])) : Disciplined past := by
  intro front record rest heq
  exact h front record (rest ++ [event]) (by rw [heq, List.append_assoc, List.cons_append])

/-! ## one invocation -/

theorem Releases.congr {s s' s'' : Store} (same : ∀ k, s''.read k = s'.read k)
    (h : Releases s s') : Releases s s'' where
  held := h.held
  emptied := (congrArg Account.data (same _)).trans h.emptied
  disowned := (congrArg Account.owner (same _)).trans h.disowned
  owner k hk := (congrArg Account.owner (same k)).trans (h.owner k hk)

/-- what an invocation that commits does to the escrows -/
inductive Turn (i : Instruction) (s s' : Store) : Prop where
  | opened (o : Opening) (p : Parties) (held : Holding) (rent vaultRent : Amount)
      (event : event? i = some (.opened p.record p.vault))
      (opens : Opens o p held rent vaultRent s s')
      (signed : ∃ m ∈ i.metas, m.signer = true ∧ m.key = p.initializer)
  | released (record : Key) (event : event? i = some (.released record))
      (owned : (s.read record).owner = key) (releases : Releases s s')

section

variable {l l' : Ledger} {i : Instruction} {f : Frame} {first last : Scene Ledger}

theorem turn_of_open {o : Opening} (commit : program.Commit l i l' openRoute o f first last)
    (tokens : l.natives Token.program = some Token.native) : Turn i l.store l'.store := by
  obtain ⟨p, held, rent, vaultRent, parties, opens⟩ := opens_of_commit commit tokens
  obtain ⟨m, hm, hkey, met⟩ := commit.met_named "initializer" rfl rfl parties.initializer
  refine .opened o p held rent vaultRent ?_ opens ⟨m, hm, met.signer rfl, hkey⟩
  rw [event?, commit.route]
  simp [openRoute, parties.record, parties.vault]

theorem released_of_end {r : Route} {params : r.Params} {position : Nat} {spec : Spec} {tag : Tag}
    (commit : program.Commit l i l' r params f first last) (ending : r.layout ≠ openLayout)
    (named : r.layout.position? "escrow" = some position)
    (asked : r.layout.specs[position]? = some spec) (bound : spec.data = some (.existing tag)) :
    ∃ record, event? i = some (.released record) ∧ (l.store.read record).owner = key := by
  have hlt : position < i.metas.length :=
    Nat.lt_of_lt_of_le (List.getElem?_eq_some_iff.1 asked).1 commit.enough
  have given : r.layout.keyOf? i "escrow" = some i.metas[position].key := by
    rw [Layout.keyOf?_eq named, Instruction.key?, List.getElem?_eq_getElem hlt, Option.map_some]
  obtain ⟨m, _, hkey, met⟩ := commit.met_named "escrow" named asked given
  refine ⟨_, ?_, hkey ▸ (met.record tag bound).1⟩
  rw [event?, commit.route]
  simp [ending, given]

theorem turn_of_exchange {bump : UInt8} (commit : program.Commit l i l' exchangeRoute bump f first last)
    (tokens : l.natives Token.program = some Token.native) : Turn i l.store l'.store := by
  obtain ⟨_, _, _, _, _, now, ⟨_, _, may, rfl⟩, emptied, drafts⟩ :=
    emptied_of_exchange commit.drafts commit.shown commit.frame tokens commit.returns
  obtain ⟨record, event, owned⟩ := released_of_end commit (by decide) rfl rfl rfl
  have releases := emptied.releases.after may
  exact .released record event owned (releases.congr (commit.settled now drafts.mirrors))

theorem turn_of_cancel {bump : UInt8} (commit : program.Commit l i l' cancelRoute bump f first last)
    (tokens : l.natives Token.program = some Token.native) : Turn i l.store l'.store := by
  obtain ⟨now, emptied, drafts⟩ :=
    emptied_of_cancel commit.drafts commit.shown commit.frame tokens commit.returns
  obtain ⟨record, event, owned⟩ := released_of_end commit (by decide) rfl rfl rfl
  exact .released record event owned (emptied.releases.congr (commit.settled now drafts.mirrors))

theorem turn_of_commit {r : Route} {params : r.Params}
    (commit : program.Commit l i l' r params f first last)
    (tokens : l.natives Token.program = some Token.native) : Turn i l.store l'.store := by
  have hmem := List.mem_of_find?_eq_some commit.route
  simp only [program, List.mem_cons, List.not_mem_nil, or_false] at hmem
  rcases hmem with rfl | rfl | rfl
  · exact turn_of_open commit tokens
  · exact turn_of_exchange commit tokens
  · exact turn_of_cancel commit tokens

end

/-! ## what a run keeps -/

/-- the account is a holding of the authority of the canonical bump -/
def Kept (s : Store) (key : Key) : Prop :=
  ∃ held, Holding.unpack (s.read key).data = .ok held ∧ held.owner = authority

/-- what a run keeps between the events and the store -/
structure Custody (past : List Event) (s : Store) : Prop where
  recorded : ∀ record, (s.read record).owner = key → ∃ v, .opened record v ∈ past
  vacated : holder past = none → ∀ held, Holding.unpack (s.read vault).data ≠ .ok held
  kept : ∀ record, holder past = some record → Kept s vault
  in_turn : Disciplined past → releases past ++ (holder past).toList = openers past

namespace Custody

variable {s s' : Store} {o : Opening} {p : Parties} {held : Holding} {rent vaultRent : Amount}

theorem start (unclaimed : ∀ k, (s.read k).owner ≠ key) (vacant : (s.read vault).isVacant = true) :
    Custody [] s where
  recorded record h := absurd h (unclaimed record)
  vacated _ := Token.not_holding_of_vacant vacant
  kept _ h := absurd h (by simp [holder])
  in_turn _ := rfl

/-- While nobody holds the vault, its account is no holding. -/
theorem holder_of_holding (custody : Custody past s)
    (holding : Holding.unpack (s.read vault).data = .ok held) :
    ∃ record, holder past = some record := by
  cases h : holder past with
  | none => exact absurd holding (custody.vacated h held)
  | some record => exact ⟨record, rfl⟩

theorem holder_of_vacant (custody : Custody past s) (vacant : (s.read vault).isVacant = true) :
    holder past = none := by
  cases h : holder past with
  | none => rfl
  | some record =>
    obtain ⟨held, hheld, _⟩ := custody.kept record h
    exact absurd hheld (Token.not_holding_of_vacant vacant held)

/-- An opening elsewhere does nothing to a vault whose owner has not signed. -/
theorem same_vault (custody : Custody past s) (opens : Opens o p held rent vaultRent s s')
    (unsigned : p.initializer ≠ authority) (elsewhere : p.vault ≠ vault) (other : Holding) :
    Holding.unpack (s'.read vault).data = .ok other ↔
      Holding.unpack (s.read vault).data = .ok other := by
  by_cases hrecord : vault = p.record
  · refine iff_of_false ?_ ?_
    · rw [hrecord, opens.record_at]
      intro h
      have hlength := congrArg List.length (Holding.unpack_eq_ok_iff.1 h).1
      rw [Terms.length_image, Holding.length_pack] at hlength
      exact absurd hlength (by decide)
    · rw [hrecord]
      exact Token.not_holding_of_vacant opens.record_vacant other
  · have hdeposit : vault ≠ p.deposit := by
      intro h
      have hheld := opens.held_at
      rw [← h] at hheld
      obtain ⟨record, hholder⟩ := custody.holder_of_holding hheld
      obtain ⟨kept, hkept, howner⟩ := custody.kept record hholder
      cases hheld.symm.trans hkept
      exact unsigned (opens.held_owner.symm.trans howner)
    rw [opens.elsewhere vault hrecord (Ne.symm elsewhere)]
    simp only [if_neg hdeposit]

theorem of_opened (custody : Custody past s) (opens : Opens o p held rent vaultRent s s')
    (unsigned : p.initializer ≠ authority) :
    Custody (past ++ [.opened p.record p.vault]) s' where
  recorded record h := by
    by_cases hrecord : record = p.record
    · exact ⟨p.vault, by simp [hrecord]⟩
    by_cases hvault : record = p.vault
    · rw [hvault, opens.vault_at] at h
      have howner : Token.program = key := h
      exact absurd howner (by decide)
    · rw [opens.elsewhere record hrecord hvault] at h
      obtain ⟨v, hv⟩ := custody.recorded record h
      exact ⟨v, List.mem_append_left _ hv⟩
  vacated h other := by
    rw [holder_opened] at h
    split at h
    · cases h
    · rename_i helsewhere
      intro hother
      exact custody.vacated h other ((custody.same_vault opens unsigned helsewhere other).1 hother)
  kept record h := by
    rw [holder_opened] at h
    by_cases hvault : p.vault = vault
    · refine ⟨filled p.mint o.offered, ?_, rfl⟩
      rw [← hvault, opens.vault_at]
      exact Token.unpack_pack _ (by simp [filled, Holding.opened])
    · rw [if_neg hvault] at h
      obtain ⟨kept, hkept, howner⟩ := custody.kept record h
      exact ⟨kept, (custody.same_vault opens unsigned hvault kept).2 hkept, howner⟩
  in_turn disciplined := by
    have h := custody.in_turn disciplined.front
    rw [releases_opened, openers_opened, holder_opened]
    -- the vault is only made where it is vacant, so the new opener follows nobody who still holds it
    by_cases hvault : p.vault = vault
    · rw [custody.holder_of_vacant (hvault ▸ opens.vault_vacant), Option.toList_none,
        List.append_nil] at h
      simp [hvault, h]
    · simp [hvault, h]

/-- The record that a disciplined end names is the one whose vault is open. -/
theorem release_of_disciplined (custody : Custody past s) {opener : Key}
    (holds : holder past = some opener) (disciplined : Disciplined (past ++ [.released record])) :
    record = opener := by
  obtain ⟨hopened, hfresh⟩ := disciplined past record [] rfl
  have hmem := mem_openers hopened
  rw [← custody.in_turn disciplined.front, holds] at hmem
  rcases List.mem_append.1 hmem with h | h
  · exact absurd (mem_of_mem_releases h) hfresh
  · simpa using h

theorem of_released (custody : Custody past s) (ends : Releases s s') :
    Custody (past ++ [.released record]) s' where
  recorded other h := by
    have hvault : other ≠ vault := by
      rintro rfl
      rw [ends.disowned] at h
      exact absurd h (by decide)
    obtain ⟨v, hv⟩ := custody.recorded other ((ends.owner other hvault).symm.trans h)
    exact ⟨v, List.mem_append_left _ hv⟩
  vacated _ other h := by
    rw [ends.emptied] at h
    exact Token.not_holding_of_vacant (Account.isVacant_vacant vault) other h
  kept other h := by simp at h
  in_turn disciplined := by
    obtain ⟨held, holding⟩ := ends.held
    obtain ⟨opener, holds⟩ := custody.holder_of_holding holding
    have h := custody.in_turn disciplined.front
    rw [custody.release_of_disciplined holds disciplined]
    simpa [holds] using h

end Custody

/-! ## runs -/

theorem custody_of_turn {instructions : List Instruction} {i : Instruction} {s s' : Store}
    (custody : Custody (instructions.filterMap event?) s) (unsigned : i.Unsigned authority)
    (turn : Turn i s s') : Custody ((instructions ++ [i]).filterMap event?) s' := by
  rw [List.filterMap_append]
  cases turn with
  | opened o p held rent vaultRent event opens signed =>
    obtain ⟨m, hm, hsigner, hkey⟩ := signed
    have := custody.of_opened opens (hkey ▸ unsigned m hm hsigner)
    simpa [event] using this
  | released record event owned ends => simpa [event] using custody.of_released ends

theorem custody_run {l : Ledger} {run : List Submission}
    (tokens : l.natives Token.program = some Token.native)
    (unsigned : ∀ s ∈ run, s.instruction.Unsigned authority)
    (unclaimed : ∀ k, (l.store.read k).owner ≠ key)
    (vacant : (l.store.read vault).isVacant = true) :
    let last := run.foldl program.served l
    last.natives = l.natives ∧
      Custody ((program.committed l run).filterMap event?) last.store := by
  let Q : List Instruction → Store → Prop := fun past s => Custody (past.filterMap event?) s
  have step : ∀ past here, ∀ s ∈ run, here.natives = l.natives → Q past here.store →
      ∀ r params f first last,
        program.Commit here s.instruction (program.served here s) r params f first last →
          Q (past ++ [s.instruction]) (program.served here s).store := by
    intro past here s hs natives custody r params f first last commit
    exact custody_of_turn custody (unsigned s hs) (turn_of_commit commit (natives ▸ tokens))
  exact Program.run_keeps step (Custody.start unclaimed vacant)

/-- An opening takes no tokens out of the vault. -/
theorem Custody.tokens_le {s s' : Store} {o : Opening} {p : Parties} {held : Holding}
    {rent vaultRent : Amount} (custody : Custody past s) (opens : Opens o p held rent vaultRent s s')
    (unsigned : p.initializer ≠ authority) : tokens s vault ≤ tokens s' vault := by
  by_cases hvault : p.vault = vault
  · rw [Token.tokens_eq_zero (Token.not_holding_of_vacant (hvault ▸ opens.vault_vacant))]
    exact Nat.zero_le _
  · cases h : Holding.unpack (s.read vault).data with
    | ok other =>
      have h' := Token.tokens_of_unpack ((custody.same_vault opens unsigned hvault other).2 h)
      exact Nat.le_of_eq ((Token.tokens_of_unpack h).trans h'.symm)
    | error e =>
      rw [Token.tokens_eq_zero (by simp [h])]
      exact Nat.zero_le _

/-- Tokens leave the vault only when an end that commits empties it, with a record that was opened
before. While it is open, some record's opening was the last to make it, and only one end can
follow.  Nothing makes the two records equal, unless every end has been one of an escrow that was
open. -/
theorem run_custody (l : Ledger) (before : List Submission) (now : Submission)
    (installed : l.natives Token.program = some Token.native)
    (unclaimed : ∀ k, (l.store.read k).owner ≠ key)
    (vacant : (l.store.read vault).isVacant = true)
    (unsigned : ∀ s ∈ before ++ [now], s.instruction.Unsigned authority) :
    let here := before.foldl program.served l
    let past := (program.committed l before).filterMap event?
    let next := program.served here now
    tokens next.store vault < tokens here.store vault →
      program.committed? here now = some now.instruction ∧
        ∃ record opener, event? now.instruction = some (.released record) ∧
          (∃ v, .opened record v ∈ past) ∧ holder past = some opener ∧
          (next.store.read vault).data = [] ∧
          (Disciplined (past ++ [.released record]) → record = opener) := by
  intro here past next hless
  obtain ⟨natives, custody⟩ := custody_run installed
    (fun s (hs : s ∈ before) => unsigned s (List.mem_append_left _ hs)) unclaimed vacant
  rcases Program.served_cases (p := program) here now with
    ⟨_, hstore⟩ | ⟨hsome, r, params, f, first, last, commit⟩
  · rw [hstore] at hless
    exact absurd hless (Nat.lt_irrefl _)
  refine ⟨hsome, ?_⟩
  cases turn_of_commit commit (natives ▸ installed) with
  | opened o p held rent vaultRent event opens signed =>
    obtain ⟨m, hm, hsigner, hkey⟩ := signed
    have hunsigned := unsigned now (List.mem_append_right _ (List.mem_singleton_self _))
    exact absurd hless
      (Nat.not_lt.2 (custody.tokens_le opens (hkey ▸ hunsigned m hm hsigner)))
  | released record event owned ends =>
    obtain ⟨held, holding⟩ := ends.held
    obtain ⟨opener, holds⟩ := custody.holder_of_holding holding
    exact ⟨record, opener, event, custody.recorded record owned, holds, ends.emptied,
      custody.release_of_disciplined holds⟩

def undoing : Submission := ⟨earlier.undoing, 1, []⟩

theorem tokens_undone :
    let here := [opening].foldl program.served market
    tokens (program.served here undoing).store vault < tokens here.store vault := by
  decide +kernel

theorem custody_undone :
    let past := (program.committed market [opening]).filterMap event?
    ∃ record, event? undoing.instruction = some (.released record) ∧
      (Disciplined (past ++ [.released record]) → holder past = some record) := by
  have h := run_custody market [opening] undoing rfl
    (Store.owner_read_ne (by decide) (by decide +kernel)) (by decide +kernel) (by decide +kernel)
  dsimp only at h
  obtain ⟨_, record, opener, event, _, holds, _, same⟩ := h tokens_undone
  exact ⟨record, event, fun disciplined => same disciplined ▸ holds⟩

/-- The earlier party takes its deposit back twice, and the second time it is that of the later
party. -/
theorem undone_twice :
    let before := [opening, undoing, ⟨later.opening ⟨254, 10, 1⟩, 1, []⟩]
    let here := before.foldl program.served market
    tokens (program.served here undoing).store vault < tokens here.store vault ∧
      event? undoing.instruction = some (.released earlier.record) ∧
      holder ((program.committed market before).filterMap event?) = some later.record := by
  decide +kernel

end AccountLedger.Escrow
