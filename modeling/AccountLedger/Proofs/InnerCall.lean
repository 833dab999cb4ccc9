import AccountLedger.InnerCall
import AccountLedger.Proofs.Guards
/-!
# Which inner calls reach the host

The checks of an inner call, each read back as what it accepts, and `request_eq_ok_iff`, which puts
them together: a request goes to the host exactly when it is `Cleared`.
-/

namespace AccountLedger.InnerCall

variable {f : Frame} {t : Table} {target : Key} {refs : List Ref} {seeds : List SignerSeeds}
  {data : Bytes} {r : Request}

theorem checkTarget_eq_ok_iff :
    checkTarget f target = .ok () ↔ target ≠ f.program ∧ target ∉ f.callStack := by
  unfold checkTarget
  split
  · rename_i h
    simp only [Bool.or_eq_true, decide_eq_true_eq, List.contains_iff_mem] at h
    refine ⟨?_, ?_⟩
    · intro h'; cases h'
    · intro h
      obtain ⟨hp, hs⟩ := h
      exact absurd h (not_or.2 ⟨hp, hs⟩)
  · rename_i h
    simpa using h

theorem innerHeight_eq_ok_iff {height : Nat} :
    innerHeight f = .ok height ↔
      height = f.height + 1 ∧ height < UInt64.size ∧ height ≤ f.limits.stackHeight := by
  simp only [innerHeight]
  split
  · rename_i h
    refine ⟨?_, ?_⟩
    · intro h'; cases h'
    · intro h
      obtain ⟨rfl, h', _⟩ := h
      omega
  · split
    · rename_i h
      refine ⟨?_, ?_⟩
      · intro h'; cases h'
      · intro h
        obtain ⟨rfl, _, h'⟩ := h
        omega
    · rename_i h1 h2
      rw [Except.ok.injEq]
      refine ⟨?_, ?_⟩
      · rintro rfl; exact ⟨rfl, by omega, by omega⟩
      · intro h
        obtain ⟨rfl, _⟩ := h
        rfl

theorem checkProgram_eq_ok_iff :
    checkProgram t target = .ok () ↔
      ∃ h ∈ t.handles, h.key = target ∧ h.account.executable = true := by
  unfold checkProgram
  split <;> simp_all

theorem mem_referred {x : Ref × Handle} :
    x ∈ referred t refs ↔ x.1 ∈ refs ∧ t.handles[x.1.position]? = some x.2 := by
  obtain ⟨r, h⟩ := x
  induction refs with
  | nil => simp [referred]
  | cons r' rest ih =>
    simp only [referred, List.mem_cons]
    cases hr : t.handles[r'.position]? with
    | none =>
      simp only [ih]
      refine ⟨?_, ?_⟩
      · intro h
        obtain ⟨hm, hs⟩ := h
        exact ⟨.inr hm, hs⟩
      · intro h
        obtain ⟨rfl | hm, hs⟩ := h
        · rw [hr] at hs; cases hs
        · exact ⟨hm, hs⟩
    | some h' =>
      simp only [List.mem_cons, Prod.mk.injEq, ih]
      refine ⟨?_, ?_⟩
      · rintro (⟨rfl, rfl⟩ | ⟨hm, hs⟩)
        · exact ⟨.inl rfl, hr⟩
        · exact ⟨.inr hm, hs⟩
      · intro h
        obtain ⟨rfl | hm, hs⟩ := h
        · rw [hr] at hs; cases hs
          exact .inl ⟨rfl, rfl⟩
        · exact .inr ⟨hm, hs⟩

theorem derivedSigners_cons_eq_ok_iff {program : Key} {passed : List (Ref × Handle)}
    {s : SignerSeeds} {derived : List Key} :
    derivedSigners program passed (s :: seeds) = .ok derived ↔
      ∃ key tail, derived = key :: tail ∧ s.derive program = .ok key ∧
        (∃ x ∈ passed, x.1.signer = true ∧ x.2.key = key) ∧
          derivedSigners program passed seeds = .ok tail := by
  simp only [derivedSigners]
  cases hs : s.derive program with
  | error e => simp
  | ok key =>
    by_cases hk : ∃ x ∈ passed, x.1.signer = true ∧ x.2.key = key
    · simp only
      rw [if_pos (by simpa using hk), map_eq_ok_iff]
      refine ⟨?_, ?_⟩
      · intro h
        obtain ⟨tail, ht, rfl⟩ := h
        exact ⟨key, tail, rfl, rfl, hk, ht⟩
      · intro h
        obtain ⟨_, tail, rfl, hkey, _, ht⟩ := h
        exact ⟨tail, ht, by rw [Except.ok.inj hkey]⟩
    · simp only
      rw [if_neg (by simpa using hk)]
      refine ⟨?_, ?_⟩
      · intro h
        cases h
      · intro h
        obtain ⟨_, _, _, hkey, hk', _⟩ := h
        rw [← Except.ok.inj hkey] at hk'
        exact absurd hk' hk

/-- The derived signers are the keys of the seed lists, in order, and each is asked for. -/
theorem derivedSigners_eq_ok_iff {program : Key} {passed : List (Ref × Handle)}
    {derived : List Key} :
    derivedSigners program passed seeds = .ok derived ↔
      seeds.map (·.derive program) = derived.map .ok ∧
        ∀ k ∈ derived, ∃ x ∈ passed, x.1.signer = true ∧ x.2.key = k := by
  induction seeds generalizing derived with
  | nil =>
    simp only [derivedSigners, Except.ok.injEq, List.map_nil]
    refine ⟨?_, ?_⟩
    · rintro rfl
      simp
    · intro h
      exact (List.map_eq_nil_iff.1 h.1.symm).symm
  | cons s rest ih =>
    rw [derivedSigners_cons_eq_ok_iff]
    refine ⟨?_, ?_⟩
    · intro h
      obtain ⟨key, tail, rfl, hs, hk, ht⟩ := h
      rw [ih] at ht
      exact ⟨by rw [List.map_cons, List.map_cons, hs, ht.1], List.forall_mem_cons.2 ⟨hk, ht.2⟩⟩
    · intro h
      obtain ⟨hmap, hall⟩ := h
      cases derived with
      | nil => cases hmap
      | cons key tail =>
        rw [List.map_cons, List.map_cons, List.cons.injEq] at hmap
        rw [List.forall_mem_cons] at hall
        exact ⟨key, tail, rfl, hmap.1, hall.1, ih.2 ⟨hmap.2, hall.2⟩⟩

theorem attenuate_eq_ok_iff {derived : List Key} {passed : List (Ref × Handle)} :
    attenuate derived passed = .ok () ↔
      ∀ x ∈ passed, (x.1.writable = true → x.2.writable = true) ∧
        (x.1.signer = true → x.2.signer = true ∨ x.2.key ∈ derived) := by
  induction passed with
  | nil => simp [attenuate]
  | cons x rest ih =>
    obtain ⟨r, h⟩ := x
    simp only [attenuate, List.forall_mem_cons]
    by_cases hw : r.writable = true → h.writable = true
    · have hw' : (r.writable && !h.writable) = false := by simpa using hw
      rw [if_neg (by rw [hw']; exact Bool.false_ne_true)]
      by_cases hs : r.signer = true → h.signer = true ∨ h.key ∈ derived
      · have hs' : (r.signer && !h.signer && !derived.contains h.key) = false := by
          rw [← Bool.not_eq_true]
          intro hc
          simp only [Bool.and_eq_true, Bool.not_eq_true', List.contains_eq_mem,
            decide_eq_false_iff_not] at hc
          rcases hs hc.1.1 with h1 | h1
          · rw [h1] at hc; exact absurd hc.1.2 (by simp)
          · exact hc.2 h1
        rw [if_neg (by rw [hs']; exact Bool.false_ne_true), ih]
        exact ⟨fun hr => ⟨⟨hw, hs⟩, hr⟩, fun hr => hr.2⟩
      · have hs' : (r.signer && !h.signer && !derived.contains h.key) = true := by
          simpa [not_or, and_assoc] using hs
        rw [if_pos hs']
        exact ⟨fun hr => (by cases hr), fun hr => absurd hr.1.2 hs⟩
    · have hw' : (r.writable && !h.writable) = true := by simpa using hw
      rw [if_pos hw']
      exact ⟨fun hr => (by cases hr), fun hr => absurd hr.1.1 hw⟩

theorem checkAliases_eq_ok_iff {passed : List (Ref × Handle)} :
    checkAliases t passed = .ok () ↔
      ∀ x ∈ passed, ∀ g ∈ t.handles, g.key = x.2.key → g.account = x.2.account := by
  induction passed with
  | nil => simp [checkAliases]
  | cons x rest ih =>
    obtain ⟨r, h⟩ := x
    simp only [checkAliases, List.forall_mem_cons]
    cases hf : t.handles.findIdx? fun g => g.key = h.key && g.account ≠ h.account with
    | none =>
      rw [List.findIdx?_eq_none_iff] at hf
      have hall : ∀ g ∈ t.handles, g.key = h.key → g.account = h.account := by
        intro g hg hk
        simpa [hk] using hf g hg
      simp only [ih]
      exact ⟨fun hr => ⟨hall, hr⟩, fun hr => hr.2⟩
    | some other =>
      obtain ⟨hlt, hp, _⟩ := List.findIdx?_eq_some_iff_getElem.1 hf
      simp only [Bool.and_eq_true, decide_eq_true_eq] at hp
      simp only [reduceCtorEq, false_iff]
      intro h
      obtain ⟨hall, _⟩ := h
      exact hp.2 (hall _ (List.getElem_mem hlt) hp.1)

/-! ## the whole request -/

/-- what the host is asked for, from the references that were passed -/
def requestOf (f : Frame) (target : Key) (passed : List (Ref × Handle)) (data : Bytes) :
    Request where
  instruction := {
    program := target
    metas := passed.map fun (r, h) => ⟨h.key, r.signer, r.writable⟩
    data }
  accounts := distinctBy Account.key (passed.map (·.2.account))
  signers := distinctBy id ((passed.filter (·.1.signer)).map (·.2.key))
  height := f.height + 1

/-- what a call must satisfy to reach the host -/
structure Cleared (f : Frame) (t : Table) (target : Key) (refs : List Ref)
    (seeds : List SignerSeeds) (data : Bytes) (derived : List Key) : Prop where
  not_executing : target ≠ f.program
  not_waiting : target ∉ f.callStack
  height_fits : f.height + 1 < UInt64.size
  height_le : f.height + 1 ≤ f.limits.stackHeight
  limits : checkLimits f t refs seeds data = .ok ()
  program : ∃ h ∈ t.handles, h.key = target ∧ h.account.executable = true
  derives : derivedSigners f.program (referred t refs) seeds = .ok derived
  held : ∀ x ∈ referred t refs, (x.1.writable = true → x.2.writable = true) ∧
    (x.1.signer = true → x.2.signer = true ∨ x.2.key ∈ derived)
  agree : ∀ x ∈ referred t refs, ∀ g ∈ t.handles, g.key = x.2.key → g.account = x.2.account

theorem request_eq_ok_iff :
    request f t target refs seeds data = .ok r ↔
      (∃ derived, Cleared f t target refs seeds data derived) ∧
        r = requestOf f target (referred t refs) data := by
  simp only [request, bind_eq_ok_iff, exists_unit, mapError_eq_ok_iff, pure_eq_ok_iff,
    checkTarget_eq_ok_iff, innerHeight_eq_ok_iff, checkProgram_eq_ok_iff, attenuate_eq_ok_iff,
    checkAliases_eq_ok_iff]
  refine ⟨?_, ?_⟩
  · intro h
    obtain ⟨⟨hp, hs⟩, _, ⟨rfl, hf, hl⟩, hlim, hprog, derived, hd, hh, ha, rfl⟩ := h
    exact ⟨⟨derived, hp, hs, hf, hl, hlim, hprog, hd, hh, ha⟩, rfl⟩
  · intro h
    obtain ⟨⟨derived, hp, hs, hf, hl, hlim, hprog, hd, hh, ha⟩, rfl⟩ := h
    exact ⟨⟨hp, hs⟩, _, ⟨rfl, hf, hl⟩, hlim, hprog, derived, hd, hh, ha, rfl⟩

/-! ## what comes back -/

theorem conclude_eq_ok_iff {n : Nat} {reply : Reply n} {t' : Table} :
    conclude r reply t = .ok t' ↔
      reply.result = .ok () ∧
        trespass? (writableKeys r.instruction) r.accounts reply.accounts.toList = none ∧
        t' = adopt (writableKeys r.instruction) reply.accounts.toList t := by
  simp only [conclude]
  cases reply.result with
  | error stop => simp
  | ok u =>
    simp only
    cases trespass? (writableKeys r.instruction) r.accounts reply.accounts.toList with
    | some key => simp
    | none => simp [eq_comm]

end AccountLedger.InnerCall
