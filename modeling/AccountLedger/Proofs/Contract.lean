import AccountLedger.Proofs.Binding
/-!
# The contract of a layout

What a layout asks of an account list, said without the checks: enough entries, one writability for
each key, and at every position the needs of its spec.  Binding holds a list to this contract and
to nothing else, and a refusal names what is broken first.

* `Spec.needs`, `Need.Met`: what a position asks of its entry, in the order in which it counts;
* `Layout.Honoured`: the lists that keep the contract;
* `Layout.Broken`: what is said of one that does not;
* `Table.conflict?_eq_some_iff`, `Table.bindFrom_eq_error_iff`: what each pass over the list finds
  first;
* `Table.bind_enforces`: both answers of `bind`.
-/

namespace AccountLedger

variable {program : Key} {e : Entry} {entries : List Entry} {position : Nat} {name : String}
  {layout : Layout}

/-! ## what a position needs -/

/-- one thing that a position needs of its entry -/
inductive Need where
  | signer
  | writable
  | modifiable
  | executable
  | owned
  | header (tag : Tag)

namespace Need

variable {need : Need} {needs : List Need}

/-- the entry has what is needed -/
def Met (program : Key) (e : Entry) : Need → Prop
  | signer => e.signer = true
  | writable => e.writable = true
  | modifiable => e.account.executable = false
  | executable => e.account.executable = true
  | owned => e.account.owner = program
  | header tag => tag.header <+: e.account.data

instance decidableMet : (need : Need) → Decidable (need.Met program e)
  | signer | writable | modifiable | executable | owned => inferInstanceAs (Decidable (_ = _))
  | header tag => inferInstanceAs (Decidable (tag.header <+: e.account.data))

@[simp] theorem met_signer : Met program e signer ↔ e.signer = true := Iff.rfl
@[simp] theorem met_writable : Met program e writable ↔ e.writable = true := Iff.rfl
@[simp] theorem met_modifiable : Met program e modifiable ↔ e.account.executable = false := Iff.rfl
@[simp] theorem met_executable : Met program e executable ↔ e.account.executable = true := Iff.rfl
@[simp] theorem met_owned : Met program e owned ↔ e.account.owner = program := Iff.rfl
@[simp] theorem met_header {tag : Tag} :
    Met program e (header tag) ↔ tag.header <+: e.account.data := Iff.rfl

/-- what is said of an entry that does not have it -/
def refusal (position : Nat) (name : String) (e : Entry) : Need → Error
  | signer => .privilege position name .signer
  | writable => .privilege position name .writable
  | modifiable => .privilege position name .modifiable
  | executable => .privilege position name .executable
  | owned => .privilege position name .ownership
  | header tag =>
    .schema position <|
      if e.account.data.length < 8 then .tooShort e.account.data.length tag
      else .wrongHeader (e.account.data.take 8) tag

/-- the first of the needs that the entry does not meet -/
structure Missed (program : Key) (e : Entry) (needs : List Need) (need : Need) : Prop where
  unmet : ¬ need.Met program e
  first : ∃ met rest, needs = met ++ need :: rest ∧ ∀ m ∈ met, m.Met program e

/-- the needs, checked one after the other -/
def demand (program : Key) (position : Nat) (name : String) (e : Entry) :
    List Need → Except Error Unit
  | [] => .ok ()
  | need :: rest =>
    if ¬ need.Met program e then .error (need.refusal position name e)
    else demand program position name e rest

theorem demand_eq_ok_iff :
    demand program position name e needs = .ok () ↔ ∀ need ∈ needs, need.Met program e := by
  induction needs with
  | nil => simp [demand]
  | cons need rest ih => by_cases h : need.Met program e <;> simp [demand, h, ih]

theorem missed_cons_iff {other : Need} :
    Missed program e (other :: needs) need ↔
      ¬ other.Met program e ∧ need = other ∨
        other.Met program e ∧ Missed program e needs need := by
  refine ⟨?_, ?_⟩
  · rintro ⟨hunmet, met, rest, heq, hmet⟩
    rcases List.cons_eq_append_iff.1 heq with ⟨rfl, heq⟩ | ⟨met, rfl, rfl⟩
    · cases heq
      exact .inl ⟨hunmet, rfl⟩
    · obtain ⟨hother, hmet⟩ := List.forall_mem_cons.1 hmet
      exact .inr ⟨hother, hunmet, met, rest, rfl, hmet⟩
  · rintro (⟨hunmet, rfl⟩ | ⟨hother, hunmet, met, rest, rfl, hmet⟩)
    · exact ⟨hunmet, [], needs, rfl, by simp⟩
    · exact ⟨hunmet, other :: met, rest, rfl, List.forall_mem_cons.2 ⟨hother, hmet⟩⟩

theorem demand_eq_error_iff {err : Error} :
    demand program position name e needs = .error err ↔
      ∃ need, Missed program e needs need ∧ err = need.refusal position name e := by
  induction needs with
  | nil =>
    refine ⟨?_, ?_⟩
    · intro h
      cases h
    · rintro ⟨need, ⟨_, met, rest, h, _⟩, _⟩
      simp at h
  | cons other rest ih =>
    by_cases h : other.Met program e
    · simp [demand, missed_cons_iff, h, ih]
    · simp [demand, missed_cons_iff, h, eq_comm]

end Need

/-- what a record that must be there needs -/
def DataBinding.needs : DataBinding → List Need
  | .fresh _ => []
  | .existing tag => [.owned, .header tag]

/-- the needs of a position; an earlier one counts first -/
def Spec.needs (spec : Spec) : List Need :=
  (if spec.access.signer then [.signer] else []) ++
    (if spec.access.writable then [.writable, .modifiable] else []) ++
    (if spec.executable then [.executable] else []) ++
    spec.data.elim [] DataBinding.needs

theorem Tag.header_prefix_iff {tag : Tag} {data : Bytes} :
    tag.header <+: data ↔ tag.fits data = true := by
  rw [Tag.fits, beq_iff_eq, List.prefix_iff_eq_take, Tag.length_header, eq_comm]

namespace Table

theorem checkRecord_eq {tag : Tag} :
    checkRecord program position name tag e.account =
      Need.demand program position name e (DataBinding.existing tag).needs := by
  unfold checkRecord DataBinding.needs Need.demand Need.demand Need.demand
  by_cases howner : e.account.owner = program
  · rw [if_neg (not_not_intro howner), if_neg (not_not_intro (Need.met_owned.2 howner)), Tag.check]
    by_cases hshort : e.account.data.length < 8
    · have hmet : ¬ (Need.header tag).Met program e := by
        intro h
        have := (Need.met_header.1 h).length_le
        rw [Tag.length_header] at this
        omega
      rw [if_pos hshort, if_pos hmet, Need.refusal, if_pos hshort]
      rfl
    · rw [if_neg hshort]
      by_cases hmet : (Need.header tag).Met program e
      · rw [if_pos (Tag.header_prefix_iff.1 hmet), if_neg (not_not_intro hmet)]
        rfl
      · rw [if_neg (mt Tag.header_prefix_iff.2 hmet), if_pos hmet, Need.refusal, if_neg hshort]
        rfl
  · rw [if_pos howner, if_pos (mt Need.met_owned.1 howner)]
    rfl

theorem checkEntry_eq {spec : Spec} :
    checkEntry program position spec e =
      Need.demand program position spec.name e spec.needs := by
  obtain ⟨name, ⟨signer, writable⟩, data, executable⟩ := spec
  unfold checkEntry Spec.needs
  rcases data with _ | _ | tag <;> cases signer <;> cases writable <;> cases executable <;>
    simp [Need.demand, Need.refusal, DataBinding.needs, checkRecord_eq]

end Table

/-! ## what a layout asks -/

/-- entries of one key have one writability -/
def Consistent (entries : List Entry) : Prop :=
  ∀ e ∈ entries, ∀ g ∈ entries, e.account.key = g.account.key → e.writable = g.writable

/-- the first entry of a key -/
structure Foremost (entries : List Entry) (key : Key) (first : Nat) (f : Entry) : Prop where
  here : entries[first]? = some f
  key_eq : f.account.key = key
  before : ∀ i < first, ∀ e, entries[i]? = some e → e.account.key ≠ key

/-- the lowest position that disagrees with an entry before it, and the first entry of its key -/
structure Clash (entries : List Entry) (first second : Nat) (g : Entry) : Prop where
  here : entries[second]? = some g
  foremost : ∃ f, Foremost entries g.account.key first f ∧ f.writable ≠ g.writable
  lowest : Consistent (entries.take second)

namespace Layout

/-- the entry at a position has all that the layout needs there -/
def MetAt (program : Key) (layout : Layout) (entries : List Entry) (i : Nat) : Prop :=
  ∀ spec e, layout.specs[i]? = some spec → entries[i]? = some e →
    ∀ need ∈ spec.needs, need.Met program e

/-- an account list that keeps the contract of a layout -/
structure Honoured (program : Key) (layout : Layout) (entries : List Entry) : Prop where
  enough : layout.specs.length ≤ entries.length
  consistent : Consistent entries
  met : ∀ i, layout.MetAt program entries i

/-- what is said of an account list that does not keep the contract of a layout -/
inductive Broken (program : Key) (layout : Layout) (entries : List Entry) : Error → Prop where
  | short (few : entries.length < layout.specs.length) :
    Broken program layout entries (.accountCount layout.specs.length entries.length)
  | clash (enough : layout.specs.length ≤ entries.length) {first second : Nat} {g : Entry}
    (clash : Clash entries first second g) :
    Broken program layout entries (.aliasing g.account.key first second)
  | unmet (enough : layout.specs.length ≤ entries.length) (consistent : Consistent entries)
    {i : Nat} (lower : ∀ j < i, layout.MetAt program entries j) {spec : Spec} {e : Entry}
    (spec_at : layout.specs[i]? = some spec) (entry_at : entries[i]? = some e) {need : Need}
    (missed : need.Missed program e spec.needs) :
    Broken program layout entries (need.refusal i spec.name e)

/-- the handle of an entry: untouched, with the name and the tag of its position if it has one -/
def handleAt (layout : Layout) (i : Nat) (e : Entry) : Handle where
  name := layout.specs[i]?.map Spec.name
  account := e.account
  signer := e.signer
  writable := e.writable
  tag := layout.specs[i]?.bind fun spec => spec.data.map DataBinding.tag

end Layout

/-! ## the first clash of an account list -/

section Indexed

variable {α β : Type} {l : List α}

theorem find?_zipIdx_eq_some_iff {p : α → Prop} [DecidablePred p] {a : α} {i : Nat} :
    l.zipIdx.find? (fun x => p x.1) = some (a, i) ↔
      l[i]? = some a ∧ p a ∧ ∀ j < i, ∀ b, l[j]? = some b → ¬ p b := by
  rw [List.find?_eq_some_iff_getElem]
  simp only [List.getElem_zipIdx, List.length_zipIdx, Prod.mk.injEq, List.getElem?_eq_some_iff,
    decide_eq_true_eq]
  refine ⟨?_, ?_⟩
  · rintro ⟨ha, k, hk, ⟨rfl, heq⟩, before⟩
    obtain rfl : k = i := by omega
    refine ⟨⟨hk, rfl⟩, ha, ?_⟩
    rintro j hj _ ⟨_, rfl⟩
    simpa using before j hj
  · rintro ⟨⟨hi, rfl⟩, ha, before⟩
    refine ⟨ha, i, hi, ⟨rfl, Nat.zero_add i⟩, ?_⟩
    intro j hj
    simpa using before j hj _ ⟨Nat.lt_trans hj hi, rfl⟩

/-- the first hit among indexed items, with the items before it -/
theorem findSome?_zipIdx_eq_some_iff {f : α × Nat → Option β} {b : β} :
    l.zipIdx.findSome? f = some b ↔
      ∃ i a, l[i]? = some a ∧ f (a, i) = some b ∧ (l.take i).zipIdx.findSome? f = none := by
  rw [List.findSome?_eq_some_iff]
  refine ⟨?_, ?_⟩
  · rintro ⟨front, x, rest, heq, hx, hfront⟩
    obtain ⟨before, after, rfl, rfl, hafter⟩ := List.zipIdx_eq_append_iff.1 heq
    obtain ⟨a, after, rfl, rfl, -⟩ := List.zipIdx_eq_cons_iff.1 hafter.symm
    rw [Nat.zero_add] at hx
    refine ⟨before.length, a, by simp, hx, ?_⟩
    rwa [List.take_left, List.findSome?_eq_none_iff]
  · rintro ⟨i, a, here, ha, hnone⟩
    obtain ⟨hi, rfl⟩ := List.getElem?_eq_some_iff.1 here
    refine ⟨(l.take i).zipIdx, (l[i], i), (l.drop (i + 1)).zipIdx (i + 1), ?_, ha,
      List.findSome?_eq_none_iff.1 hnone⟩
    have hsplit : l = l.take i ++ l[i] :: l.drop (i + 1) := by simp
    conv => lhs; rw [hsplit]
    rw [List.zipIdx_append, List.zipIdx_cons, List.length_take, Nat.min_eq_left (Nat.le_of_lt hi),
      Nat.zero_add]

end Indexed

theorem Foremost.find?_iff {key : Key} {first : Nat} {f : Entry} :
    entries.zipIdx.find? (fun x => x.1.account.key = key) = some (f, first) ↔
      Foremost entries key first f := by
  rw [find?_zipIdx_eq_some_iff (p := fun e : Entry => e.account.key = key)]
  exact ⟨fun h => ⟨h.1, h.2.1, h.2.2⟩, fun h => ⟨h.here, h.key_eq, h.before⟩⟩

namespace Table

/-- the refusal of an entry that disagrees with the first one of its key -/
def dissent? (entries : List Entry) (x : Entry × Nat) : Option Error :=
  (entries.zipIdx.find? (·.1.account.key = x.1.account.key)).bind fun y =>
    if y.1.writable = x.1.writable then none
    else some (.aliasing x.1.account.key y.2 x.2)

theorem conflict?_eq : conflict? entries = entries.zipIdx.findSome? (dissent? entries) := by
  unfold conflict?
  congr 1
  funext x
  obtain ⟨e, second⟩ := x
  rw [dissent?]
  dsimp only
  cases entries.zipIdx.find? fun y => y.1.account.key = e.account.key <;> rfl

theorem dissent?_eq_some_iff {x : Entry × Nat} {err : Error} :
    dissent? entries x = some err ↔
      ∃ first f, Foremost entries x.1.account.key first f ∧ f.writable ≠ x.1.writable ∧
        err = .aliasing x.1.account.key first x.2 := by
  rw [dissent?, Option.bind_eq_some_iff, Prod.exists, exists_comm]
  refine exists_congr fun first => exists_congr fun f => ?_
  rw [Foremost.find?_iff]
  by_cases h : f.writable = x.1.writable <;> simp [h, eq_comm]

/-- An entry disagrees with the first of its key whatever comes after it. -/
theorem dissent?_take {x : Entry × Nat} {n : Nat} (h : x ∈ (entries.take n).zipIdx) :
    dissent? (entries.take n) x = dissent? entries x := by
  have hfound : ((entries.take n).zipIdx.find?
      (·.1.account.key = x.1.account.key)).isSome = true := by
    rw [List.find?_isSome]
    exact ⟨x, h, by simp⟩
  have hsplit : entries.zipIdx =
      (entries.take n).zipIdx ++ (entries.drop n).zipIdx (0 + (entries.take n).length) := by
    rw [← List.zipIdx_append, List.take_append_drop]
  rw [dissent?, dissent?, hsplit, List.find?_append, Option.or_of_isSome hfound]

theorem no_dissent_iff {n : Nat} :
    (entries.take n).zipIdx.findSome? (dissent? entries) = none ↔ Consistent (entries.take n) := by
  rw [Consistent, ← conflict?_eq_none_iff, conflict?_eq, List.findSome?_eq_none_iff,
    List.findSome?_eq_none_iff]
  refine forall_congr' fun x => forall_congr' fun hx => ?_
  rw [dissent?_take hx]

theorem conflict?_eq_some_iff {err : Error} :
    conflict? entries = some err ↔
      ∃ first second g, Clash entries first second g ∧
        err = .aliasing g.account.key first second := by
  rw [conflict?_eq, findSome?_zipIdx_eq_some_iff]
  simp only [no_dissent_iff, dissent?_eq_some_iff]
  refine ⟨?_, ?_⟩
  · rintro ⟨second, g, here, ⟨first, f, hf, hdiffer, rfl⟩, lowest⟩
    exact ⟨first, second, g, ⟨here, ⟨f, hf, hdiffer⟩, lowest⟩, rfl⟩
  · rintro ⟨first, second, g, ⟨here, ⟨f, hf, hdiffer⟩, lowest⟩, rfl⟩
    exact ⟨second, g, here, ⟨first, f, hf, hdiffer, rfl⟩, lowest⟩

/-! ## both answers -/

theorem bindFrom_eq_error_iff {specs : List Spec} {err : Error} :
    bindFrom program position specs entries = .error err ↔
      ∃ i spec e, specs[i]? = some spec ∧ entries[i]? = some e ∧
        checkEntry program (position + i) spec e = .error err ∧
        ∀ j < i, ∀ spec e, specs[j]? = some spec → entries[j]? = some e →
          checkEntry program (position + j) spec e = .ok () := by
  induction entries generalizing position specs with
  | nil => cases specs <;> simp [bindFrom]
  | cons e rest ih =>
    cases specs with
    | nil =>
      simp only [bindFrom, bind_eq_error_iff, ih, List.getElem?_nil]
      simp [pure, Except.pure]
    | cons spec specs =>
      simp only [bindFrom, bind_eq_error_iff, ih]
      refine ⟨?_, ?_⟩
      · rintro (hhead | ⟨_, hhead, ⟨i, spec', e', hs, he, herr, hlower⟩ | ⟨_, _, h⟩⟩)
        · exact ⟨0, spec, e, rfl, rfl, hhead, by simp⟩
        · refine ⟨i + 1, spec', e', hs, he, ?_, ?_⟩
          · rwa [Nat.add_comm i 1, ← Nat.add_assoc]
          · intro j hj sp en hsp hen
            cases j with
            | zero => cases hsp; cases hen; exact hhead
            | succ j =>
              have := hlower j (Nat.lt_of_succ_lt_succ hj) sp en hsp hen
              rwa [Nat.add_assoc, Nat.add_comm 1 j] at this
        · cases h
      · rintro ⟨i, spec', e', hs, he, herr, hlower⟩
        cases i with
        | zero => cases hs; cases he; exact .inl herr
        | succ i =>
          refine .inr ⟨(), hlower 0 (Nat.succ_pos i) spec e rfl rfl, .inl ⟨i, spec', e', hs, he, ?_, ?_⟩⟩
          · rwa [Nat.add_assoc, Nat.add_comm 1 i]
          · intro j hj sp en hsp hen
            rw [Nat.add_assoc, Nat.add_comm 1 j]
            exact hlower (j + 1) (Nat.succ_lt_succ hj) sp en hsp hen

theorem bound_eq : bound layout.specs entries = entries.mapIdx layout.handleAt := by
  obtain ⟨instruction, specs⟩ := layout
  dsimp only
  induction entries generalizing specs with
  | nil => cases specs <;> rfl
  | cons e rest ih =>
    rw [List.mapIdx_cons]
    cases specs with
    | nil =>
      rw [bound, ih]
      rfl
    | cons spec specs =>
      rw [bound, ih]
      rfl

theorem checkEntry_meets_iff {spec : Spec} :
    checkEntry program position spec e = .ok () ↔ ∀ need ∈ spec.needs, need.Met program e := by
  rw [checkEntry_eq, Need.demand_eq_ok_iff]

theorem checkEntry_eq_error_iff {spec : Spec} {err : Error} :
    checkEntry program position spec e = .error err ↔
      ∃ need, Need.Missed program e spec.needs need ∧
        err = need.refusal position spec.name e := by
  rw [checkEntry_eq, Need.demand_eq_error_iff]

theorem binds_iff_honoured {t : Table} :
    bind program entries layout = .ok t ↔
      layout.Honoured program entries ∧ t = ⟨program, entries.mapIdx layout.handleAt⟩ := by
  rw [binds_iff, bound_eq]
  simp only [checkEntry_meets_iff]
  refine ⟨?_, ?_⟩
  · rintro ⟨enough, consistent, met, rfl⟩
    exact ⟨⟨enough, consistent, met⟩, rfl⟩
  · rintro ⟨⟨enough, consistent, met⟩, rfl⟩
    exact ⟨enough, consistent, met, rfl⟩

theorem refuses_iff_broken {err : Error} :
    bind program entries layout = .error err ↔ layout.Broken program entries err := by
  refine ⟨?_, ?_⟩
  · intro h
    unfold bind at h
    by_cases few : entries.length < layout.specs.length
    · rw [if_pos few] at h
      cases h
      exact .short few
    · rw [if_neg few] at h
      have enough := Nat.le_of_not_lt few
      cases hc : conflict? entries with
      | some found =>
        rw [hc] at h
        cases h
        obtain ⟨first, second, g, clash, rfl⟩ := conflict?_eq_some_iff.1 hc
        exact .clash enough clash
      | none =>
        rw [hc] at h
        obtain ⟨i, spec, e, hs, he, herr, lower⟩ :=
          bindFrom_eq_error_iff.1 (map_eq_error_iff.1 h)
        rw [Nat.zero_add] at herr
        obtain ⟨need, missed, rfl⟩ := checkEntry_eq_error_iff.1 herr
        refine .unmet enough (conflict?_eq_none_iff.1 hc) ?_ hs he missed
        intro j hj sp en hsp hen
        exact checkEntry_meets_iff.1 (lower j hj sp en hsp hen)
  · rintro (few | ⟨enough, clash⟩ | ⟨enough, consistent, lower, hs, he, missed⟩)
    · rw [bind, if_pos few]
    · rw [bind, if_neg (Nat.not_lt.2 enough), conflict?_eq_some_iff.2 ⟨_, _, _, clash, rfl⟩]
    · rw [bind, if_neg (Nat.not_lt.2 enough), conflict?_eq_none_iff.2 consistent]
      refine map_eq_error_iff.2 (bindFrom_eq_error_iff.2 ⟨_, _, _, hs, he, ?_, ?_⟩)
      · rw [Nat.zero_add]
        exact checkEntry_eq_error_iff.2 ⟨_, missed, rfl⟩
      · intro j hj sp en hsp hen
        exact checkEntry_meets_iff.2 (lower j hj sp en hsp hen)

/-- An account list binds if and only if it keeps the contract of the layout, and then to one
handle for each entry; it is refused with what it breaks first. -/
theorem bind_enforces (program : Key) (entries : List Entry) (layout : Layout) :
    (∀ t, bind program entries layout = .ok t ↔
      layout.Honoured program entries ∧ t = ⟨program, entries.mapIdx layout.handleAt⟩) ∧
    ∀ err, bind program entries layout = .error err ↔ layout.Broken program entries err :=
  ⟨fun _ => binds_iff_honoured, fun _ => refuses_iff_broken⟩

end Table

end AccountLedger
