import AccountLedger.Proofs.Faithful
import AccountLedger.Proofs.Seats
/-!
# What folding loses

The touched positions of one account must agree, and then all but the first of them are folded into
its write.  Positions that agree need not have made one change together: if two of them pay the
same, the account is charged once.

* `Table.folded`: the touched positions that no write is for;
* `Table.Tracks.totals`: the writes move the sum of the balances by what all positions moved, less
  what the folded ones did;
* `booked_conserves_iff`: so after balanced transfers and creations, the writes are balanced exactly
  if the folded positions are.
-/

namespace AccountLedger

/-! ## what is first of its key -/

/-- What remains of a list in order of places is what has no earlier item of its key. -/
theorem distinctBy_eq_filter {α β : Type} [DecidableEq β] (key : α → β) (place : α → Nat)
    {l : List α} (sorted : l.Pairwise fun x y => place x < place y) :
    distinctBy key l = l.filter fun x => ¬ ∃ y ∈ l, place y < place x ∧ key y = key x := by
  induction l with
  | nil => rfl
  | cons a rest ih =>
    obtain ⟨after, sorted⟩ := List.pairwise_cons.1 sorted
    have hfirst : ¬ ∃ y ∈ a :: rest, place y < place a ∧ key y = key a := by
      intro h
      obtain ⟨y, hy, hlt, _⟩ := h
      rcases List.mem_cons.1 hy with rfl | hy
      · exact Nat.lt_irrefl _ hlt
      · exact Nat.lt_asymm hlt (after y hy)
    rw [distinctBy, ih sorted, List.filter_cons_of_pos (by simpa using hfirst), List.filter_filter]
    congr 1
    apply List.filter_congr
    intro x hx
    have hlt := after x hx
    rw [Bool.eq_iff_iff]
    simp only [List.mem_cons, Bool.and_eq_true, decide_eq_true_eq, not_exists, not_and]
    constructor
    · intro h y hy hyx
      rcases hy with rfl | hy
      · exact Ne.symm h.1
      · exact h.2 y hy hyx
    · intro h
      exact ⟨Ne.symm (h a (.inl rfl) hlt), fun y hy => h y (.inr hy)⟩

namespace Amount

theorem total_filter {α : Type} (amount : α → Amount) (p : α → Bool) (l : List α) :
    total amount (l.filter p) + total amount (l.filter fun a => ¬ p a) = total amount l := by
  induction l with
  | nil => rfl
  | cons a rest ih =>
    cases hp : p a with
    | true =>
      rw [List.filter_cons_of_pos hp, List.filter_cons_of_neg (by simp [hp]), total_cons,
        total_cons]
      omega
    | false =>
      rw [List.filter_cons_of_neg (by simp [hp]), List.filter_cons_of_pos (by simp [hp]),
        total_cons, total_cons]
      omega

theorem total_zipIdx {α : Type} (amount : α → Amount) (l : List α) :
    total (fun x => amount x.1) l.zipIdx = total amount l := by
  rw [← total_map amount Prod.fst, List.zipIdx_map_fst]

end Amount

namespace Table

variable {t : Table} {s : Store} {writes : List Write}

/-- the touched positions that an earlier touched position of their account stands for -/
def folded (t : Table) : List (Handle × Nat) :=
  t.touched.filter fun x => ∃ y ∈ t.touched, y.2 < x.2 ∧ y.1.key = x.1.key

/-- Nothing is folded if no two touched positions name one account. -/
theorem folded_eq_nil
    (apart : ∀ x ∈ t.touched, ∀ y ∈ t.touched, x.1.key = y.1.key → x.2 = y.2) :
    t.folded = [] := by
  rw [folded, List.filter_eq_nil_iff]
  intro x hx h
  obtain ⟨y, hy, hlt, hk⟩ := of_decide_eq_true h
  rw [apart y hy x hx hk] at hlt
  exact Nat.lt_irrefl _ hlt

/-! ## sums of balances -/

/-- the sum of the balances as the positions want them -/
def wanted (l : List (Handle × Nat)) : Nat := Amount.total (·.1.account.lamports) l

/-- the sum of the balances as a store has them for the positions -/
def held (s : Store) (l : List (Handle × Nat)) : Nat := Amount.total (fun x => s.lamports x.1.key) l

theorem wanted_filter (p : Handle × Nat → Bool) (l : List (Handle × Nat)) :
    wanted (l.filter p) + wanted (l.filter fun x => ¬ p x) = wanted l :=
  Amount.total_filter _ p l

theorem held_filter (s : Store) (p : Handle × Nat → Bool) (l : List (Handle × Nat)) :
    held s (l.filter p) + held s (l.filter fun x => ¬ p x) = held s l :=
  Amount.total_filter _ p l

/-- Writes for positions that track the store carry a balance wherever they want another one. -/
theorem totals_writes {l : List (Handle × Nat)}
    (tracks : ∀ x ∈ l, x.1.Tracks (s.read x.1.key)) :
    let carrying := (l.map fun x => writeOf x.1 x.2).filter (·.lamports.isSome)
    Ledger.totalAfter s carrying + held s l = Ledger.totalBefore s carrying + wanted l := by
  induction l with
  | nil => rfl
  | cons x rest ih =>
    have hrest := ih fun y hy => tracks y (List.mem_cons_of_mem _ hy)
    have hx := (tracks x (List.mem_cons_self ..)).lamports
    simp only [List.map_cons, Ledger.totalAfter, Ledger.totalBefore, held, wanted,
      Amount.total_cons] at hrest ⊢
    cases hd : x.1.dirty.lamports with
    | true =>
      have hl : (writeOf x.1 x.2).lamports = some x.1.account.lamports := by
        rw [writeOf, hd, if_pos rfl]
      have hk : (writeOf x.1 x.2).key = x.1.key := rfl
      rw [List.filter_cons_of_pos (by rw [hl]; rfl), Amount.total_cons, Amount.total_cons, hl, hk,
        Option.getD_some]
      omega
    | false =>
      have hl : (writeOf x.1 x.2).lamports = none := by
        rw [writeOf, hd]
        rfl
      have hsame : x.1.account.lamports = s.lamports x.1.key := hx hd
      rw [List.filter_cons_of_neg (by rw [hl]; simp), hsame]
      omega

/-- The writes move the sum by what the positions moved, less what the folded ones did. -/
theorem Tracks.totals (tracks : t.Tracks s) (h : t.pending = .ok writes) :
    let carrying := writes.filter (·.lamports.isSome)
    Ledger.totalAfter s carrying + Amount.total (fun h => s.lamports h.key) t.handles +
        wanted t.folded =
      Ledger.totalBefore s carrying + Amount.total (·.account.lamports) t.handles +
        held s t.folded := by
  obtain ⟨_, rfl⟩ := pending_eq_ok_iff.1 h
  have hplaces : ∀ x ∈ t.handles.zipIdx, x.1.Tracks (s.read x.1.key) := fun x hx =>
    tracks x.1 (List.mem_of_getElem? (List.mem_zipIdx_iff_getElem?.1 hx))
  have hwrites := totals_writes (s := s) (l := distinctBy (fun x => x.1.key) t.touched)
    fun x hx => hplaces x (List.mem_filter.1 (mem_of_mem_distinctBy hx)).1
  -- a position without a mark wants what the store has
  have hquiet : wanted (t.handles.zipIdx.filter fun x => ¬ x.1.isDirty) =
      held s (t.handles.zipIdx.filter fun x => ¬ x.1.isDirty) := by
    apply Amount.total_congr
    intro x hx
    obtain ⟨hx, hclean⟩ := List.mem_filter.1 hx
    refine (hplaces x hx).lamports ?_
    simp only [Handle.isDirty, Dirty.any] at hclean
    simp_all
  have hwanted : wanted t.handles.zipIdx = Amount.total (·.account.lamports) t.handles :=
    Amount.total_zipIdx (fun h : Handle => h.account.lamports) t.handles
  have hheld : held s t.handles.zipIdx = Amount.total (fun h => s.lamports h.key) t.handles :=
    Amount.total_zipIdx (fun h : Handle => s.lamports h.key) t.handles
  have hall := wanted_filter (·.1.isDirty) t.handles.zipIdx
  have hall' := held_filter s (·.1.isDirty) t.handles.zipIdx
  have hfold := wanted_filter
    (fun x => ∃ y ∈ t.touched, y.2 < x.2 ∧ y.1.key = x.1.key) t.touched
  have hfold' := held_filter s
    (fun x => ∃ y ∈ t.touched, y.2 < x.2 ∧ y.1.key = x.1.key) t.touched
  have hfirst := distinctBy_eq_filter (fun x : Handle × Nat => x.1.key) (·.2) t.touched_sorted
  simp only [decide_eq_true_eq] at hfold hfold'
  rw [← hfirst] at hfold hfold'
  dsimp only
  simp only [folded, touched] at *
  omega

/-! ## transfers and creations -/

/-- what is left of a table when balances were set and accounts made, one after the other -/
inductive Booked (t : Table) : Table → Prop where
  | refl : Booked t t
  | lamports {now next position amount} (before : Booked t now)
      (set : now.setLamports position amount = .ok next) : Booked t next
  | create {now next payer target space owner seeds rent} (before : Booked t now)
      (made : now.create payer target space owner seeds rent = (.ok (), next)) : Booked t next

/-- What every operation preserves is so after transfers and creations. -/
theorem Booked.preserves {P : Table → Prop} {now : Table} (booked : t.Booked now)
    (step : ∀ {f t op result t'}, Step f t op result t' → P t → P t') (init : P t) : P now := by
  let f : Frame := ⟨{}, t.program, 1, []⟩
  induction booked with
  | refl => exact init
  | lamports before set ih =>
    obtain ⟨h, h', here, changed, rfl⟩ := update_eq_ok_iff.1 set
    exact step (f := f) (.lamports here changed) ih
  | @create now next payer target space owner seeds rent before made ih =>
    rcases create_cases now payer target space owner seeds rent with
      ⟨e, hc⟩ | ⟨bySeeds, funder, fresh, may, ⟨fits, hc⟩ | hc⟩
    · rw [hc] at made
      cases made
    · rw [hc] at made
      cases made
      exact step (f := f) (.create may fits) ih
    · rw [hc] at made
      cases made

end Table

/-- a store with the accounts of an account list -/
def Store.ofEntries (entries : List Entry) : Store :=
  entries.foldr (fun e s => s.insert e.account) .empty

theorem Store.read_ofEntries {entries : List Entry}
    (same : ∀ e ∈ entries, ∀ g ∈ entries, e.account.key = g.account.key → e.account = g.account)
    {e : Entry} (he : e ∈ entries) : (ofEntries entries).read e.account.key = e.account := by
  induction entries with
  | nil => cases he
  | cons g rest ih =>
    show ((ofEntries rest).insert g.account).read e.account.key = e.account
    rw [read_insert]
    by_cases hk : g.account.key = e.account.key
    · rw [if_pos hk]
      exact same g (List.mem_cons_self ..) e he hk
    · rw [if_neg hk]
      have hrest : e ∈ rest := (List.mem_cons.1 he).resolve_left fun h => hk (h ▸ rfl)
      exact ih (fun x hx y hy => same x (List.mem_cons_of_mem _ hx) y (List.mem_cons_of_mem _ hy))
        hrest

namespace Table

/-- After transfers and creations that are balanced over all positions, the writes of the table are
balanced exactly if the positions that were folded are, and in particular if none were. -/
theorem booked_conserves_iff {program : Key} {entries : List Entry} {layout : Layout}
    {t now : Table} {writes : List Write} (bound : bind program entries layout = .ok t)
    (same : ∀ e ∈ entries, ∀ g ∈ entries, e.account.key = g.account.key → e.account = g.account)
    (booked : t.Booked now)
    (even : Amount.total (·.account.lamports) now.handles =
      Amount.total (·.account.lamports) t.handles)
    (pending : now.pending = .ok writes) :
    let initial := Store.ofEntries entries
    let carrying := writes.filter (·.lamports.isSome)
    (Ledger.totalAfter initial carrying = Ledger.totalBefore initial carrying ↔
        wanted now.folded = held initial now.folded) ∧
      ((∀ x ∈ now.touched, ∀ y ∈ now.touched, x.1.key = y.1.key → x.2 = y.2) →
        Ledger.totalAfter initial carrying = Ledger.totalBefore initial carrying) := by
  intro initial carrying
  have tracked : t.Tracks initial :=
    .of_bind bound fun e he => (Store.read_ofEntries same he).symm
  have tracks : now.Tracks initial := booked.preserves Tracks.of_step tracked
  have seats : now.seats = t.seats :=
    booked.preserves (P := fun now => now.seats = t.seats) (fun step h => step.seats_eq.trans h) rfl
  have hseats : ∀ t : Table, Amount.total (fun h => initial.lamports h.key) t.handles =
      Amount.total (fun seat : Seat => initial.lamports seat.key) t.seats := fun t =>
    (Amount.total_map (fun seat : Seat => initial.lamports seat.key) Handle.seat t.handles).symm
  have hinitial : Amount.total (fun h => initial.lamports h.key) now.handles =
      Amount.total (·.account.lamports) t.handles := by
    rw [hseats now, seats, ← hseats t]
    apply Amount.total_congr
    intro h hh
    obtain ⟨_, _, _, rfl⟩ := binds_iff.1 bound
    obtain ⟨i, hi⟩ := List.getElem?_of_mem hh
    obtain ⟨_, _, hb⟩ := getElem?_bound hi
    exact ((tracked h hh).lamports (by rw [hb.clean])).symm
  have htotals : Ledger.totalAfter initial carrying +
        Amount.total (fun h => initial.lamports h.key) now.handles + wanted now.folded =
      Ledger.totalBefore initial carrying +
        Amount.total (·.account.lamports) now.handles + held initial now.folded :=
    tracks.totals pending
  constructor
  · constructor
    · intro h
      omega
    · intro h
      omega
  · intro apart
    rw [folded_eq_nil apart] at htotals
    simp only [wanted, held, Amount.total_nil] at htotals
    omega

/-- an account list that names a payer twice, and two accounts to be made -/
def payers : List Entry :=
  [⟨true, true, { key := .ofNat 2, lamports := 100 }⟩,
    ⟨true, true, { key := .ofNat 2, lamports := 100 }⟩,
    ⟨true, true, .vacant (.ofNat 3)⟩, ⟨true, true, .vacant (.ofNat 4)⟩]

/-- the table of the payer's invocation -/
def purse : Table := ⟨.ofNat 1, bound [] payers⟩

theorem purse_bound : bind (.ofNat 1) payers ⟨"pay", []⟩ = .ok purse := rfl

/-- the table after the payer made one account through its first position, and then the other
through its first or its second -/
def charged (second : Nat) : Table :=
  ((purse.create 0 2 0 .system none 10).2.create second 3 0 .system none 10).2

theorem charged_booked (second : Nat) (h : second < 2) : purse.Booked (charged second) := by
  let paid : Table := (purse.create 0 2 0 .system none 10).2
  have first : purse.create 0 2 0 .system none 10 = (.ok (), paid) := rfl
  have last : paid.create second 3 0 .system none 10 = (.ok (), charged second) := by
    rcases second with _ | _ | _
    · rfl
    · rfl
    · omega
  exact (Booked.refl.create first).create last

theorem charged_balanced : ∃ writes, (charged 0).pending = .ok writes ∧
    Ledger.totalAfter (.ofEntries payers) (writes.filter (·.lamports.isSome)) =
      Ledger.totalBefore (.ofEntries payers) (writes.filter (·.lamports.isSome)) := by
  refine ⟨_, rfl, ?_⟩
  exact (booked_conserves_iff purse_bound (by decide) (charged_booked 0 (by decide))
    (by decide) rfl).2 (by decide)

/-- Through two positions the payer wants the same balance in both, so they are folded, and it pays
for one account of the two. -/
theorem charged_once : ∃ writes, bind (.ofNat 1) payers ⟨"pay", []⟩ = .ok purse ∧
    (∀ e ∈ payers, ∀ g ∈ payers, e.account.key = g.account.key → e.account = g.account) ∧
    purse.Booked (charged 1) ∧
    Amount.total (·.account.lamports) (charged 1).handles =
      Amount.total (·.account.lamports) purse.handles ∧
    (charged 1).pending = .ok writes ∧
    Ledger.totalBefore (.ofEntries payers) (writes.filter (·.lamports.isSome)) = 100 ∧
    Ledger.totalAfter (.ofEntries payers) (writes.filter (·.lamports.isSome)) = 110 := by
  refine ⟨_, purse_bound, by decide, charged_booked 1 (by decide), by decide, rfl, ?_⟩
  decide

end Table

end AccountLedger
