import AccountLedger.Proofs.Binding
import AccountLedger.Proofs.Operation
import AccountLedger.Proofs.Returns
/-!
# What a position keeps all through a run

A position has a name, a key, a writability and a schema when it is bound, and no operation changes
any of them.  So whom a name stands for is settled by the layout and the instruction alone.

* `Layout.keyOf?`: the key that an instruction gives for a name of a layout;
* `Table.Seated.returns_keyOf_iff`: business logic that asks for the key of a name gets that one.
-/

namespace AccountLedger

/-- what a position keeps -/
structure Seat where
  name : Option String
  key : Key
  writable : Bool
  tag : Option Tag

def Handle.seat (h : Handle) : Seat := ⟨h.name, h.key, h.writable, h.tag⟩

def Table.seats (t : Table) : List Seat := t.handles.map (·.seat)

theorem Handle.seat_moveLamports (amount : Amount) (h : Handle) :
    (h.moveLamports amount).seat = h.seat := by
  unfold moveLamports
  split <;> rfl

theorem Handle.Changed.seat_eq {f : Frame} {t : Table} {op : Op} {result : Except (Stop Error) Unit}
    {h h' : Handle} (change : h.Changed f t op result h') : h'.seat = h.seat := by
  cases change with
  | same => rfl
  | lamports set =>
    obtain ⟨_, _, _, rfl⟩ := setLamports_eq_ok_iff.1 set
    rfl
  | save saved =>
    obtain ⟨_, _, _, _, _, rfl⟩ := save_eq_ok_iff.1 saved
    rfl
  | paid may => exact seat_moveLamports _ _
  | allocated may => exact seat_moveLamports _ _
  | half may => exact seat_moveLamports _ _
  | adopted asked within =>
    exact adoptAll_induction (P := fun g => g.seat = h.seat) _ (fun _ _ _ _ hg => hg) rfl

theorem Table.Step.seats_eq {f : Frame} {t t' : Table} {op : Op}
    {result : Except (Stop Error) Unit} (step : Step f t op result t') : t'.seats = t.seats := by
  apply List.ext_getElem?
  intro position
  simp only [seats, List.getElem?_map]
  cases hh' : t'.handles[position]? with
  | none =>
    have hlen := step.length_eq
    rw [List.getElem?_eq_none_iff] at hh'
    rw [List.getElem?_eq_none_iff.2 (by omega)]
  | some h' =>
    obtain ⟨h, here, change⟩ := step.changed hh'
    rw [here, Option.map_some, Option.map_some, change.seat_eq]

theorem Logic.Returns.seats_eq {σ α : Type} {host : Host σ} {f : Frame} {scene last : Scene σ}
    {m : Logic α} {a : α} (h : Returns host f scene m a last) :
    last.table.seats = scene.table.seats := by
  have hrun : (m.run host f scene).2 = last := congrArg (·.2) h
  rw [← hrun]
  exact run_induction (P := fun now => now.table.seats = scene.table.seats) host f
    (fun op now hnow => (op.run_step host f now).seats_eq.trans hnow) m scene rfl

/-! ## names -/

/-- the key that an instruction gives for a name -/
def Layout.keyOf? (layout : Layout) (i : Instruction) (name : String) : Option Key :=
  (layout.position? name).bind fun position => i.metas[position]?.map (·.key)

/-- the seat of a meta at a position of a layout -/
def Seat.at (specs : List Spec) (position : Nat) (m : Meta) : Seat where
  name := specs[position]?.map (·.name)
  key := m.key
  writable := m.writable
  tag := specs[position]?.bind fun spec => spec.data.map (·.tag)

namespace Table

/-- the positions are those of a layout, for the metas of an instruction -/
structure Seated (layout : Layout) (metas : List Meta) (t : Table) : Prop where
  enough : layout.specs.length ≤ metas.length
  seats : t.seats = metas.mapIdx (Seat.at layout.specs)

theorem seats_bound (specs : List Spec) (entries : List Entry) :
    (bound specs entries).map (·.seat) =
      (entries.map fun e => ⟨e.account.key, e.signer, e.writable⟩).mapIdx (Seat.at specs) := by
  induction entries generalizing specs with
  | nil => cases specs <;> rfl
  | cons e rest ih =>
    cases specs with
    | nil =>
      rw [bound, List.map_cons, ih, List.map_cons, List.mapIdx_cons]
      rfl
    | cons spec specs =>
      rw [bound, List.map_cons, ih, List.map_cons, List.mapIdx_cons]
      rfl

theorem findIdx?_seats (specs : List Spec) (metas : List Meta) (name : String)
    (enough : specs.length ≤ metas.length) :
    (metas.mapIdx (Seat.at specs)).findIdx? (·.name = some name) =
      specs.findIdx? (·.name = name) := by
  induction specs generalizing metas with
  | nil =>
    rw [List.findIdx?_nil, List.findIdx?_eq_none_iff]
    intro seat hseat
    obtain ⟨position, _, rfl⟩ := List.mem_mapIdx.1 hseat
    simp [Seat.at]
  | cons spec specs ih =>
    cases metas with
    | nil => simp at enough
    | cons m metas =>
      have hrest := ih metas (by simpa using enough)
      have hshift : (fun position => Seat.at (spec :: specs) (position + 1)) = Seat.at specs := rfl
      rw [List.mapIdx_cons, hshift, List.findIdx?_cons, List.findIdx?_cons, hrest]
      simp [Seat.at]

namespace Seated

variable {layout : Layout} {i : Instruction} {t : Table}

theorem positionOf_eq_ok_iff (seated : t.Seated layout i.metas) {name : String} {position : Nat} :
    t.positionOf name = .ok position ↔ layout.position? name = some position := by
  have hfind : t.handles.findIdx? (·.name = some name) = layout.position? name := by
    have := findIdx?_seats layout.specs i.metas name seated.enough
    rw [← seated.seats, Table.seats, List.findIdx?_map] at this
    exact this
  unfold positionOf
  rw [hfind]
  cases layout.position? name <;> simp

theorem handle_at (seated : t.Seated layout i.metas) {position : Nat} {h : Handle}
    (here : t.handles[position]? = some h) :
    ∃ m, i.metas[position]? = some m ∧ h.seat = Seat.at layout.specs position m := by
  have hseat : t.seats[position]? = some h.seat := by rw [Table.seats, List.getElem?_map, here]; rfl
  rw [seated.seats, List.getElem?_mapIdx, Option.map_eq_some_iff] at hseat
  obtain ⟨m, hm, heq⟩ := hseat
  exact ⟨m, hm, heq.symm⟩

theorem exists_handle (seated : t.Seated layout i.metas) {position : Nat} {m : Meta}
    (hm : i.metas[position]? = some m) :
    ∃ h, t.handles[position]? = some h ∧ h.seat = Seat.at layout.specs position m := by
  have hseat : t.seats[position]? = some (Seat.at layout.specs position m) := by
    rw [seated.seats, List.getElem?_mapIdx, hm]; rfl
  rw [Table.seats, List.getElem?_map, Option.map_eq_some_iff] at hseat
  exact hseat

theorem keyAt_iff (seated : t.Seated layout i.metas) {position : Nat} {key : Key} :
    (∃ h, t.handles[position]? = some h ∧ h.key = key) ↔
      i.metas[position]?.map (·.key) = some key := by
  rw [Option.map_eq_some_iff]
  refine ⟨?_, ?_⟩
  · rintro ⟨h, here, rfl⟩
    obtain ⟨m, hm, hseat⟩ := seated.handle_at here
    exact ⟨m, hm, (congrArg Seat.key hseat).symm⟩
  · rintro ⟨m, hm, rfl⟩
    obtain ⟨h, here, hseat⟩ := seated.exists_handle hm
    exact ⟨h, here, congrArg Seat.key hseat⟩

theorem returns_keyOf_iff {σ : Type} {host : Host σ} {f : Frame} {scene last : Scene σ}
    (seated : scene.table.Seated layout i.metas) {name : String} {key : Key} :
    Logic.Returns host f scene (Logic.keyOf name) key last ↔
      last = scene ∧ layout.keyOf? i name = some key := by
  rw [Logic.returns_keyOf_iff, Layout.keyOf?, Option.bind_eq_some_iff]
  simp only [seated.positionOf_eq_ok_iff, exists_and_left, seated.keyAt_iff]

/-- Business logic that asks for a certain key under a name goes on if it is that one. -/
theorem returns_requireKey_iff {σ : Type} {host : Host σ} {f : Frame} {scene last : Scene σ}
    (seated : scene.table.Seated layout i.metas) {name : String} {key : Key} {e : Error} {u : Unit} :
    Logic.Returns host f scene (do Logic.requireEq (← Logic.keyOf name) key e) u last ↔
      last = scene ∧ layout.keyOf? i name = some key := by
  simp only [Logic.returns_bind_iff, seated.returns_keyOf_iff, Logic.returns_requireEq_iff,
    and_assoc]
  refine ⟨?_, ?_⟩
  · rintro ⟨_, _, rfl, h, rfl, rfl⟩
    exact ⟨rfl, h⟩
  · rintro ⟨rfl, h⟩
    exact ⟨_, _, rfl, h, rfl, rfl⟩

end Seated

end Table

end AccountLedger
