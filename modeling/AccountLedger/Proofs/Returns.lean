import AccountLedger.Proofs.Guards
import AccountLedger.Token.Call
/-!
# When business logic returns

`Logic.Returns` says that a piece of business logic runs to its end, with an answer and a last
scene. Each construct returns exactly when its parts do, so a whole program is inverted by
rewriting, and what is left of it then are the operations that change the table.

* `returns_bind_iff`: a sequence returns if its first piece does and then its second;
* `returns_keyOf_iff`, `returns_holdingOf_iff` and the like: what is read off the table on the way.
-/

namespace AccountLedger

namespace Logic

variable {σ α β : Type} {host : Host σ} {f : Frame} {scene last : Scene σ}

/-- the logic runs to its end, with an answer -/
def Returns (host : Host σ) (f : Frame) (scene : Scene σ) (m : Logic α) (a : α)
    (last : Scene σ) : Prop :=
  m.run host f scene = (.ok a, last)

/-! ## constructs -/

theorem returns_pure_iff {a b : α} :
    Returns host f scene (pure a) b last ↔ last = scene ∧ a = b := by
  simp only [Returns, run_pure, Prod.mk.injEq, Except.ok.injEq, eq_comm, and_comm]

theorem returns_done_iff {a b : α} :
    Returns host f scene (done a) b last ↔ last = scene ∧ a = b :=
  returns_pure_iff

theorem not_returns_fail {e : Error} {a : α} : ¬ Returns host f scene (fail e) a last := by
  intro h
  cases h

theorem not_returns_crash {c : Crash} {a : α} : ¬ Returns host f scene (crash c) a last := by
  intro h
  cases h

theorem returns_bind_iff {m : Logic α} {k : α → Logic β} {b : β} :
    Returns host f scene (m >>= k) b last ↔
      ∃ a mid, Returns host f scene m a mid ∧ Returns host f mid (k a) b last := by
  simp only [Returns, run_bind]
  rcases m.run host f scene with ⟨ending, mid⟩
  cases ending with
  | error stop => simp
  | ok a =>
    simp only [Prod.mk.injEq, Except.ok.injEq]
    refine ⟨?_, ?_⟩
    · intro h
      exact ⟨a, mid, ⟨rfl, rfl⟩, h⟩
    · intro h
      obtain ⟨_, _, ⟨rfl, rfl⟩, h⟩ := h
      exact h

theorem returns_ofExcept_iff {x : Except Error α} {a : α} :
    Returns host f scene (ofExcept x) a last ↔ last = scene ∧ x = .ok a := by
  cases x with
  | error e =>
    simp only [ofExcept, reduceCtorEq, and_false, iff_false]
    exact not_returns_fail
  | ok b => rw [ofExcept, returns_done_iff, Except.ok.injEq]

theorem returns_require_iff {condition : Bool} {e : Error} {u : Unit} :
    Returns host f scene (require condition e) u last ↔ last = scene ∧ condition = true := by
  unfold require
  cases condition with
  | true => simp [returns_done_iff]
  | false => simp [not_returns_fail]

theorem returns_requireEq_iff {a b : Key} {e : Error} {u : Unit} :
    Returns host f scene (requireEq a b e) u last ↔ last = scene ∧ a = b := by
  unfold requireEq
  split
  · rename_i h
    simp [returns_done_iff, h]
  · rename_i h
    simp [not_returns_fail, h]

theorem returns_perform_iff {op : Op} {answer : op.Answer} :
    Returns host f scene (perform op) answer last ↔ op.run host f scene = (.ok answer, last) := by
  rw [Returns, run_perform]

/-! ## what is read off the table -/

theorem returns_table_iff {t : Table} :
    Returns host f scene table t last ↔ last = scene ∧ t = scene.table := by
  refine ⟨?_, ?_⟩
  · intro h
    cases h
    exact ⟨rfl, rfl⟩
  · rintro ⟨rfl, rfl⟩
    rfl

theorem returns_positionOf_iff {name : String} {position : Nat} :
    Returns host f scene (positionOf name) position last ↔
      last = scene ∧ scene.table.positionOf name = .ok position := by
  simp only [positionOf, returns_bind_iff, returns_table_iff, returns_ofExcept_iff, and_assoc,
    exists_eq_left]

theorem returns_handleAt_iff {position : Nat} {h : Handle} :
    Returns host f scene (handleAt position) h last ↔
      last = scene ∧ scene.table.handles[position]? = some h := by
  simp only [handleAt, returns_bind_iff, returns_table_iff, returns_ofExcept_iff, and_assoc,
    exists_eq_left, Table.handle_eq_ok_iff]

theorem returns_keyAt_iff {position : Nat} {key : Key} :
    Returns host f scene (keyAt position) key last ↔
      last = scene ∧ ∃ h, scene.table.handles[position]? = some h ∧ h.key = key := by
  simp only [keyAt, returns_bind_iff, returns_handleAt_iff, returns_pure_iff, and_assoc,
    exists_and_left, exists_eq_left, and_left_comm (b := last = scene)]

theorem returns_handleOf_iff {name : String} {h : Handle} :
    Returns host f scene (handleOf name) h last ↔
      last = scene ∧ ∃ position, scene.table.positionOf name = .ok position ∧
        scene.table.handles[position]? = some h := by
  simp only [handleOf, returns_bind_iff, returns_positionOf_iff, returns_handleAt_iff, and_assoc,
    exists_and_left, exists_eq_left, and_left_comm (b := last = scene)]

theorem returns_keyOf_iff {name : String} {key : Key} :
    Returns host f scene (keyOf name) key last ↔
      last = scene ∧ ∃ position h, scene.table.positionOf name = .ok position ∧
        scene.table.handles[position]? = some h ∧ h.key = key := by
  simp only [keyOf, returns_bind_iff, returns_handleOf_iff, returns_pure_iff, and_assoc,
    exists_and_left, exists_eq_left]
  refine ⟨?_, ?_⟩
  · rintro ⟨h, ⟨position, hp, hh⟩, rfl, hk⟩
    exact ⟨rfl, position, hp, h, hh, hk⟩
  · rintro ⟨rfl, position, hp, h, hh, hk⟩
    exact ⟨h, ⟨position, hp, hh⟩, rfl, hk⟩

theorem returns_record_iff [Record α] {name : String} {a : α} :
    Returns host f scene (record α name) a last ↔
      last = scene ∧ ∃ position, scene.table.positionOf name = .ok position ∧
        scene.table.record α position = .ok a := by
  simp only [record, returns_bind_iff, returns_positionOf_iff, returns_table_iff,
    returns_ofExcept_iff, and_assoc, exists_and_left, exists_eq_left,
    and_left_comm (b := last = scene)]

/-! ## what is asked of the host -/

theorem returns_minimumBalance_iff {space : Nat} {rent : Amount} :
    Returns host f scene (minimumBalance space) rent last ↔
      last = scene ∧ host.minimumBalance scene.ledger space = .ok rent := by
  rw [minimumBalance, returns_perform_iff]
  simp only [Op.run, Prod.mk.injEq, mapError_eq_ok_iff, eq_comm (a := scene), and_comm]

theorem returns_findAddress_iff {seeds : List String} {found : Key × UInt8} :
    Returns host f scene (findAddress seeds) found last ↔
      last = scene ∧ Address.checkLimits seeds = .ok () ∧
        host.findAddress scene.ledger seeds f.program = some found := by
  rw [findAddress, returns_perform_iff]
  simp only [Op.run]
  cases Address.checkLimits seeds with
  | error e => simp
  | ok u =>
    cases host.findAddress scene.ledger seeds f.program with
    | none => simp
    | some found' =>
      simp only [Prod.mk.injEq, Except.ok.injEq, Option.some.injEq, true_and]
      rw [and_comm, eq_comm (a := scene)]

end Logic

namespace Token.Call

open Logic

variable {σ : Type} {host : Host σ} {f : Frame} {scene last : Scene σ}

theorem ownData_eq_ok_iff {h : Handle} {data : Bytes} :
    ownData h = .ok data ↔ h.account.owner = program ∧ h.account.data = data := by
  unfold ownData
  split
  · rename_i ho
    simp [ho]
  · rename_i ho
    simp [ho]

theorem mintIn_eq_ok_iff {h : Handle} {m : Mint} :
    mintIn h = .ok m ↔ h.account.owner = program ∧ Mint.unpack h.account.data = .ok m := by
  simp only [mintIn, bind_eq_ok_iff, ownData_eq_ok_iff, mapError_eq_ok_iff, and_assoc,
    exists_and_left, exists_eq_left']

theorem holdingIn_eq_ok_iff {h : Handle} {held : Holding} :
    holdingIn h = .ok held ↔
      h.account.owner = program ∧ Holding.unpack h.account.data = .ok held := by
  simp only [holdingIn, bind_eq_ok_iff, ownData_eq_ok_iff, mapError_eq_ok_iff, and_assoc,
    exists_and_left, exists_eq_left']

theorem returns_mintOf_iff {name : String} {m : Mint} :
    Returns host f scene (mintOf name) m last ↔
      last = scene ∧ ∃ position, scene.table.positionOf name = .ok position ∧
        ∃ h, scene.table.handles[position]? = some h ∧ h.account.owner = program ∧
          Mint.unpack h.account.data = .ok m := by
  simp only [mintOf, mintAt, returns_bind_iff, returns_positionOf_iff, returns_handleAt_iff,
    returns_ofExcept_iff, mapError_eq_ok_iff, mintIn_eq_ok_iff, and_assoc, exists_and_left,
    exists_eq_left, and_left_comm (b := last = scene)]

theorem returns_holdingOf_iff {name : String} {held : Holding} :
    Returns host f scene (holdingOf name) held last ↔
      last = scene ∧ ∃ position, scene.table.positionOf name = .ok position ∧
        ∃ h, scene.table.handles[position]? = some h ∧ h.account.owner = program ∧
          Holding.unpack h.account.data = .ok held := by
  simp only [holdingOf, holdingAt, returns_bind_iff, returns_positionOf_iff, returns_handleAt_iff,
    returns_ofExcept_iff, mapError_eq_ok_iff, holdingIn_eq_ok_iff, and_assoc, exists_and_left,
    exists_eq_left, and_left_comm (b := last = scene)]

end Token.Call

end AccountLedger
