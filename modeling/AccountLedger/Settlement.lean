import AccountLedger.InnerCall
/-!
# Settlement

When business logic has returned, the touched handles of its table are swept in ascending position
into one batch of writes, one for each key, and the host applies the batch whole or not at all.
Positions of one key must agree on its pending state; the first of them that was touched is
written, with the fields touched there.
-/

namespace AccountLedger

/-- what a settled invocation wrote -/
structure Receipt where
  /-- the positions whose states were written -/
  written : List Nat
  lamportsWritten : Nat
  dataWritten : Nat
deriving DecidableEq

namespace Receipt

def ofWrites (writes : List Write) : Receipt where
  written := writes.map (·.position)
  lamportsWritten := writes.countP (·.lamports.isSome)
  dataWritten := writes.countP (·.data.isSome)

end Receipt

namespace Table

/-- the touched handles with their positions, ascending -/
def touched (t : Table) : List (Handle × Nat) := t.handles.zipIdx.filter (·.1.isDirty)

/-- the write of a touched handle: the fields that were touched -/
def writeOf (h : Handle) (position : Nat) : Write where
  position
  key := h.key
  lamports := if h.dirty.lamports then some h.account.lamports else none
  data := if h.dirty.data then some h.account.data else none
  owner := if h.dirty.owner then some h.account.owner else none

/-- The lowest touched position that disagrees with the first touched position of its key. -/
def divergence? (touched : List (Handle × Nat)) : Option Error :=
  touched.findSome? fun (h, second) =>
    match touched.find? (·.1.key = h.key) with
    | some (g, first) =>
      if g.account = h.account then none else some (.aliasing h.key first second)
    | none => none

/-- the batch of writes that settles the table -/
def pending (t : Table) : Except Error (List Write) :=
  match divergence? t.touched with
  | some e => .error e
  | none => .ok ((distinctBy (·.1.key) t.touched).map fun (h, position) => writeOf h position)

/-- settles the table; an empty batch does not reach the host -/
def commit {σ : Type} (host : Host σ) (t : Table) (s : σ) : Except Error Receipt × σ :=
  match t.pending with
  | .error e => (.error e, s)
  | .ok [] => (.ok (.ofWrites []), s)
  | .ok (w :: rest) =>
    let (result, s) := host.settle s (w :: rest)
    (match result with
      | .ok () => .ok (.ofWrites (w :: rest))
      | .error e => .error (.host e), s)

end Table

end AccountLedger
