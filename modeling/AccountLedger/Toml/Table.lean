/-!
# Tables of a settings document

A TOML document fills one table of named items line by line.  Only integers are kept as values; a
text, a number with a fraction, a flag, a time, a list or an inline table is recognised and set
aside.  A table remembers how it came about, because that decides what may still be added to it:

* a table named by a header, or the document itself, takes keys below its header only;
* a table implied by the header of a table inside it may get a header of its own later, once;
* a table made by a dotted key is filled by dotted keys only.
-/

namespace AccountLedger.Toml

inductive Value where
  | integer (n : Int)
  | other
deriving DecidableEq, Repr

inductive Origin where
  | header
  | implied
  | dotted
deriving DecidableEq, Repr

/-- What stands under a key.  Of a list of tables only the last is ever added to, so that one is
kept. -/
inductive Item where
  | value (v : Value)
  | table (origin : Origin) (entries : List (String × Item))
  | tables (last : List (String × Item))

abbrev Entries := List (String × Item)

namespace Entries

/-- the item under a key -/
def get? (key : String) (entries : Entries) : Option Item :=
  (entries.find? (·.1 = key)).map (·.2)

/-- the entries with another item under the key -/
def put (key : String) (item : Item) (entries : Entries) : Entries :=
  if entries.any (·.1 = key) then entries.map fun e => if e.1 = key then (key, item) else e
  else entries ++ [(key, item)]

/-- Changes the table at the end of a path, making the tables that are missing on the way, and
refuses to pass through a value.  A path of a dotted key makes dotted tables and enters no table
that has a header. -/
def change (made : Origin) (f : Origin → Entries → Option Entries) :
    List String → Origin → Entries → Option Entries
  | [], origin, entries => f origin entries
  | key :: path, _, entries =>
    match entries.get? key with
    | none => (change made f path made []).map fun t => entries.put key (.table made t)
    | some (.value _) => none
    | some (.tables last) =>
      (change made f path .header last).map fun t => entries.put key (.tables t)
    | some (.table origin inner) =>
      if made = .dotted ∧ origin = .header then none
      else (change made f path origin inner).map fun t => entries.put key (.table origin t)

/-- adds a value under a dotted key, which must be new and must not mix the two kinds of tables -/
def add (path : List String) (key : String) (v : Value) (origin : Origin) (entries : Entries) :
    Option Entries :=
  entries |> change .dotted (fun reached t =>
    if (reached = .dotted) = (path = []) then none
    else if (t.get? key).isSome then none
    else some (t.put key (.value v))) path origin

/-- what the header of a table does to the table above it -/
def openTable (key : String) (entries : Entries) : Option Entries :=
  match entries.get? key with
  | none => some (entries.put key (.table .header []))
  | some (.table .implied inner) => some (entries.put key (.table .header inner))
  | some _ => none

/-- what the header of one more table of a list does to the table above it -/
def openElement (key : String) (entries : Entries) : Option Entries :=
  match entries.get? key with
  | none | some (.tables _) => some (entries.put key (.tables []))
  | some _ => none

end Entries

end AccountLedger.Toml
