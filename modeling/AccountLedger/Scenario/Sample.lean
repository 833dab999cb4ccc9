import AccountLedger.Escrow.Terms
import AccountLedger.Greeter
import AccountLedger.Swap.Pool
/-!
# Kinds of records

The record types that scenarios can name: those of the programs, and two versions of a sample
record that belongs to no program.
-/

namespace AccountLedger.Scenario

/-- the sample record -/
structure Memo where
  value : UInt64
  note : ShortText
deriving DecidableEq

instance : Record Memo where
  tag := { name := "Record" }
  space := 44
  codec := (Codec.amount.pair Codec.text).iso (fun (value, note) => ⟨value, note⟩)
    (fun m => (m.value, m.note)) (fun _ => rfl) (fun _ => rfl)

/-- the second version of the sample record, without its note -/
structure Tally where
  value : UInt64
deriving DecidableEq

instance : Record Tally where
  tag := { name := "Record", version := 2 }
  space := 16
  codec := Codec.amount.iso (fun value => ⟨value⟩) (fun t => t.value) (fun _ => rfl) (fun _ => rfl)

/-- the record types by name -/
inductive Kind where
  | memo
  | tally
  | greeting
  | terms
  | pool
deriving DecidableEq, Repr

namespace Kind

/-- the type of the records of a kind -/
abbrev Carrier : Kind → Type
  | memo => Memo
  | tally => Tally
  | greeting => Greeter.Greeting
  | terms => Escrow.Terms
  | pool => Swap.Pool

instance record : (k : Kind) → Record k.Carrier
  | memo => inferInstanceAs (Record Memo)
  | tally => inferInstanceAs (Record Tally)
  | greeting => inferInstanceAs (Record Greeter.Greeting)
  | terms => inferInstanceAs (Record Escrow.Terms)
  | pool => inferInstanceAs (Record Swap.Pool)

/-- the tag of the records of a kind -/
def tag (k : Kind) : Tag := Record.tag k.Carrier

/-- the space that programs give the records of a kind -/
def space (k : Kind) : Nat := Record.space k.Carrier

/-- the form of the records of a kind -/
def codec (k : Kind) : Codec k.Carrier := Record.codec

end Kind

/-- a record of any kind -/
structure Sample where
  kind : Kind
  value : kind.Carrier

/-- the payload of a record -/
def Sample.payload (s : Sample) : Bytes := s.kind.codec.write s.value

/-- the record of a kind that data holds under a tag -/
def Sample.decode (kind : Kind) (tag : Tag) (data : Bytes) : Except SchemaFault Sample :=
  (tag.decode kind.codec data).map fun value => ⟨kind, value⟩

end AccountLedger.Scenario
