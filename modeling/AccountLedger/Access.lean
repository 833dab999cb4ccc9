import AccountLedger.Text.Blank
import AccountLedger.Text.Quoted
/-!
# Access

What an account slot is used for beyond reading: signing, writing, both or neither.  Access is
written as tags between commas, `mut` for writing and `signer` for signing, in any order and with
blanks and repetitions.  No tag stands for reading alone: its name in messages, `readonly`, is not
read back.
-/

namespace AccountLedger

structure Access where
  signer : Bool
  writable : Bool
deriving DecidableEq, Repr

namespace Access

def readonly : Access := ⟨false, false⟩
def signing : Access := ⟨true, false⟩
def writing : Access := ⟨false, true⟩
def writingSigner : Access := ⟨true, true⟩

/-- everything asked for is granted -/
def within (asked granted : Access) : Bool :=
  (!asked.signer || granted.signer) && (!asked.writable || granted.writable)

/-! ## tags -/

/-- a tag that is neither `mut` nor `signer` -/
structure UnknownTag where
  tag : String
deriving DecidableEq

def UnknownTag.message (t : UnknownTag) : String := s!"unknown account tag {Text.quoted t.tag}"

/-- the pieces of a text between commas, without the blanks around them and without empty ones -/
def tags (cs : List Char) : List (List Char) :=
  ((cs.splitOn ',').map Text.trim).filter (· ≠ [])

/-- the access with what a tag adds to it -/
def addTag (a : Access) (tag : List Char) : Except UnknownTag Access :=
  if tag = "mut".toList then .ok { a with writable := true }
  else if tag = "signer".toList then .ok { a with signer := true }
  else .error ⟨String.ofList tag⟩

/-- the access with what the tags add to it, left to right -/
def addTags (a : Access) : List (List Char) → Except UnknownTag Access
  | [] => .ok a
  | tag :: rest =>
    match addTag a tag with
    | .error e => .error e
    | .ok b => addTags b rest

/-- the access that a tag list asks for -/
def parse (text : String) : Except UnknownTag Access := addTags readonly (tags text.toList)

/-- the tags of an access, or `readonly` if it has none -/
def text (a : Access) : String :=
  match a.writable, a.signer with
  | true, true => "mut, signer"
  | true, false => "mut"
  | false, true => "signer"
  | false, false => "readonly"

end Access

end AccountLedger
