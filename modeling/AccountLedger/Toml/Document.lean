import AccountLedger.Toml.Scalar
/-!
# Settings documents

The grammar of a TOML document: lines that give a key a value, headers that open a table or one
more table of a list, comments and empty lines.  `document` returns the table that the lines fill,
or nothing if the text is no document.
-/

namespace AccountLedger.Toml

/-! ## values -/

/-- A value, with lists and inline tables nested less than `depth` deep.  Lists and inline tables
are checked and set aside. -/
def value : (depth : Nat) → Reader Value
  | 0, _ => none
  | depth + 1, cs =>
    match cs with
    | '"' :: _ | '\'' :: _ => (textValue cs).map fun rest => (.other, rest)
    | '[' :: rest =>
      if depth = 0 then none else (items depth cs.length rest).map fun rest => (.other, rest)
    | '\x7b' :: rest =>
      if depth = 0 then none else (pairs depth cs.length rest).map fun rest => (.other, rest)
    | 't' :: _ => (skip? "true".toList cs).map fun rest => (.other, rest)
    | 'f' :: _ => (skip? "false".toList cs).map fun rest => (.other, rest)
    | _ =>
      match (moment cs).or (float cs) with
      | some rest => some (.other, rest)
      | none => (integer cs).map fun (n, rest) => (.integer n, rest)
where
  /-- the items of a list up to its closing bracket, which is consumed -/
  items (depth : Nat) : Nat → List Char → Option (List Char)
    | 0, _ => none
    | fuel + 1, cs =>
      match skipLines cs.length cs with
      | ']' :: rest => some rest
      | here =>
        match value depth here with
        | none => none
        | some (_, rest) =>
          match skipLines rest.length rest with
          | ',' :: rest => items depth fuel rest
          | ']' :: rest => some rest
          | _ => none
  /-- the pairs of an inline table up to its closing brace, which is consumed -/
  pairs (depth : Nat) (fuel : Nat) (cs : List Char) : Option (List Char) :=
    match skipSpaces cs with
    | '\x7d' :: rest => some rest
    | here => morePairs depth fuel [] here
  /-- one or more pairs, added to the entries so far -/
  morePairs (depth : Nat) : Nat → Entries → List Char → Option (List Char)
    | 0, _, _ => none
    | fuel + 1, entries, cs =>
      match key cs with
      | some ((path, last), '=' :: rest) =>
        match value depth (skipSpaces rest) with
        | none => none
        | some (v, rest) =>
          match entries.add path last v .header with
          | none => none
          | some entries =>
            match skipSpaces rest with
            | ',' :: rest => morePairs depth fuel entries rest
            | '\x7d' :: rest => some rest
            | _ => none
      | _ => none

/-! ## lines -/

/-- the document so far, and the path of the table that keys are added to -/
structure State where
  entries : Entries
  current : List String

/-- a line that gives a key a value -/
def keyLine (s : State) (cs : List Char) : Option (State × List Char) :=
  match key cs with
  | some ((path, last), '=' :: rest) => do
    let (v, rest) ← value nestingLimit (skipSpaces rest)
    let rest ← endOfLine? rest
    let added (origin : Origin) (t : Entries) := t.add path last v origin
    let entries ← s.entries.change .implied added s.current .header
    return ({ s with entries }, rest)
  | _ => none

/-- a header, which opens a table or one more table of a list -/
def headerLine (s : State) (cs : List Char) : Option (State × List Char) := do
  let (isList, rest) := match cs with
    | '[' :: '[' :: rest => (true, rest)
    | _ => (false, cs.drop 1)
  let ((path, last), rest) ← key rest
  let rest ← skip? (if isList then [']', ']'] else [']']) rest
  let rest ← endOfLine? rest
  let opened : Origin → Entries → Option Entries := fun _ t =>
    if isList then t.openElement last else t.openTable last
  let entries ← s.entries.change .implied opened path .header
  return (⟨entries, path ++ [last]⟩, rest)

/-- all lines of the input; `fuel` bounds their number -/
def lines : Nat → State → List Char → Option Entries
  | 0, _, _ => none
  | fuel + 1, s, cs =>
    match skipSpaces cs with
    | [] => some s.entries
    | '[' :: rest => do
      let (s, rest) ← headerLine s ('[' :: rest)
      lines fuel s rest
    | c :: rest =>
      if c = '#' ∨ c = '\n' ∨ c = '\r' then do
        let rest ← endOfLine? (c :: rest)
        lines fuel s rest
      else do
        let (s, rest) ← keyLine s (c :: rest)
        lines fuel s rest

/-- the table of a document, which may begin with a byte order mark -/
def document (text : String) : Option Entries :=
  let cs := match text.toList with
    | '\ufeff' :: rest => rest
    | cs => cs
  lines (cs.length + 1) ⟨[], []⟩ cs

end AccountLedger.Toml
