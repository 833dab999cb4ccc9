import AccountLedger.Toml.Table
/-!
# Keys, texts, numbers and times of a settings document

Each reader takes what it can from the front of the input and returns it with the rest, or refuses.
-/

namespace AccountLedger.Toml

abbrev Reader (α : Type) := List Char → Option (α × List Char)

/-! ## characters -/

def isDigit (c : Char) : Bool := '0' ≤ c && c ≤ '9'

/-- the value of a digit in a base up to sixteen -/
def digitValue? (base : Nat) (c : Char) : Option Nat :=
  let n :=
    if '0' ≤ c ∧ c ≤ '9' then c.toNat - 48
    else if 'a' ≤ c ∧ c ≤ 'f' then c.toNat - 87
    else if 'A' ≤ c ∧ c ≤ 'F' then c.toNat - 55
    else base
  if n < base then some n else none

def isSpace (c : Char) : Bool := c = ' ' || c = '\t'

/-- a character that may stand in a text or a comment as itself: no control character but the tab -/
def isPlain (c : Char) : Bool := c = '\t' || (0x20 ≤ c.toNat && c.toNat ≠ 0x7f)

def isBareKey (c : Char) : Bool :=
  isDigit c || ('a' ≤ c && c ≤ 'z') || ('A' ≤ c && c ≤ 'Z') || c = '_' || c = '-'

def skipSpaces (cs : List Char) : List Char := cs.dropWhile isSpace

/-- the input behind the given characters, if it begins with them -/
def skip? : List Char → List Char → Option (List Char)
  | [], cs => some cs
  | _ :: _, [] => none
  | w :: word, c :: cs => if w = c then skip? word cs else none

/-- the input behind a line break, which is a line feed with or without a carriage return -/
def newline? : List Char → Option (List Char)
  | '\n' :: cs => some cs
  | '\r' :: '\n' :: cs => some cs
  | _ => none

/-- the input behind a comment, if one begins here -/
def skipComment : List Char → List Char
  | '#' :: cs => cs.dropWhile isPlain
  | cs => cs

/-- the rest of the line holds nothing more than blanks and a comment -/
def endOfLine? (cs : List Char) : Option (List Char) :=
  match skipComment (skipSpaces cs) with
  | [] => some []
  | rest => newline? rest

/-- blanks, comments and line breaks, as between the items of a list; `fuel` bounds the lines -/
def skipLines : Nat → List Char → List Char
  | 0, cs => cs
  | fuel + 1, cs =>
    let here := skipSpaces cs
    match newline? (skipComment here) with
    | some rest => skipLines fuel rest
    | none => here

/-! ## texts -/

/-- a character by its code point in `n` hexadecimal digits -/
def codePoint (n : Nat) : Reader Char := fun cs =>
  let digits := cs.take n
  match digits.mapM (digitValue? 16) with
  | none => none
  | some values =>
    let code := values.foldl (fun acc d => 16 * acc + d) 0
    if digits.length = n ∧ code.isValidChar then some (Char.ofNat code, cs.drop n) else none

/-- what stands behind a backslash -/
def escape : Reader Char
  | 'b' :: cs => some ('\x08', cs)
  | 't' :: cs => some ('\t', cs)
  | 'n' :: cs => some ('\n', cs)
  | 'f' :: cs => some ('\x0c', cs)
  | 'r' :: cs => some ('\r', cs)
  | '"' :: cs => some ('"', cs)
  | '\\' :: cs => some ('\\', cs)
  | 'u' :: cs => codePoint 4 cs
  | 'U' :: cs => codePoint 8 cs
  | _ => none

/-- the text up to a closing quote, which is consumed; with `escapes`, a backslash escapes -/
def quotedText (quote : Char) (escapes : Bool) : Nat → List Char → Reader (List Char)
  | 0, _, _ => none
  | _ + 1, _, [] => none
  | fuel + 1, acc, c :: cs =>
    if c = quote then some (acc.reverse, cs)
    else if escapes ∧ c = '\\' then
      match escape cs with
      | some (d, rest) => quotedText quote escapes fuel (d :: acc) rest
      | none => none
    else if isPlain c then quotedText quote escapes fuel (c :: acc) cs
    else none

/-- the input behind blanks and line breaks -/
def skipBreaks : List Char → List Char
  | '\n' :: cs => skipBreaks cs
  | '\r' :: '\n' :: cs => skipBreaks cs
  | c :: cs => if isSpace c then skipBreaks cs else c :: cs
  | [] => []

/-- the input behind a line break that a backslash hides, and the blanks and breaks after it -/
def hiddenBreak? (cs : List Char) : Option (List Char) := (newline? (skipSpaces cs)).map skipBreaks

/-- The text up to three closing quotes, which are consumed; one or two more may belong to the
text.  It may run over several lines. -/
def longText (quote : Char) (escapes : Bool) : Nat → Reader Unit
  | 0, _ => none
  | _ + 1, [] => none
  | fuel + 1, c :: cs =>
    if c = quote then
      let run := ((c :: cs).take 5).takeWhile (· = quote)
      if 3 ≤ run.length then some ((), (c :: cs).drop run.length)
      else longText quote escapes fuel ((c :: cs).drop run.length)
    else if escapes ∧ c = '\\' then
      match hiddenBreak? cs with
      | some rest => longText quote escapes fuel rest
      | none =>
        match escape cs with
        | some (_, rest) => longText quote escapes fuel rest
        | none => none
    else
      match newline? (c :: cs) with
      | some rest => longText quote escapes fuel rest
      | none => if isPlain c then longText quote escapes fuel cs else none

/-- a text on one line or on several -/
def textValue (cs : List Char) : Option (List Char) :=
  let long (quote : Char) (escapes : Bool) (rest : List Char) :=
    (longText quote escapes cs.length rest).map (·.2)
  let short (quote : Char) (escapes : Bool) (rest : List Char) :=
    (quotedText quote escapes cs.length [] rest).map (·.2)
  match cs with
  | '"' :: '"' :: '"' :: rest => long '"' true rest
  | '\'' :: '\'' :: '\'' :: rest => long '\'' false rest
  | '"' :: rest => short '"' true rest
  | '\'' :: rest => short '\'' false rest
  | _ => none

/-! ## keys -/

/-- one part of a key: bare, or a quoted text on one line -/
def keyPart (cs : List Char) : Option (String × List Char) :=
  match cs with
  | '"' :: rest => (quotedText '"' true cs.length [] rest).map fun (t, r) => (String.ofList t, r)
  | '\'' :: rest => (quotedText '\'' false cs.length [] rest).map fun (t, r) => (String.ofList t, r)
  | _ =>
    let word := cs.takeWhile isBareKey
    if word = [] then none else some (String.ofList word, cs.dropWhile isBareKey)

/-- the parts of a key between dots, with blanks around them; `fuel` bounds their number -/
def keyParts : Nat → Reader (List String)
  | 0, _ => none
  | fuel + 1, cs =>
    match keyPart (skipSpaces cs) with
    | none => none
    | some (part, rest) =>
      match skipSpaces rest with
      | '.' :: rest => (keyParts fuel rest).map fun (parts, r) => (part :: parts, r)
      | rest => some ([part], rest)

/-- keys have fewer parts and values are nested less deeply than this -/
def nestingLimit : Nat := 80

/-- the path and the last part of a dotted key -/
def key (cs : List Char) : Option ((List String × String) × List Char) :=
  match keyParts (nestingLimit - 1) cs with
  | none => none
  | some (parts, rest) => parts.getLast?.map fun last => ((parts.dropLast, last), rest)

/-! ## numbers -/

/-- more digits of a base, with single underscores between them -/
def moreDigits (base : Nat) : Nat → Reader Nat
  | acc, [] => some (acc, [])
  | acc, '_' :: c :: cs =>
    match digitValue? base c with
    | some d => moreDigits base (base * acc + d) cs
    | none => none
  | acc, c :: cs =>
    match digitValue? base c with
    | some d => moreDigits base (base * acc + d) cs
    | none => if c = '_' then none else some (acc, c :: cs)

/-- one or more digits of a base, most significant first, continuing a number -/
def digits (base : Nat) (acc : Nat) : Reader Nat
  | [] => none
  | c :: cs =>
    match digitValue? base c with
    | some d => moreDigits base (base * acc + d) cs
    | none => none

/-- a sign, if there is one -/
def sign : List Char → Bool × List Char
  | '-' :: cs => (true, cs)
  | '+' :: cs => (false, cs)
  | cs => (false, cs)

/-- a decimal number without needless zeros in front -/
def decimal (cs : List Char) : Option (Nat × List Char) :=
  match cs with
  | '0' :: rest => some (0, rest)
  | _ => digits 10 0 cs

/-- the first number that is no positive integer of 64 bits -/
def integerLimit : Nat := 9223372036854775808

/-- an integer of 64 bits: decimal with a sign, or in base sixteen, eight or two without one -/
def integer (cs : List Char) : Option (Int × List Char) :=
  let based (base : Nat) (rest : List Char) : Option (Int × List Char) :=
    match digits base 0 rest with
    | some (n, r) => if n < integerLimit then some (n, r) else none
    | none => none
  match cs with
  | '0' :: 'x' :: rest => based 16 rest
  | '0' :: 'o' :: rest => based 8 rest
  | '0' :: 'b' :: rest => based 2 rest
  | _ =>
    let (negative, rest) := sign cs
    match decimal rest with
    | none => none
    | some (n, r) =>
      if negative then (if n ≤ integerLimit then some (-(n : Int), r) else none)
      else if n < integerLimit then some ((n : Int), r) else none

/-- how many digits stand in front, underscores apart -/
def digitCount (cs : List Char) : Nat :=
  ((cs.takeWhile fun c => isDigit c || c = '_').filter isDigit).length

/-- The fraction behind a point: its digits continue the value, and each moves the exponent down
by one. -/
def fraction (value : Nat) : Reader (Nat × Int)
  | '.' :: cs => (digits 10 value cs).map fun (n, rest) => ((n, -(digitCount cs : Int)), rest)
  | _ => none

def exponent : Reader Int
  | c :: cs =>
    if c = 'e' ∨ c = 'E' then
      let (negative, rest) := sign cs
      (digits 10 0 rest).map fun (n, r) => (if negative then -(n : Int) else (n : Int), r)
    else none
  | [] => none

/-- `value * 10 ^ exponent` rounds to an infinite number of the 64-bit format -/
def isHuge (value : Nat) (exponent : Int) : Bool :=
  let size := (Nat.toDigits 10 value).length + exponent
  if value = 0 ∨ size < 300 then false
  else if 320 < size then true
  else
    let bound := (1 <<< 1024) - (1 <<< 970)
    if 0 ≤ exponent then bound ≤ value * Nat.pow 10 exponent.toNat
    else bound * Nat.pow 10 (-exponent).toNat ≤ value

/-- a number with a fraction or an exponent, or one of the words for the numbers without digits -/
def float (cs : List Char) : Option (List Char) :=
  let (negative, unsigned) := sign cs
  match (skip? "inf".toList unsigned).or (skip? "nan".toList unsigned) with
  | some rest => some rest
  | none =>
    match decimal unsigned with
    | none => none
    | some (n, rest) =>
      let finish (value : Nat) (e : Int) (rest : List Char) : Option (List Char) :=
        if isHuge value e && !negative then none else some rest
      match fraction n rest with
      | some ((value, e), rest) =>
        match rest with
        | 'e' :: _ | 'E' :: _ =>
          match exponent rest with
          | some (e', rest) => finish value (e + e') rest
          | none => none
        | _ => finish value e rest
      | none =>
        match exponent rest with
        | some (e, rest) => finish n e rest
        | none => none

/-! ## dates and times -/

/-- a number of exactly `n` digits -/
def exactDigits (n : Nat) (cs : List Char) : Option (Nat × List Char) :=
  let front := cs.take n
  if front.length = n ∧ front.all isDigit then
    some (front.foldl (fun acc c => 10 * acc + (c.toNat - 48)) 0, cs.drop n)
  else none

def daysInMonth (year month : Nat) : Nat :=
  if month = 2 then
    if year % 4 = 0 ∧ (year % 100 ≠ 0 ∨ year % 400 = 0) then 29 else 28
  else if month = 4 ∨ month = 6 ∨ month = 9 ∨ month = 11 then 30
  else 31

/-- a day of the calendar -/
def date (cs : List Char) : Option (List Char) := do
  let (year, cs) ← exactDigits 4 cs
  let cs ← skip? ['-'] cs
  let (month, cs) ← exactDigits 2 cs
  let cs ← skip? ['-'] cs
  let (day, cs) ← exactDigits 2 cs
  if 1 ≤ month ∧ month ≤ 12 ∧ 1 ≤ day ∧ day ≤ daysInMonth year month then some cs else none

/-- a time of the day to the second or finer -/
def time (cs : List Char) : Option (List Char) := do
  let (hour, cs) ← exactDigits 2 cs
  let cs ← skip? [':'] cs
  let (minute, cs) ← exactDigits 2 cs
  let cs ← skip? [':'] cs
  let (second, cs) ← exactDigits 2 cs
  if 23 < hour ∨ 59 < minute ∨ 60 < second then none
  else
    match cs with
    | '.' :: rest =>
      let tail := rest.dropWhile isDigit
      if tail.length = rest.length then none else some tail
    | _ => some cs

/-- the distance from universal time, if one is given -/
def offset (cs : List Char) : Option (List Char) :=
  match cs with
  | 'Z' :: rest | 'z' :: rest => some rest
  | '+' :: rest | '-' :: rest => do
    let (hour, rest) ← exactDigits 2 rest
    let rest ← skip? [':'] rest
    let (minute, rest) ← exactDigits 2 rest
    if 23 < hour ∨ 59 < minute then none else some rest
  | _ => some cs

/-- a date, a time, or both with an offset -/
def moment (cs : List Char) : Option (List Char) :=
  match date cs with
  | none => time cs
  | some rest =>
    match rest with
    | c :: behind =>
      if c = 'T' ∨ c = 't' ∨ c = ' ' then
        match time behind with
        | some rest' => offset rest'
        | none => some rest
      else some rest
    | [] => some []

end AccountLedger.Toml
