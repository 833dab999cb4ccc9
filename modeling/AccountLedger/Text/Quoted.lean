import AccountLedger.Text.Hidden
/-!
# Quoted text

How a message shows a text it was given: between double quotes, so that its limits and every
character can be seen.  A quote and a backslash are written after a backslash, the zero, tab, line
feed and carriage return characters by a letter, and any other hidden character by its code point.
-/

namespace AccountLedger.Text

/-- one character of a quoted text -/
def quotedChar (c : Char) : List Char :=
  if c = '"' then ['\\', '"']
  else if c = '\\' then ['\\', '\\']
  else if c = '\n' then ['\\', 'n']
  else if c = '\r' then ['\\', 'r']
  else if c = '\t' then ['\\', 't']
  else if c.toNat = 0 then ['\\', '0']
  else if isHidden c then ['\\', 'u', '\x7b'] ++ Nat.toDigits 16 c.toNat ++ ['\x7d']
  else [c]

/-- the text between quotes -/
def quoted (s : String) : String :=
  String.ofList ('"' :: s.toList.flatMap quotedChar ++ ['"'])

end AccountLedger.Text
