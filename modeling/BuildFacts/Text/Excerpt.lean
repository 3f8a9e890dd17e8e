import BuildFacts.Text.Unprintable

/-!
# Excerpts in messages

A message shows a text between double quotes.  Quotes and backslashes get a
backslash, the usual control characters their letter, and every other
character that is not printable its code point in braces.
-/

namespace BuildFacts.Text

/-- One character of an excerpt. -/
def excerptChar (c : Char) : List Char :=
  if c = '"' then ['\\', '"']
  else if c = '\\' then ['\\', '\\']
  else if c = '\n' then ['\\', 'n']
  else if c = '\r' then ['\\', 'r']
  else if c = '\t' then ['\\', 't']
  else if c = '\x00' then ['\\', '0']
  else if c.toNat < 0x20 || c.toNat = 0x7F || (0x80 ≤ c.toNat && isUnprintable c) then
    '\\' :: 'u' :: '\x7b' :: Nat.toDigits 16 c.toNat ++ ['\x7d']
  else [c]

/-- A text as a message shows it. -/
def excerpt (text : String) : String :=
  String.ofList ('"' :: text.toList.flatMap excerptChar ++ ['"'])

end BuildFacts.Text
