import SmartCard.Text.Unseen
/-!
# Quoted text

A text between double quotes. Quotes and backslashes in it are written as
escapes, and so is every character that would not be seen as it is: control
characters, blanks other than the space, marks that combine with the
character before them, and characters that only steer the layout, stand for
private use or are not assigned (`isSeen`). Each character is written without
regard to its neighbours, so a mark is an escape wherever it stands.
-/

namespace SmartCard

namespace Text

/-- The hexadecimal digits of a number, without leading zeros. -/
def hexDigits (n : Nat) : List Char := Nat.toDigits 16 n

/-- A character as it stands between quotes. -/
def escape (c : Char) : List Char :=
  if c = '"' then ['\\', '"']
  else if c = '\\' then ['\\', '\\']
  else if c = '\t' then ['\\', 't']
  else if c = '\n' then ['\\', 'n']
  else if c = '\r' then ['\\', 'r']
  else if c = '\x00' then ['\\', '0']
  else if isSeen c then [c]
  else ['\\', 'u', '\x7b'] ++ hexDigits c.toNat ++ ['\x7d']

/-- The text between quotes. -/
def quoted (text : String) : String :=
  String.ofList ('"' :: text.toList.flatMap escape ++ ['"'])

end Text

end SmartCard
