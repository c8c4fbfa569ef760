import DocWire.Text.Unmarked

/-!
# Things shown for inspection

A text is shown between quotes: the quote, the backslash and the common control characters have an
escape of two characters, other characters that leave no mark of their own are shown by their
number. A record is shown as its name with its fields in braces.
-/

namespace DocWire.Text

/-- A character as it is shown between quotes. -/
def quoteChar (c : Char) : List Char :=
  if c = '\"' then ['\\', '\"']
  else if c = '\\' then ['\\', '\\']
  else if c = '\n' then ['\\', 'n']
  else if c = '\r' then ['\\', 'r']
  else if c = '\t' then ['\\', 't']
  else if c = '\x00' then ['\\', '0']
  else if isUnmarked c then ['\\', 'u', '\x7b'] ++ Nat.toDigits 16 c.toNat ++ ['\x7d']
  else [c]

/-- A text between quotes. -/
def quoted (s : String) : String :=
  String.ofList (['\"'] ++ s.toList.flatMap quoteChar ++ ['\"'])

/-- The fields of a record, already as text, under its name. -/
def record (name : String) (fields : List (String × String)) : String :=
  name ++ " \x7b " ++ ", ".intercalate (fields.map fun (k, v) => k ++ ": " ++ v) ++ " \x7d"

end DocWire.Text
