import CourseBlueprint.Text.Printable

/-!
# Quoted texts

How a configured text is shown: in double quotes, with quotes, backslashes and all that does not
print written as escapes, so that the reader sees where it ends and what it holds.
-/

namespace CourseBlueprint.Text

/-- An escape by code, in as many hexadecimal digits as it takes. -/
def escapeByCode (c : Char) : List Char :=
  '\\' :: 'u' :: '\x7b' :: (Nat.toDigits 16 c.toNat ++ ['\x7d'])

/-- A character as it stands between quotes. -/
def quoteChar (c : Char) : List Char :=
  if c = '"' then ['\\', '"']
  else if c = '\\' then ['\\', '\\']
  else if c = '\t' then ['\\', 't']
  else if c = '\r' then ['\\', 'r']
  else if c = '\n' then ['\\', 'n']
  else if c.toNat = 0 then ['\\', '0']
  else if isPrintable c then [c]
  else escapeByCode c

/-- A text in quotes. -/
def quoted (text : String) : String :=
  String.ofList ('"' :: (text.toList.flatMap quoteChar ++ ['"']))

/-- Texts in quotes, in brackets with commas between them. -/
def quotedList (texts : List String) : String :=
  "[" ++ ", ".intercalate (texts.map quoted) ++ "]"

end CourseBlueprint.Text
