import CourseBlueprint.Text.Hex

/-!
# JSON documents

A `Document` is JSON as it is written: an object lists its fields in the order of the text, also
those that repeat a key; a number is its numeral; a string is a list of `TextUnit`s, because an
escape can name half of a surrogate pair. `compact` and `pretty` write documents.
-/

namespace CourseBlueprint.Json

/-- What one step of a string literal names: a character, or the code `0xd800 + i` of half a
pair. -/
inductive TextUnit where
  | char (c : Char)
  | half (i : Fin 2048)
deriving DecidableEq

/-- A decimal digit. -/
abbrev Digit := Fin 10

/-- The exponent part of a numeral. -/
structure Exponent where
  negative : Bool
  digits : List Digit
deriving DecidableEq

/-- A number as it is written; the fraction has no digits if there is no fraction part. -/
structure Numeral where
  negative : Bool
  whole : List Digit
  fraction : List Digit
  exponent : Option Exponent
deriving DecidableEq

/-- JSON as it is written. -/
inductive Document where
  | null
  | bool (b : Bool)
  | number (n : Numeral)
  | string (units : List TextUnit)
  | array (items : List Document)
  | object (fields : List (List TextUnit × Document))
deriving Inhabited

/-! ## Building documents -/

/-- The units of a text. -/
def units (s : String) : List TextUnit := s.toList.map .char

/-- The document of a text. -/
def Document.text (s : String) : Document := .string (units s)

/-- The digit of a character. -/
def digitOf (c : Char) : Digit := Fin.ofNat 10 (c.toNat - '0'.toNat)

/-- The numeral of an integer. -/
def Numeral.ofInt (n : Int) : Numeral :=
  ⟨n < 0, (Nat.toDigits 10 n.natAbs).map digitOf, [], none⟩

/-- The document of a number. -/
def Document.nat (n : Nat) : Document := .number (.ofInt n)

/-- The document of a list of texts. -/
def Document.texts (ss : List String) : Document := .array (ss.map .text)

/-- The document of fields with the given keys. -/
def Document.record (fields : List (String × Document)) : Document :=
  .object (fields.map fun (key, d) => (units key, d))

/-- The document of a value that may be absent. -/
def Document.option {α : Type} (write : α → Document) : Option α → Document
  | none => .null
  | some a => write a

/-! ## Reading text units -/

/-- The character of two halves, if they are a high and a low one. -/
def pair? (high low : Fin 2048) : Option Char :=
  if high.val < 1024 ∧ 1024 ≤ low.val then
    some (Char.ofNat (0x10000 + 1024 * high.val + (low.val - 1024)))
  else none

/-- The characters that units name; none if a half stands alone. -/
def chars? : List TextUnit → Option (List Char)
  | [] => some []
  | .char c :: rest => (chars? rest).map (c :: ·)
  | .half high :: .half low :: rest =>
    (pair? high low).bind fun c => (chars? rest).map (c :: ·)
  | .half _ :: _ => none

/-- The text that units name; none if a half stands alone. -/
def text? (us : List TextUnit) : Option String := (chars? us).map String.ofList

/-! ## Writing -/

/-- The character of a digit. -/
def digitChar (d : Digit) : Char := Char.ofNat ('0'.toNat + d.val)

/-- An escape by code. -/
def escapeCode (code : Nat) : List Char := '\\' :: 'u' :: Text.Hex.write 4 code

/-- Quotes, backslashes and control characters are escaped, the commonest by a letter. -/
def writeUnit : TextUnit → List Char
  | .half i => escapeCode (0xd800 + i.val)
  | .char c =>
    if c = '"' then ['\\', '"']
    else if c = '\\' then ['\\', '\\']
    else if c = '\x08' then ['\\', 'b']
    else if c = '\x0c' then ['\\', 'f']
    else if c = '\n' then ['\\', 'n']
    else if c = '\r' then ['\\', 'r']
    else if c = '\t' then ['\\', 't']
    else if c.toNat < 0x20 then escapeCode c.toNat
    else [c]

/-- A string literal. -/
def writeString (us : List TextUnit) : List Char :=
  '"' :: (us.flatMap writeUnit ++ ['"'])

/-- A numeral. -/
def Numeral.write (n : Numeral) : List Char :=
  (if n.negative then ['-'] else []) ++ n.whole.map digitChar ++
    (if n.fraction = [] then [] else '.' :: n.fraction.map digitChar) ++
    match n.exponent with
    | none => []
    | some e => 'e' :: ((if e.negative then ['-'] else []) ++ e.digits.map digitChar)

/-- `true` or `false`. -/
def writeBool (b : Bool) : List Char := if b then "true".toList else "false".toList

mutual

/-- The document without any blank between its parts. -/
def Document.compact : Document → List Char
  | .null => "null".toList
  | .bool b => writeBool b
  | .number n => n.write
  | .string us => writeString us
  | .array items => '[' :: (compactItems items ++ [']'])
  | .object fields => '{' :: (compactFields fields ++ ['}'])

/-- Items with commas between them. -/
def compactItems : List Document → List Char
  | [] => []
  | [d] => d.compact
  | d :: rest => d.compact ++ ',' :: compactItems rest

/-- Fields with commas between them. -/
def compactFields : List (List TextUnit × Document) → List Char
  | [] => []
  | [(key, d)] => writeString key ++ ':' :: d.compact
  | (key, d) :: rest => writeString key ++ ':' :: (d.compact ++ ',' :: compactFields rest)

end

/-- A new line, two blanks for each level deep. -/
def newline (level : Nat) : List Char := '\n' :: List.replicate (2 * level) ' '

mutual

/-- The document with each item and field on a line of its own, from the given level on. -/
def Document.prettyAt (level : Nat) : Document → List Char
  | .null => "null".toList
  | .bool b => writeBool b
  | .number n => n.write
  | .string us => writeString us
  | .array [] => ['[', ']']
  | .array (d :: rest) => '[' :: (prettyItems (level + 1) (d :: rest) ++ newline level ++ [']'])
  | .object [] => ['{', '}']
  | .object (f :: rest) => '{' :: (prettyFields (level + 1) (f :: rest) ++ newline level ++ ['}'])

/-- Items on lines of their own, with commas between them. -/
def prettyItems (level : Nat) : List Document → List Char
  | [] => []
  | [d] => newline level ++ d.prettyAt level
  | d :: rest => newline level ++ d.prettyAt level ++ ',' :: prettyItems level rest

/-- Fields on lines of their own, with commas between them. -/
def prettyFields (level : Nat) : List (List TextUnit × Document) → List Char
  | [] => []
  | [(key, d)] => newline level ++ writeString key ++ ':' :: ' ' :: d.prettyAt level
  | (key, d) :: rest =>
    newline level ++ writeString key ++ ':' :: ' ' ::
      (d.prettyAt level ++ ',' :: prettyFields level rest)

end

/-- The document with each item and field on a line of its own. -/
def Document.pretty (d : Document) : List Char := d.prettyAt 0

end CourseBlueprint.Json
