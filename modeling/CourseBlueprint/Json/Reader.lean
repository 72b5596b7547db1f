import CourseBlueprint.Json.Document

/-!
# Reading JSON documents

`Document.ofChars?` reads a text that is one JSON document with blanks around it. It checks the
grammar only: whether a string names whole characters, a number fits and the nesting is not too
deep is asked when a document is read as a value. The reader is driven by a count of steps, of
which the length of the text and one more is enough.
-/

namespace CourseBlueprint.Json

/-- The four characters that may stand between the parts of a document. -/
def isSpace (c : Char) : Bool := c = ' ' || c = '\n' || c = '\t' || c = '\r'

/-- The text from its first character that is no space. -/
def skipSpace (cs : List Char) : List Char := cs.dropWhile isSpace

/-- The digits a text starts with, and the rest. -/
def readDigits : List Char → List Digit × List Char
  | [] => ([], [])
  | c :: rest =>
    if c.isDigit then
      let (ds, rest') := readDigits rest
      (digitOf c :: ds, rest')
    else ([], c :: rest)

/-- The unit with the given code below `0x10000`. -/
def unitOf (code : Nat) : TextUnit :=
  if 0xd800 ≤ code ∧ code < 0xe000 then .half (Fin.ofNat 2048 (code - 0xd800))
  else .char (Char.ofNat code)

/-- The character that a letter after a backslash names. -/
def shortEscape? (c : Char) : Option Char :=
  if c = '"' ∨ c = '\\' ∨ c = '/' then some c
  else if c = 'b' then some '\x08'
  else if c = 'f' then some '\x0c'
  else if c = 'n' then some '\n'
  else if c = 'r' then some '\r'
  else if c = 't' then some '\t'
  else none

/-- The units of a string literal after its opening quote, and the rest after the closing one. -/
def readUnits : List Char → Option (List TextUnit × List Char)
  | [] => none
  | '"' :: rest => some ([], rest)
  | '\\' :: 'u' :: a :: b :: c :: d :: rest =>
    (Text.Hex.read? [a, b, c, d]).bind fun code =>
      (readUnits rest).map fun (us, rest) => (unitOf code :: us, rest)
  | '\\' :: c :: rest =>
    (shortEscape? c).bind fun c =>
      (readUnits rest).map fun (us, rest) => (.char c :: us, rest)
  | c :: rest =>
    if c = '\\' ∨ c.toNat < 0x20 then none
    else (readUnits rest).map fun (us, rest) => (.char c :: us, rest)

/-- Digits without a needless zero in front. -/
def readWhole (cs : List Char) : Option (List Digit × List Char) :=
  match readDigits cs with
  | ([], _) => none
  | (d :: d' :: ds, rest) => if d.val = 0 then none else some (d :: d' :: ds, rest)
  | (ds, rest) => some (ds, rest)

/-- A point and digits, or nothing. -/
def readFraction : List Char → Option (List Digit × List Char)
  | '.' :: rest =>
    match readDigits rest with
    | ([], _) => none
    | (ds, rest) => some (ds, rest)
  | rest => some ([], rest)

/-- A letter, a sign if any, and digits; or nothing. -/
def readExponent : List Char → Option (Option Exponent × List Char)
  | c :: rest =>
    if c = 'e' ∨ c = 'E' then
      let (negative, rest) := match rest with
        | '-' :: rest => (true, rest)
        | '+' :: rest => (false, rest)
        | rest => (false, rest)
      match readDigits rest with
      | ([], _) => none
      | (ds, rest) => some (some ⟨negative, ds⟩, rest)
    else some (none, c :: rest)
  | [] => some (none, [])

/-- A numeral. -/
def readNumeral (cs : List Char) : Option (Numeral × List Char) := do
  let (negative, cs) := match cs with
    | '-' :: cs => (true, cs)
    | cs => (false, cs)
  let (whole, cs) ← readWhole cs
  let (fraction, cs) ← readFraction cs
  let (exponent, cs) ← readExponent cs
  return (⟨negative, whole, fraction, exponent⟩, cs)

mutual

/-- The document a text starts with, and the rest. -/
def readDocument : Nat → List Char → Option (Document × List Char)
  | 0, _ => none
  | steps + 1, cs =>
    match skipSpace cs with
    | 'n' :: 'u' :: 'l' :: 'l' :: rest => some (.null, rest)
    | 't' :: 'r' :: 'u' :: 'e' :: rest => some (.bool true, rest)
    | 'f' :: 'a' :: 'l' :: 's' :: 'e' :: rest => some (.bool false, rest)
    | '"' :: rest => (readUnits rest).map fun (us, rest) => (.string us, rest)
    | '[' :: rest =>
      match skipSpace rest with
      | ']' :: rest => some (.array [], rest)
      | rest => (readItems steps rest).map fun (items, rest) => (.array items, rest)
    | '{' :: rest =>
      match skipSpace rest with
      | '}' :: rest => some (.object [], rest)
      | rest => (readFields steps rest).map fun (fields, rest) => (.object fields, rest)
    | rest => (readNumeral rest).map fun (n, rest) => (.number n, rest)

/-- Items with commas between them, up to the closing bracket. -/
def readItems : Nat → List Char → Option (List Document × List Char)
  | 0, _ => none
  | steps + 1, cs =>
    (readDocument steps cs).bind fun (d, rest) =>
      match skipSpace rest with
      | ',' :: rest => (readItems steps rest).map fun (ds, rest) => (d :: ds, rest)
      | ']' :: rest => some ([d], rest)
      | _ => none

/-- Fields with commas between them, up to the closing brace. -/
def readFields : Nat → List Char → Option (List (List TextUnit × Document) × List Char)
  | 0, _ => none
  | steps + 1, cs =>
    match skipSpace cs with
    | '"' :: rest =>
      (readUnits rest).bind fun (key, rest) =>
        match skipSpace rest with
        | ':' :: rest =>
          (readDocument steps rest).bind fun (d, rest) =>
            match skipSpace rest with
            | ',' :: rest => (readFields steps rest).map fun (fs, rest) => ((key, d) :: fs, rest)
            | '}' :: rest => some ([(key, d)], rest)
            | _ => none
        | _ => none
    | _ => none

end

/-- The document that a text is. -/
def Document.ofChars? (cs : List Char) : Option Document :=
  match readDocument (2 * cs.length + 1) cs with
  | some (d, rest) => if (skipSpace rest).isEmpty then some d else none
  | none => none

/-- The document that a text is. -/
def Document.ofText? (text : String) : Option Document := ofChars? text.toList

end CourseBlueprint.Json
