import CourseBlueprint.Text.Hex

/-!
# String literals of TOML

A basic string stands between double quotes and may hold escapes; a literal string stands between
single quotes and holds what it shows. Three quotes instead of one let a string run over several
lines. A line end is one line feed, however it is written.
-/

namespace CourseBlueprint.Toml

/-- What may stand in a string as it is: tabs and all characters but controls. -/
def isPlain (c : Char) : Bool := c = '\t' || (0x20 ≤ c.toNat && c.toNat ≠ 0x7f)

/-- Spaces and tabs. -/
def isGap (c : Char) : Bool := c = ' ' || c = '\t'

/-- The text after a line end, if it starts with one. -/
def lineEnd? : List Char → Option (List Char)
  | '\n' :: rest => some rest
  | '\r' :: '\n' :: rest => some rest
  | _ => none

/-- The character with a code, if there is one. -/
def charOf? (code : Nat) : Option Char :=
  if code.isValidChar then some (Char.ofNat code) else none

/-- The character that an escape after its backslash names, and the rest. -/
def escape? : List Char → Option (Char × List Char)
  | 'b' :: rest => some ('\x08', rest)
  | 't' :: rest => some ('\t', rest)
  | 'n' :: rest => some ('\n', rest)
  | 'f' :: rest => some ('\x0c', rest)
  | 'r' :: rest => some ('\r', rest)
  | '"' :: rest => some ('"', rest)
  | '\\' :: rest => some ('\\', rest)
  | 'u' :: rest => code? 4 rest
  | 'U' :: rest => code? 8 rest
  | _ => none
where
  /-- A character by its code in a fixed number of digits. -/
  code? (count : Nat) (cs : List Char) : Option (Char × List Char) :=
    if (cs.take count).length < count then none
    else (Text.Hex.read? (cs.take count)).bind fun code =>
      (charOf? code).map fun c => (c, cs.drop count)

/-- The text after blanks and line ends. -/
def skipLines : Nat → List Char → List Char
  | 0, cs => cs
  | steps + 1, cs =>
    match lineEnd? (cs.dropWhile isGap) with
    | some rest => skipLines steps rest
    | none => cs.dropWhile isGap

/-- The text after a backslash that ends a line, with the blank lines that follow. -/
def continued? (cs : List Char) : Option (List Char) :=
  (lineEnd? (cs.dropWhile isGap)).map fun rest => skipLines rest.length rest

/-- A basic string after its opening quote. -/
def basic : Nat → List Char → Option (List Char × List Char)
  | 0, _ => none
  | steps + 1, cs =>
    match cs with
    | '"' :: rest => some ([], rest)
    | '\\' :: rest =>
      (escape? rest).bind fun (c, rest) => (basic steps rest).map fun (s, rest) => (c :: s, rest)
    | c :: rest =>
      if isPlain c then (basic steps rest).map fun (s, rest) => (c :: s, rest) else none
    | [] => none

/-- A literal string after its opening quote. -/
def literal : List Char → Option (List Char × List Char)
  | [] => none
  | '\'' :: rest => some ([], rest)
  | c :: rest => if isPlain c then (literal rest).map fun (s, rest) => (c :: s, rest) else none

/-- The quotes that a text starts with, five at most. -/
def quotes (quote : Char) (cs : List Char) : Nat := ((cs.take 5).takeWhile (· = quote)).length

/-- A string over several lines after its opening quotes; a backslash starts an escape if there are
escapes. It ends at three quotes, before which there can be two more of its own. -/
def multiline (quote : Char) (escapes : Bool) : Nat → List Char → Option (List Char × List Char)
  | 0, _ => none
  | steps + 1, cs =>
    let count := quotes quote cs
    if 3 ≤ count then some (List.replicate (count - 3) quote, cs.drop count)
    else match lineEnd? cs with
      | some rest => (multiline quote escapes steps rest).map fun (s, rest) => ('\n' :: s, rest)
      | none =>
        match cs with
        | [] => none
        | c :: rest =>
          if c = '\\' && escapes then
            match continued? rest with
            | some rest => multiline quote escapes steps rest
            | none => (escape? rest).bind fun (c, rest) =>
              (multiline quote escapes steps rest).map fun (s, rest) => (c :: s, rest)
          else if isPlain c then
            (multiline quote escapes steps rest).map fun (s, rest) => (c :: s, rest)
          else none

/-- A text without a line end at its start. -/
def afterFirstLine (cs : List Char) : List Char := (lineEnd? cs).getD cs

/-- The string literal that a text starts with, over several lines only if that is allowed. -/
def string? (lines : Bool) (cs : List Char) : Option (String × List Char) :=
  let found := match cs with
    | '"' :: '"' :: '"' :: rest =>
      if lines then multiline '"' true (rest.length + 1) (afterFirstLine rest)
      else some ([], '"' :: rest)
    | '\'' :: '\'' :: '\'' :: rest =>
      if lines then multiline '\'' false (rest.length + 1) (afterFirstLine rest)
      else some ([], '\'' :: rest)
    | '"' :: rest => basic (rest.length + 1) rest
    | '\'' :: rest => literal rest
    | _ => none
  found.map fun (s, rest) => (String.ofList s, rest)

end CourseBlueprint.Toml
