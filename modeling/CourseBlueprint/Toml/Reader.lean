import CourseBlueprint.Toml.Literal
import CourseBlueprint.Toml.Tree

/-!
# Reading TOML

`read?` reads the tree that a TOML text describes. It takes texts, lists and tables; a text with a
value of another kind, such as a number, or with a table in a list of tables, is refused as a whole,
because no setting has such a value.
-/

namespace CourseBlueprint.Toml

/-- The text after spaces and tabs. -/
def skipGap (cs : List Char) : List Char := cs.dropWhile isGap

/-- The text after a comment, if it starts with one. -/
def skipComment : List Char → List Char
  | '#' :: rest => rest.dropWhile isPlain
  | cs => cs

/-- The text after the rest of a line, on which nothing but a comment may stand. -/
def endLine? (cs : List Char) : Option (List Char) :=
  match skipComment (skipGap cs) with
  | [] => some []
  | cs => lineEnd? cs

/-- The text after blanks, comments and line ends. -/
def skipBlankLines : Nat → List Char → List Char
  | 0, cs => cs
  | steps + 1, cs =>
    match skipGap cs with
    | [] => []
    | cs =>
      match endLine? cs with
      | some rest => skipBlankLines steps rest
      | none => cs

/-- The text from the next part of a list on. -/
def skipToPart (cs : List Char) : List Char := skipBlankLines (cs.length + 1) cs

/-! ## Keys -/

/-- What a key without quotes may hold. -/
def isBare (c : Char) : Bool :=
  ('a' ≤ c && c ≤ 'z') || ('A' ≤ c && c ≤ 'Z') || ('0' ≤ c && c ≤ '9') || c = '-' || c = '_'

/-- A key without dots. -/
def key? (cs : List Char) : Option (String × List Char) :=
  match cs.takeWhile isBare with
  | [] => string? false cs
  | ds => some (String.ofList ds, cs.drop ds.length)

/-- Keys with dots between them. -/
def path? : Nat → List Char → Option (List String × List Char)
  | 0, _ => none
  | steps + 1, cs =>
    (key? cs).bind fun (key, rest) =>
      match skipGap rest with
      | '.' :: rest => (path? steps (skipGap rest)).map fun (keys, rest) => (key :: keys, rest)
      | rest => some ([key], rest)

/-- The path that a text starts with, and the rest after blanks. -/
def readPath (cs : List Char) : Option (List String × List Char) := path? (cs.length + 1) cs

/-- A path, the sign after it, and the rest after blanks. -/
def readAssigned (cs : List Char) : Option (List String × List Char) :=
  (readPath cs).bind fun (path, rest) =>
    match rest with
    | '=' :: rest => some (path, skipGap rest)
    | _ => none

/-! ## Values -/

mutual

/-- The value that a text starts with. -/
def value? : Nat → List Char → Option (Node × List Char)
  | 0, _ => none
  | steps + 1, cs =>
    match cs with
    | '[' :: rest => (items? steps (skipToPart rest)).map fun (items, rest) => (.list items, rest)
    | '\x7b' :: rest =>
      match skipGap rest with
      | '\x7d' :: rest => some (.table .inline [], rest)
      | rest => (fields? steps [] rest).map fun (fields, rest) => (.table .inline fields, rest)
    | cs => (string? true cs).map fun (s, rest) => (.text s, rest)

/-- Items with commas between them and perhaps one at the end, up to the closing bracket. -/
def items? : Nat → List Char → Option (List Node × List Char)
  | 0, _ => none
  | steps + 1, cs =>
    match cs with
    | ']' :: rest => some ([], rest)
    | cs =>
      (value? steps cs).bind fun (v, rest) =>
        match skipToPart rest with
        | ',' :: rest => (items? steps (skipToPart rest)).map fun (vs, rest) => (v :: vs, rest)
        | ']' :: rest => some ([v], rest)
        | _ => none

/-- Fields with commas between them, up to the closing brace. -/
def fields? : Nat → Fields → List Char → Option (Fields × List Char)
  | 0, _, _ => none
  | steps + 1, fields, cs =>
    (readAssigned cs).bind fun (path, rest) =>
      (value? steps rest).bind fun (v, rest) =>
        (Fields.assign v path fields).bind fun fields =>
          match skipGap rest with
          | ',' :: rest => fields? steps fields (skipGap rest)
          | '\x7d' :: rest => some (fields, rest)
          | _ => none

end

/-- The value that a text starts with. -/
def readValue (cs : List Char) : Option (Node × List Char) := value? (2 * cs.length + 1) cs

/-! ## Lines -/

/-- Reads lines below a heading into a tree. -/
def lines? : Nat → List String → Fields → List Char → Option Fields
  | 0, _, _, _ => none
  | steps + 1, heading, tree, cs =>
    match skipToPart cs with
    | [] => some tree
    | '[' :: rest =>
      (readPath (skipGap rest)).bind fun (heading, rest) =>
        match rest with
        | ']' :: rest =>
          (endLine? rest).bind fun rest =>
            (Fields.openTable heading tree).bind fun tree => lines? steps heading tree rest
        | _ => none
    | cs =>
      (readAssigned cs).bind fun (path, rest) =>
        (readValue rest).bind fun (v, rest) =>
          (endLine? rest).bind fun rest =>
            (Fields.assignIn v path heading tree).bind fun tree => lines? steps heading tree rest

/-- The tree that a text describes; a byte order mark at its start is skipped. -/
def read? (text : String) : Option Fields :=
  let cs := match text.toList with
    | '\ufeff' :: cs => cs
    | cs => cs
  lines? (cs.length + 1) [] [] cs

end CourseBlueprint.Toml
