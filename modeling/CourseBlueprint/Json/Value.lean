import CourseBlueprint.Json.Number
import CourseBlueprint.Json.Reader

/-!
# JSON values

A `Json` is what a document says: the fields of an object are in increasing order of their keys, of
which the last field written counts; strings are texts; numbers are `Number`s. Not every document
is a value: nesting may be 127 deep, no string may hold half a surrogate pair, and no number may be
beyond the range.
-/

namespace CourseBlueprint

/-- A JSON value. -/
inductive Json where
  | null
  | bool (b : Bool)
  | number (n : Json.Number)
  | string (s : String)
  | array (items : List Json)
  | object (fields : List (String × Json))
deriving Inhabited

namespace Json

/-! ## Equality -/

mutual

/-- Equality of values. -/
def same : Json → Json → Bool
  | .null, .null => true
  | .bool a, .bool b => a == b
  | .number m, .number n => m.same n
  | .string s, .string t => s = t
  | .array xs, .array ys => sameItems xs ys
  | .object fs, .object gs => sameFields fs gs
  | _, _ => false

/-- Equality of lists of values. -/
def sameItems : List Json → List Json → Bool
  | [], [] => true
  | x :: xs, y :: ys => same x y && sameItems xs ys
  | _, _ => false

/-- Equality of fields in the same order. -/
def sameFields : List (String × Json) → List (String × Json) → Bool
  | [], [] => true
  | (j, x) :: xs, (k, y) :: ys => j = k && same x y && sameFields xs ys
  | _, _ => false

end

/-- Whether a value is the given text. -/
def isText (text : String) : Json → Bool
  | .string s => s = text
  | _ => false

/-- Whether a value is null. -/
def isNull : Json → Bool
  | .null => true
  | _ => false

/-! ## From documents -/

/-- Puts a field at its place among fields in increasing order of their keys. -/
def putField (key : String) (value : Json) : List (String × Json) → List (String × Json)
  | [] => [(key, value)]
  | (k, v) :: rest =>
    if key < k then (key, value) :: (k, v) :: rest
    else if key = k then (key, value) :: rest
    else (k, v) :: putField key value rest

/-- How deep values may be nested. -/
def maxDepth : Nat := 127

mutual

/-- The value of a document with at most the given number of arrays and objects in each other. -/
def ofDocument? (depth : Nat) : Document → Option Json
  | .null => some .null
  | .bool b => some (.bool b)
  | .number n => (Number.ofNumeral? n).map .number
  | .string us => (text? us).map .string
  | .array items =>
    match depth with
    | 0 => none
    | depth + 1 => (ofItems? depth items).map .array
  | .object fields =>
    match depth with
    | 0 => none
    | depth + 1 => (ofFields? depth [] fields).map .object

/-- The values of items. -/
def ofItems? (depth : Nat) : List Document → Option (List Json)
  | [] => some []
  | d :: rest =>
    (ofDocument? depth d).bind fun v => (ofItems? depth rest).map (v :: ·)

/-- The fields of an object, put one by one among those already there. -/
def ofFields? (depth : Nat) (acc : List (String × Json)) :
    List (List TextUnit × Document) → Option (List (String × Json))
  | [] => some acc
  | (key, d) :: rest =>
    (text? key).bind fun k =>
      (ofDocument? depth d).bind fun v => ofFields? depth (putField k v acc) rest

end

/-- The value that a text is. -/
def ofText? (text : String) : Option Json :=
  (Document.ofText? text).bind (ofDocument? maxDepth)

/-! ## To documents -/

mutual

/-- The document of a value. A binary64 has no written form here: none of what this library writes
holds one. -/
def toDocument? : Json → Option Document
  | .null => some .null
  | .bool b => some (.bool b)
  | .number (.whole n _) => some (.number (.ofInt n))
  | .number (.real _) => none
  | .string s => some (.text s)
  | .array items => (itemsToDocument? items).map .array
  | .object fields => (fieldsToDocument? fields).map .object

/-- The documents of items. -/
def itemsToDocument? : List Json → Option (List Document)
  | [] => some []
  | v :: rest => v.toDocument?.bind fun d => (itemsToDocument? rest).map (d :: ·)

/-- The fields of a document. -/
def fieldsToDocument? : List (String × Json) → Option (List (List TextUnit × Document))
  | [] => some []
  | (key, v) :: rest =>
    v.toDocument?.bind fun d => (fieldsToDocument? rest).map ((units key, d) :: ·)

end

end Json

end CourseBlueprint
