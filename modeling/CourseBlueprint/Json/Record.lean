import CourseBlueprint.Json.Reader

/-!
# Records in documents

A record is written as an object, or as an array of its fields in their order. Fields of an object
that the record does not have are ignored, whatever they hold; a field given twice is an error. A
field may have a default for when it is left out, and a field that may be null may be left out of an
object, but not of an array.
-/

namespace CourseBlueprint.Json

/-- The fields that were found, and whether they were found by name. -/
structure Record where
  fields : List (String × Document)
  byName : Bool

namespace Record

/-- The fields of an object with their names; none if a name is no text. -/
def named? : List (List TextUnit × Document) → Option (List (String × Document))
  | [] => some []
  | (key, d) :: rest =>
    (text? key).bind fun name => (named? rest).map ((name, d) :: ·)

/-- The field of a name. -/
def find? (r : Record) (name : String) : Option Document := r.fields.lookup name

/-- The record with the given field names that a document writes. -/
def ofDocument? (names : List String) : Document → Option Record
  | .object fields =>
    (named? fields).bind fun fields =>
      if names.all fun name => fields.countP (fun f => f.1 = name) ≤ 1 then some ⟨fields, true⟩
      else none
  | .array items =>
    if items.length ≤ names.length then some ⟨names.zip items, false⟩ else none
  | _ => none

variable {α : Type}

/-- A field that must be there. -/
def required (r : Record) (name : String) (read : Document → Option α) : Option α :=
  (r.find? name).bind read

/-- A field that has a value when it is left out. -/
def withDefault (r : Record) (name : String) (default : α) (read : Document → Option α) :
    Option α :=
  match r.find? name with
  | none => some default
  | some d => read d

/-- A field that may be null. -/
def nullable (r : Record) (name : String) (read : Document → Option α) : Option (Option α) :=
  match r.find? name with
  | none => if r.byName then some none else none
  | some .null => some none
  | some d => (read d).map some

end Record

namespace Document

/-- A truth value. -/
def bool? : Document → Option Bool
  | .bool b => some b
  | _ => none

/-- A text. -/
def text? : Document → Option String
  | .string us => Json.text? us
  | _ => none

/-- One of several names: a text, or an object with the name as its only key and null as its
value. -/
def name? : Document → Option String
  | .string us => Json.text? us
  | .object [(key, .null)] => Json.text? key
  | _ => none

/-- A list. -/
def list? {α : Type} (read : Document → Option α) : Document → Option (List α)
  | .array items => items.mapM read
  | _ => none

/-- Entries of an object. -/
def entries? {α β : Type} (readKey : String → Option α) (read : Document → Option β) :
    Document → Option (List (α × β))
  | .object fields => fields.mapM fun (key, d) => do
      let k ← readKey (← Json.text? key)
      let v ← read d
      return (k, v)
  | _ => none

end Document

end CourseBlueprint.Json
