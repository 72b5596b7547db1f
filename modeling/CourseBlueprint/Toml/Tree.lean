/-!
# Trees of settings

A TOML text describes a tree of tables. How a table came to be says what may still be added to it: a
heading opens a table once, a key with dots adds to tables that such keys made, and a table written
as a value is complete.
-/

namespace CourseBlueprint.Toml

/-- How a table came to be. -/
inductive Origin where
  /-- By a heading of its own. -/
  | heading
  /-- On the way to a table with a heading. -/
  | passage
  /-- By a key with dots. -/
  | dotted
  /-- As a value. -/
  | inline
deriving DecidableEq, Repr

/-- A text, a list or a table. Values of other kinds are no settings. -/
inductive Node where
  | text (s : String)
  | list (items : List Node)
  | table (origin : Origin) (fields : List (String × Node))
deriving Inhabited

/-- The fields of a table, in the order in which they were added. -/
abbrev Fields := List (String × Node)

namespace Fields

/-- Puts a node in place of the one under a key. -/
def replace (key : String) (node : Node) : Fields → Fields
  | [] => []
  | (k, n) :: rest => if k = key then (k, node) :: rest else (k, n) :: replace key node rest

/-- Adds a node under a path of keys, through tables that such paths made. -/
def assign (node : Node) : List String → Fields → Option Fields
  | [], _ => none
  | [key], fields =>
    match fields.lookup key with
    | none => some (fields ++ [(key, node)])
    | some _ => none
  | key :: path, fields =>
    match fields.lookup key with
    | none => (assign node path []).map fun inner => fields ++ [(key, .table .dotted inner)]
    | some (.table .dotted inner) =>
      (assign node path inner).map fun inner => replace key (.table .dotted inner) fields
    | some _ => none

/-- Opens the table with a heading, which no other heading opened. -/
def openTable : List String → Fields → Option Fields
  | [], _ => none
  | [key], fields =>
    match fields.lookup key with
    | none => some (fields ++ [(key, .table .heading [])])
    | some (.table .passage inner) => some (replace key (.table .heading inner) fields)
    | some _ => none
  | key :: path, fields =>
    match fields.lookup key with
    | none => (openTable path []).map fun inner => fields ++ [(key, .table .passage inner)]
    | some (.table .inline _) => none
    | some (.table origin inner) =>
      (openTable path inner).map fun inner => replace key (.table origin inner) fields
    | some _ => none

/-- Adds a node under a path of keys within the table of a heading. -/
def assignIn (node : Node) (path : List String) : List String → Fields → Option Fields
  | [], fields => assign node path fields
  | key :: heading, fields =>
    match fields.lookup key with
    | some (.table origin inner) =>
      (assignIn node path heading inner).map fun inner => replace key (.table origin inner) fields
    | _ => none

end Fields

end CourseBlueprint.Toml
