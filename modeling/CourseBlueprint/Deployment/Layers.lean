import CourseBlueprint.Deployment.Variables
import CourseBlueprint.Settings
import CourseBlueprint.Text.Decimal
import CourseBlueprint.Toml.Reader

/-!
# Layers of configuration

The configuration of a deployment is that of its file, with what the environment says over it. A
key that does not exist or a value of the wrong kind makes the whole file invalid, also where the
environment would have the last word.
-/

namespace CourseBlueprint

/-! ## The file -/

namespace Toml.Node

/-- A list of texts. -/
def texts? : Node → Option (List String)
  | list items => items.mapM fun
    | text s => some s
    | _ => none
  | _ => none

/-- The key that a table starts with if it stands for a point in time. -/
def timeKey : String := "$__toml_private_datetime"

/-- A table of values of one kind. One that stands for a point in time is no table. -/
def entries? {α : Type} (read : Node → Option α) : Node → Option (Dict α)
  | table _ fields =>
    if (fields.head?.map Prod.fst) = some timeKey then none
    else (fields.mapM fun (e : String × Node) => (read e.2).map fun a => (e.1, a)).map Dict.ofList
  | _ => none

end Toml.Node

namespace Config

/-- The configuration with one more choice. -/
def choose (c : Config) : String × Toml.Node → Option Config
  | ("migration_id_prefix", .text marker) => some { c with marker := marker }
  | ("restriction_exempt_kinds", node) =>
    node.texts?.map fun kinds => { c with exemptKinds := some kinds }
  | ("extra_columns", node) =>
    (node.entries? (Toml.Node.entries? Toml.Node.texts?)).map fun columns =>
      { c with extraColumns := some columns }
  | _ => none

/-- The configuration of a tree of settings. -/
def ofTree? (tree : Toml.Fields) : Option Config := tree.foldlM choose usual

/-- The configuration that a text describes. -/
def ofToml? (text : String) : Option Config := (Toml.read? text).bind ofTree?

/-! ## The environment -/

/-- The small form of a letter. The kelvin sign is the only letter outside ASCII whose small form is
an ASCII letter, so this tells the names of choices from all others. -/
def small (c : Char) : Char := if c = '\u212a' then 'k' else c.toLower

/-- The path of the choice that a variable makes, if its name is that of one. -/
def pathOf? (name : String) : Option (List String) :=
  let start := "BLUEPRINT__".toList
  if start.isPrefixOf name.toList then
    some ((String.ofList ((name.toList.drop start.length).map small)).splitOn "__")
  else none

/-- A text without the sign it may start with, and whether that is a minus. -/
def unsigned : List Char → Bool × List Char
  | '+' :: cs => (false, cs)
  | '-' :: cs => (true, cs)
  | cs => (false, cs)

/-- Whether a text is taken for a truth value. -/
def isBool (text : String) : Bool := ["true", "false"].contains text.toLower

/-- Whether a text is a whole number of 64 bits with a sign. -/
def isInteger (text : String) : Bool :=
  let (negative, digits) := unsigned text.toList
  let most := if negative then 9223372036854775808 else 9223372036854775807
  !digits.isEmpty && digits.all Char.isDigit && decide (Text.Decimal.value digits ≤ most)

/-- Whether a text is a decimal number with a point, and perhaps an exponent. -/
def isDecimal (text : String) : Bool :=
  let (whole, rest) := Text.Decimal.split (unsigned text.toList).2
  match rest with
  | '.' :: rest =>
    let (fraction, rest) := Text.Decimal.split rest
    !(whole.isEmpty && fraction.isEmpty) && match rest with
      | [] => true
      | e :: rest =>
        let digits := (unsigned rest).2
        (e = 'e' || e = 'E') && !digits.isEmpty && digits.all Char.isDigit
  | _ => false

/-- What a variable says: a text, or none if it is taken for a truth value or a number. -/
def textOf? (text : String) : Option String :=
  if isBool text || isInteger text || isDecimal text then none else some text

/-- What the environment says under every first name: a text, or none if it says anything else. Of
two variables with one first name the later counts, and a longer name makes a table of it. -/
def said (vars : Variables) : Dict (Option String) :=
  vars.foldl (fun d (name, text) =>
    match pathOf? name with
    | some [key] => d.put key (textOf? text)
    | some (key :: _) => d.put key none
    | _ => d) ∅

/-- The configuration with what the environment says; none if that is of the wrong kind. Only the
marker can be given by a variable, because the other choices are no texts. -/
def overrideAll (c : Config) (vars : Variables) : Option Config :=
  let d := said vars
  if d.contains "restriction_exempt_kinds" || d.contains "extra_columns" then none
  else match d.get? "migration_id_prefix" with
    | none => some c
    | some text => text.map fun marker => { c with marker := marker }

/-! ## Both -/

/-- The configuration of a deployment with the text of its file, if there is one. Where there is no
file, variables of the wrong kind leave the usual configuration. -/
def load (file : Option String) (vars : Variables) : Result Config :=
  match file with
  | none => .ok ((usual.overrideAll vars).getD usual)
  | some text =>
    .ofOption .invalidConfigFile ((ofToml? text).bind fun c => c.overrideAll vars)

end Config

end CourseBlueprint
