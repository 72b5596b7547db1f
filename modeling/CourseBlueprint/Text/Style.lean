/-!
# Styled text

A `Style` marks a text for a terminal by escape sequences around it. A `Palette` says whether styles
are used at all; a plain text has none.
-/

namespace CourseBlueprint.Text

/-- How a text is marked. -/
inductive Style where
  | bold
  | dim
  | red
  | green
  | yellow
deriving DecidableEq, Repr

/-- Whether styles are used. -/
inductive Palette where
  | plain
  | colored
deriving DecidableEq, Repr

namespace Style

/-- The number that a terminal knows a style by. -/
def code : Style → String
  | bold => "1"
  | dim => "2"
  | red => "31"
  | green => "32"
  | yellow => "33"

/-- Marks a text, if styles are used. -/
def apply (s : Style) (p : Palette) (text : String) : String :=
  match p with
  | .plain => text
  | .colored => "\x1b[" ++ s.code ++ "m" ++ text ++ "\x1b[0m"

end Style

/-- Names with commas between them. -/
def join (names : List String) : String := ", ".intercalate names

/-- Names with commas between them, or a dash if there is none. -/
def joinOrDash (names : List String) : String := if names.isEmpty then "-" else join names

/-- A text with blanks after it up to a width. -/
def padTo (width : Nat) (text : String) : String :=
  text ++ String.ofList (List.replicate (width - text.length) ' ')

end CourseBlueprint.Text
