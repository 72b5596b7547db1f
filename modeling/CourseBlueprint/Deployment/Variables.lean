import CourseBlueprint.Failure

/-!
# Variables of the environment

The environment gives names to texts. `dataPath` says where the data directory is: where the user
says, or else where the environment says, or else in the usual place below the home directory.
-/

namespace CourseBlueprint

/-- The names that the environment gives to texts. -/
abbrev Variables := List (String × String)

namespace Variables

/-- The text of a name, unless it is empty. -/
def nonempty? (vars : Variables) (name : String) : Option String :=
  (vars.lookup name).filter fun text => !text.isEmpty

/-- The path of something in a directory. -/
def joinPath (directory name : String) : String :=
  if directory.isEmpty || directory.endsWith "/" then directory ++ name
  else directory ++ "/" ++ name

/-- The directory in which programs keep the user's data. -/
def userData? (vars : Variables) : Option String :=
  match (vars.lookup "XDG_DATA_HOME").filter fun path => path.startsWith "/" with
  | some path => some path
  | none => (vars.nonempty? "HOME").map fun home => joinPath home ".local/share"

/-- The path of the data directory, given the choice of the user. -/
def dataPath (vars : Variables) (chosen : Option String) : Result String :=
  match chosen with
  | some path => .ok path
  | none =>
    match vars.nonempty? "BLUEPRINT_DATA" with
    | some path => .ok path
    | none => .ofOption .noDataDirectory (vars.userData?.map fun path => joinPath path "blueprint")

end Variables

end CourseBlueprint
