import CourseBlueprint.CommandLine.Arguments
import CourseBlueprint.Deployment
import CourseBlueprint.Report.Document
import CourseBlueprint.Report.Lines
import CourseBlueprint.Store.FileTree

/-!
# Answers on the command line

What the program prints and the code it ends with. A report is printed as lines of text or as JSON;
a failure is told on the second stream, and so is a rejected edit after its report. `run` is the
whole program, as a function of its arguments, the environment and the files.
-/

namespace CourseBlueprint.CommandLine

/-- The end of a run: its code and what is printed on the two streams. -/
structure Answer where
  code : Nat
  printed : String
  told : String
deriving DecidableEq

namespace Answer

/-- Lines with an end each. -/
def ofLines (lines : List String) : String := String.join (lines.map fun line => line ++ "\n")

/-- A run that ends well. -/
def done (lines : List String) : Answer := ⟨0, ofLines lines, ""⟩

/-- A run that ends with a message, after what was printed. -/
def failed (printed message : String) : Answer := ⟨1, printed, ofLines ["Error: " ++ message]⟩

/-- A report as it is printed. -/
def print (json : Bool) (r : Report) : String :=
  if json then ofLines [String.ofList r.toDocument.pretty] else ofLines (r.lines .plain)

/-- The answer to a request. -/
def ofResult (json : Bool) : Result Report → Answer
  | .error f => failed "" f.message
  | .ok r =>
    match r.rejected with
    | some rejection => failed (print json r) rejection.message
    | none => ⟨0, print json r, ""⟩

/-- The answer to arguments that make no sense. -/
def refused : Answer :=
  ⟨2, "", ofLines ["error: invalid arguments", "", "For more information, try '--help'."]⟩

/-- The name of the program and its version. -/
def version : Answer := done ["blueprint 0.4.0"]

/-- How the program is used. -/
def usage : Answer := done
  ["Lock blueprint course content and track what child courses change",
   "",
   "Usage: blueprint [OPTIONS] <COMMAND>",
   "",
   "Commands:",
   "  template init <COURSE>",
   "  subscribe <MASTER_COURSE> <CHILD_COURSE>",
   "  sync <SUBSCRIPTION> <KIND> <ID> [ASSIGNMENTS]...",
   "  lock <COURSE> <KIND> <ID> <CATEGORIES>...",
   "  unlock <COURSE> <KIND> <ID> <CATEGORIES>...",
   "  show <COURSE> <KIND> <ID>",
   "  inspect <KIND> <ID>",
   "  edit [--delete] [--system] <KIND> <ID> [ASSIGNMENTS]...",
   "  status <SUBSCRIPTION>",
   "  preview <KIND> <ID>",
   "  schema [KIND]",
   "  config",
   "",
   "Options:",
   "      --data <DIR>  Data directory",
   "      --json        Print JSON instead of text",
   "  -v, --verbose     Verbose output",
   "  -h, --help        Print help",
   "  -V, --version     Print version"]

end Answer

/-- Answers a request in a data directory, and gives the directory as it is afterwards. -/
def answer (vars : Variables) (json : Bool) (r : Request) (d : Directory) (supply : Supply) :
    Answer × Directory :=
  match Deployment.rulebook vars d with
  | .error f => (.failed "" f.message, d)
  | .ok b =>
    let (result, s) := (r.run b).run (Store.inDirectory d supply)
    (.ofResult json result, s.directory.getD d)

/-- What arguments come to. -/
inductive Plan where
  | answered (a : Answer)
  /-- Work in the data directory at a path, which leaves the directory as it is afterwards. -/
  | work (path : String) (inDirectory : Directory → Answer × Directory)

/-- What the program does with its arguments. -/
def plan (vars : Variables) (args : List String) (supply : Supply) : Plan :=
  match Invocation.ofArguments args with
  | .refused => .answered .refused
  | .version => .answered .version
  | .usage => .answered .usage
  | .request o r =>
    match vars.dataPath o.data with
    | .error f => .answered (.failed "" f.message)
    | .ok path => .work path fun d => answer vars o.json r d supply

/-- What arguments answer, and the files as they are afterwards. Paths start in the folder
`here`. -/
def run (vars : Variables) (here : String) (args : List String) (files : FileTree)
    (supply : Supply) : Answer × FileTree :=
  match plan vars args supply with
  | .answered a => (a, files)
  | .work path inDirectory =>
    let names := FileTree.namesOf here path
    let (a, d) := inDirectory (files.directory names)
    (a, files.put names d)

end CourseBlueprint.CommandLine
