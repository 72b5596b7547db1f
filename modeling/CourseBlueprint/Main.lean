import CourseBlueprint.CommandLine.Answer

/-!
# The program

Reads the arguments, the environment and the data directory, answers the request and writes what it
changed. What it does is decided by `CommandLine.plan`.
-/

namespace CourseBlueprint.Main

open CommandLine (Answer)

/-! ## Reading -/

/-- The variables of the environment. -/
def readVariables : IO Variables := do
  let bytes ← IO.FS.readBinFile "/proc/self/environ"
  match String.fromUTF8? bytes with
  | none => return []
  | some text =>
    return (text.splitOn "\x00").filterMap fun entry =>
      (Assignment.split? entry.toList).map fun (name, value) =>
        (String.ofList name, String.ofList value)

/-- The number that a text starts with, a point and what follows left out. -/
def wholeOf (text : String) : Nat := Text.Decimal.value (Text.Decimal.split text.toList).1

/-- The hundredths after the point of a number. -/
def hundredthsOf (text : String) : Nat :=
  Text.Decimal.value ((Text.Decimal.split ((text.toList.dropWhile (· ≠ '.')).drop 1)).1.take 2)

/-- The time: that of the system's start and what has passed since. -/
def readClock : IO Timestamp := do
  let lines := (← IO.FS.readFile "/proc/stat").splitOn "\n"
  let started := (lines.filterMap fun line =>
    match line.splitOn " " with
    | ["btime", seconds] => some (wholeOf seconds)
    | _ => none).headD 0
  let passed ← IO.FS.readFile "/proc/uptime"
  return .ofUnix (started + wholeOf passed) (hundredthsOf passed * 10000000)

/-- Random identifiers, more than any request needs, and the time. -/
def readSupply : IO Supply := do
  let time ← readClock
  let ids ← (List.range 16).mapM fun _ => do
    return (Uuid.ofBytes (← IO.getRandomBytes 16).data.toList).withVersion 4
  return ⟨fun n => ids.getD n default, fun _ => time, 0, 0⟩

/-- The files that a data directory can hold. -/
def fileNames : List String :=
  [Directory.templateTable.file, Directory.subscriptionTable.file, Directory.masterTagTable.file,
   Directory.childTagTable.file, Directory.lockFile, Deployment.configFile]

/-- What a name in a directory stands for. -/
def readEntry (path name : String) : IO (Option Entry) := do
  try
    return some (.file (← IO.FS.readFile (Variables.joinPath path name)))
  catch
    | .noFileOrDirectory .. => return none
    | _ => return some .folder

/-- What is in the folder at a path. -/
def readEntries (path : String) : IO (Dict Entry) := do
  let entries ← fileNames.mapM fun name => do
    return (← readEntry path name).map fun e => (name, e)
  return .ofList (entries.filterMap id)

/-- The data directory at a path. One that is missing is taken for empty once it is made. -/
def readDirectory (path : String) : IO Directory := do
  let place := (← IO.currentDir) / path
  if ← place.isDir then return .present (← readEntries path)
  else if ← place.pathExists then return .missing none
  else return .missing (some ∅)

/-! ## Writing -/

/-- Makes the folder at a path, and before it those on the way that are missing. -/
def makeAll (path : String) : IO Unit := do
  let here ← IO.currentDir
  for stage in (FileTree.stagesOf (FileTree.namesOf here.toString path)).reverse do
    let place := here / ("/" ++ "/".intercalate stage)
    try IO.FS.createDir place
    catch e => if !(← place.isDir) then throw e

/-- Writes the files of a data directory that are not as they were. -/
def writeDirectory (path : String) (old : Dict Entry) : Directory → IO Unit
  | .present new =>
    for (name, e) in new.entries do
      if old.get? name ≠ some e then
        match e with
        | .folder => pure ()
        | .file text =>
          let target := Variables.joinPath path name
          IO.FS.writeFile (target ++ ".new") text
          IO.FS.rename (target ++ ".new") target
  | _ => return ()

/-- Prints an answer and gives its code. -/
def finish (a : Answer) : IO UInt32 := do
  (← IO.getStdout).putStr a.printed
  (← IO.getStderr).putStr a.told
  return UInt32.ofNat a.code

/-- Works in the data directory at a path. If the work makes the directory, it is made first, and
the work is done on what is then found in it. -/
def work (path : String) (inDirectory : Directory → Answer × Directory) : IO Answer := do
  let before ← readDirectory path
  let (a, after) := inDirectory before
  match before, after with
  | .present old, _ =>
    writeDirectory path old after
    return a
  | .missing _, .present _ =>
    makeAll path
    let made ← readEntries path
    let (a, after) := inDirectory (.missing (some made))
    writeDirectory path made after
    return a
  | _, _ => return a

/-- Runs the program on the files that its arguments work on. -/
def run (args : List String) : IO UInt32 := do
  match CommandLine.plan (← readVariables) args (← readSupply) with
  | .answered a => finish a
  | .work path inDirectory =>
    let a ← try work path inDirectory catch _ => pure (.failed "" Failure.unreadable.message)
    finish a

end CourseBlueprint.Main

/-- Runs the program. -/
def main (args : List String) : IO UInt32 := CourseBlueprint.Main.run args
