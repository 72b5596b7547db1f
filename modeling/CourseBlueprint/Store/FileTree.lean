import CourseBlueprint.Store.Directory

/-!
# Files and folders

A `FileTree` is a file or a folder with more of them in it. A path is a list of names, each of which
is one step in a tree: `find` takes the steps of a path that leads somewhere, and `makeAll` makes
the folders that are missing on the way. A data directory is what is found at a path: `directory`
takes it out of a tree and `put` puts it back.
-/

namespace CourseBlueprint

/-- A file, or a folder with what is in it. -/
inductive FileTree where
  | file (text : String)
  | folder (entries : List (String × FileTree))

namespace FileTree

/-- The empty folder. -/
def empty : FileTree := folder []

instance : EmptyCollection FileTree := ⟨empty⟩
instance : Inhabited FileTree := ⟨empty⟩

/-- What is in a folder, with a tree under a name. -/
def putIn (name : String) (t : FileTree) : List (String × FileTree) → List (String × FileTree)
  | [] => [(name, t)]
  | (n, t') :: rest => if n = name then (name, t) :: rest else (n, t') :: putIn name t rest

/-- What a name stands for in the folder that a tree is in. -/
def entry : FileTree → Entry
  | file text => .file text
  | folder _ => .folder

/-! ## Paths -/

/-- The names of a path, which starts in the folder `here` unless it starts with a slash. -/
def namesOf (here path : String) : List String :=
  (if path.startsWith "/" then path else here ++ "/" ++ path).splitOn "/"

/-- Whether a name stays in the folder it is looked up in. -/
def stays (name : String) : Bool := name = "" || name = "."

/-- Whether a name is longer than a name can be. -/
def isLongName (name : String) : Bool := 255 < name.utf8ByteSize

/-- Whether a path is longer than a path can be. -/
def isLongPath (path : List String) : Bool := 4096 ≤ ("/".intercalate path).utf8ByteSize

/-- Why a path leads nowhere: a name is missing, or there is a file on the way or something is too
long. Making folders helps against the first only. -/
inductive Obstacle where
  | missing
  | blocked
deriving DecidableEq

/-! ## Positions -/

/-- A place in a tree: what is there, and what is in the folders around it, the innermost first,
each with the name that leads on. -/
structure Position where
  tree : FileTree
  around : List (String × List (String × FileTree))

namespace Position

/-- The whole tree, with what is at the position. -/
def close (p : Position) : FileTree :=
  p.around.foldl (fun t (name, es) => folder (putIn name t es)) p.tree

/-- The folder around a position; the outermost is around itself. -/
def back (p : Position) : Position :=
  match p.around with
  | [] => p
  | (_, es) :: rest => ⟨folder es, rest⟩

/-- The position that a name leads to. From a file, no name leads on. -/
def step (p : Position) (name : String) : Except Obstacle Position :=
  match p.tree with
  | file _ => .error .blocked
  | folder es =>
    if stays name then .ok p
    else if name = ".." then .ok p.back
    else if isLongName name then .error .blocked
    else match es.lookup name with
      | some t => .ok ⟨t, (name, es) :: p.around⟩
      | none => .error .missing

/-- The position with more entries, if it is a folder. What is below a folder stays. -/
def fill (p : Position) (entries : Dict Entry) : Position :=
  match p.tree with
  | file _ => p
  | folder es =>
    let all := entries.entries.foldl (fun es (name, e) =>
      match e, es.lookup name with
      | .folder, some (folder _) => es
      | .folder, _ => putIn name empty es
      | .file text, _ => putIn name (file text) es) es
    { p with tree := folder all }

/-- The entries of the folder at a position; none if there is a file. -/
def entries? (p : Position) : Option (Dict Entry) :=
  match p.tree with
  | file _ => none
  | folder es => some (.ofList (es.map fun (name, t) => (name, t.entry)))

end Position

/-- The position at the end of a path. -/
def find (t : FileTree) (path : List String) : Except Obstacle Position :=
  if isLongPath path then .error .blocked else path.foldlM Position.step ⟨t, []⟩

/-! ## Making folders -/

/-- The tree with a folder at a path, in a folder that is there. Empty names at the end of the path
do not count. -/
def make (t : FileTree) (path : List String) : Except Obstacle FileTree := do
  if isLongPath path then .error .blocked
  else match path.reverse.dropWhile (· = "") with
    | [] => return t
    | name :: before =>
      let p ← t.find before.reverse
      match p.step name with
      | .ok ⟨folder _, _⟩ => return t
      | .ok ⟨file _, _⟩ => .error .blocked
      | .error .missing => return (p.fill ((∅ : Dict Entry).put name .folder)).close
      | .error .blocked => .error .blocked

/-- A path and the shorter ones that lead to it, the longest first. -/
def stagesOf (path : List String) : List (List String) :=
  let names := path.filter fun name => !stays name
  path :: (List.range names.length).reverse.map names.take

/-- The tree with a folder at the first of some paths, each of which leads to the one before it, and
whether that could be made. Folders that were made on the way stay in any case. -/
def makeStages (t : FileTree) : List (List String) → FileTree × Bool
  | [] => (t, false)
  | path :: shorter =>
    match t.make path with
    | .ok t' => (t', true)
    | .error .blocked => (t, false)
    | .error .missing =>
      let (t', made) := makeStages t shorter
      if made then
        match t'.make path with
        | .ok t'' => (t'', true)
        | .error _ => (t', false)
      else (t', false)

/-- The tree with all folders that lead to a path, and whether they could be made. -/
def makeAll (t : FileTree) (path : List String) : FileTree × Bool :=
  t.makeStages (stagesOf path)

/-! ## Data directories -/

/-- The entries of the folder at a path. -/
def entriesAt? (t : FileTree) (path : List String) : Option (Dict Entry) :=
  (t.find path).toOption.bind Position.entries?

/-- The data directory at a path. -/
def directory (t : FileTree) (path : List String) : Directory :=
  match t.find path with
  | .ok p =>
    match p.entries? with
    | some entries => .present entries
    | none => .missing none
  | .error _ =>
    let (t', made) := t.makeAll path
    .missing (if made then t'.entriesAt? path else none)

/-- The tree with a data directory put back at a path. -/
def put (t : FileTree) (path : List String) : Directory → FileTree
  | .missing _ => t
  | .refused => (t.makeAll path).1
  | .present entries =>
    let t' := (t.makeAll path).1
    match t'.find path with
    | .ok p => (p.fill entries).close
    | .error _ => t'

end FileTree

end CourseBlueprint
