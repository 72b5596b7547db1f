import CourseBlueprint.Request

/-!
# Arguments of the command line

`Invocation.ofArguments` reads the arguments from left to right. Words name a command and what it
works on; options may stand anywhere among them, the general ones also before the command. After
`--` everything is a word. The first argument that makes no sense decides: nothing is done then. So
help is only given if all that stands before it makes sense.
-/

namespace CourseBlueprint.CommandLine

/-- The options that were given. -/
structure Options where
  data : Option String := none
  /-- A data directory that was named in an argument of its own and is not taken yet. -/
  named : Option String := none
  json : Bool := false
  verbose : Bool := false
  delete : Bool := false
  system : Bool := false
deriving DecidableEq, Inhabited

namespace Options

/-- The general options of two places on the command line; the later one counts. -/
def orLater (early late : Options) : Options :=
  { late with
    data := late.data.orElse fun _ => early.data
    json := early.json || late.json
    verbose := early.verbose || late.verbose }

end Options

/-- What the arguments ask for. -/
inductive Invocation where
  /-- Nothing, because they make no sense. -/
  | refused
  /-- The version of the program. -/
  | version
  /-- How the program is used. -/
  | usage
  /-- A request, with the options that were given. -/
  | request (options : Options) (r : Request)
deriving DecidableEq

/-! ## Options -/

/-- Where on the command line an option stands. -/
inductive Position where
  /-- Before the command. -/
  | front
  /-- After a command that others follow. -/
  | group
  /-- After a command. -/
  | command (name : String)
deriving DecidableEq

/-- Either an end of the reading, or what was read. -/
abbrev Read (α : Type) := Except Invocation α

/-- Turns a switch on, which may be done once in one place. -/
def switch (given : Bool) (o : Options) : Read Options :=
  if given then .error .refused else .ok o

/-- The effect of an option without a value. -/
def turnOn (p : Position) (name : String) (o : Options) : Read Options :=
  if name = "json" then switch o.json { o with json := true }
  else if name = "verbose" then switch o.verbose { o with verbose := true }
  else if name = "help" then .error .usage
  else if name = "version" ∧ p = .front then .error .version
  else if name = "delete" ∧ p = .command "edit" then switch o.delete { o with delete := true }
  else if name = "system" ∧ p = .command "edit" then switch o.system { o with system := true }
  else .error .refused

/-- The option that a letter is short for. -/
def nameOf? : Char → Option String
  | 'v' => some "verbose"
  | 'h' => some "help"
  | 'V' => some "version"
  | _ => none

/-- The effect of letters, one after the other. -/
def letters (p : Position) : List Char → Options → Read Options
  | [], o => .ok o
  | c :: rest, o =>
    match nameOf? c with
    | some name => do letters p rest (← turnOn p name o)
    | none => .error .refused

/-- Sets the data directory, which may be done once in one place and takes a name. -/
def chooseData (path : String) (o : Options) : Read Options :=
  if path.isEmpty || o.data.isSome then .error .refused else .ok { o with data := some path }

/-- Takes the data directory that was named. The next option does so, or else the end of the
reading, so a command that follows is read before. -/
def settle (o : Options) : Read Options :=
  match o.named with
  | some path => chooseData path { o with named := none }
  | none => .ok o

/-- Whether an argument is an option: it starts with a dash and is longer. -/
def isOption : List Char → Bool
  | '-' :: _ :: _ => true
  | _ => false

/-- The parts of an option before and after its first `=`, if it has one. -/
def splitValue (cs : List Char) : List Char × Option (List Char) :=
  match Assignment.split? cs with
  | some (name, value) => (name, some value)
  | none => (cs, none)

/-- The effect of an argument that is an option, and the arguments it leaves. -/
def option (p : Position) (o : Options) (cs : List Char) (rest : List String) :
    Read (Options × List String) :=
  match cs with
  | '-' :: '-' :: word =>
    match splitValue word with
    | (['d', 'a', 't', 'a'], some path) => do
      return (← chooseData (String.ofList path) o, rest)
    | (['d', 'a', 't', 'a'], none) =>
      match rest with
      | [] => .error .refused
      | path :: rest =>
        if isOption path.toList then .error .refused else .ok ({ o with named := some path }, rest)
    | (name, none) => do return (← turnOn p (String.ofList name) o, rest)
    | (_, some _) => .error .refused
  | '-' :: word => do return (← letters p word o, rest)
  | _ => .error .refused

theorem length_option_le {p : Position} {o o' : Options} {cs : List Char} {rest rest' : List String}
    (h : option p o cs rest = .ok (o', rest')) : rest'.length ≤ rest.length := by
  have keep {x : Read Options} (hx : (do return (← x, rest) : Read (Options × List String)) =
      .ok (o', rest')) : rest' = rest := by
    cases x <;> simp [bind, Except.bind, pure, Except.pure] at hx
    exact hx.2.symm
  unfold option at h
  split at h
  · split at h
    · exact Nat.le_of_eq (congrArg List.length (keep h))
    · split at h
      · simp at h
      · next path rest₁ =>
        split at h
        · simp at h
        · simp only [Except.ok.injEq, Prod.mk.injEq] at h
          simp [← h.2]
    · exact Nat.le_of_eq (congrArg List.length (keep h))
    · simp at h
  · exact Nat.le_of_eq (congrArg List.length (keep h))
  · simp at h

/-- Takes the data directory named before, then the effect of an argument that is an option. -/
def nextOption (p : Position) (o : Options) (cs : List Char) (rest : List String) :
    Read (Options × List String) :=
  match settle o with
  | .ok o => option p o cs rest
  | .error e => .error e

theorem length_nextOption_le {p : Position} {o o' : Options} {cs : List Char}
    {rest rest' : List String} (h : nextOption p o cs rest = .ok (o', rest')) :
    rest'.length ≤ rest.length := by
  unfold nextOption at h
  split at h
  · exact length_option_le h
  · simp at h

/-! ## Words -/

/-- What a word after a command says. -/
inductive Parameter where
  | id
  | kind
  | lock
  | assignment
deriving DecidableEq

/-- Whether a word can say it. Assignments are read later, so any word can be one. -/
def Parameter.admits : Parameter → String → Bool
  | .id, word => (Uuid.ofText? word).isSome
  | .kind, word => (Kind.ofName? word).isSome
  | .lock, word => (Lock.ofName? word).isSome
  | .assignment, _ => true

/-- What the words after a command say one by one, and then all others. -/
def parameters : String → List Parameter × Option Parameter
  | "subscribe" => ([.id, .id], none)
  | "sync" => ([.id, .kind, .id], some .assignment)
  | "lock" | "unlock" => ([.id, .kind, .id], some .lock)
  | "show" => ([.id, .kind, .id], none)
  | "inspect" | "preview" => ([.kind, .id], none)
  | "edit" => ([.kind, .id], some .assignment)
  | "status" | "init" => ([.id], none)
  | "schema" => ([.kind], none)
  | _ => ([], none)

/-- Whether words can be the first ones after a command. -/
def admitted : List Parameter → Option Parameter → List String → Bool
  | _, _, [] => true
  | p :: ps, more, word :: words => p.admits word && admitted ps more words
  | [], some p, word :: words => p.admits word && admitted [] (some p) words
  | [], none, _ :: _ => false

/-- The options up to the first word, that word, and the arguments after it. -/
def firstWord (p : Position) (o : Options) (args : List String) :
    Read (Options × String × List String) :=
  match args with
  | [] => .error .refused
  | arg :: rest =>
    if arg = "--" then .error .refused
    else if isOption arg.toList then
      match _h : nextOption p o arg.toList rest with
      | .ok (o', rest') => firstWord p o' rest'
      | .error e => .error e
    else .ok (o, arg, rest)
termination_by args.length
decreasing_by
  have := length_nextOption_le _h
  simp only [List.length_cons]
  omega

/-- All options after a command and all words; after `--` there are only words. -/
def allWords (command : String) (o : Options) (words args : List String) :
    Read (Options × List String) :=
  match args with
  | [] => .ok (o, words)
  | arg :: rest =>
    if arg = "--" then .ok (o, words ++ rest)
    else if isOption arg.toList then
      match _h : nextOption (.command command) o arg.toList rest with
      | .ok (o', rest') => allWords command o' words rest'
      | .error e =>
        let (fixed, more) := parameters command
        .error (if admitted fixed more words then e else .refused)
    else allWords command o (words ++ [arg]) rest
termination_by args.length
decreasing_by
  · have := length_nextOption_le _h
    simp only [List.length_cons]
    omega
  · simp

/-! ## Requests -/

/-- The key that a kind and an identifier name. -/
def key? (kind id : String) : Option ContentKey := do
  let kind ← Kind.ofName? kind
  let id ← Uuid.ofText? id
  return ⟨kind, id⟩

/-- The request that a command makes of its words. -/
def request? (command : String) (o : Options) (words : List String) : Option Request :=
  match command, words with
  | "subscribe", [master, child] => do
    let master ← Uuid.ofText? master
    let child ← Uuid.ofText? child
    return .subscribe master child
  | "sync", subscription :: kind :: id :: assignments => do
    let subscription ← Uuid.ofText? subscription
    let content ← key? kind id
    return .sync subscription content assignments
  | "lock", course :: kind :: id :: lock :: more => locks? true course kind id (lock :: more)
  | "unlock", course :: kind :: id :: lock :: more => locks? false course kind id (lock :: more)
  | "show", [course, kind, id] => do
    let course ← Uuid.ofText? course
    let content ← key? kind id
    return .showContent course content
  | "inspect", [kind, id] => (key? kind id).map .inspect
  | "edit", kind :: id :: assignments =>
    (key? kind id).map fun content => .edit content assignments o.delete o.system
  | "status", [subscription] => (Uuid.ofText? subscription).map .status
  | "preview", [kind, id] => (key? kind id).map .preview
  | "schema", [] => some (.listSchemas none)
  | "schema", [kind] => (Kind.ofName? kind).map fun k => .listSchemas (some k)
  | "config", [] => some .showConfig
  | "init", [course] => (Uuid.ofText? course).map .makeBlueprint
  | _, _ => none
where
  /-- A request to set locks. -/
  locks? (on : Bool) (course kind id : String) (locks : List String) : Option Request := do
    let course ← Uuid.ofText? course
    let content ← key? kind id
    let locks ← locks.mapM Lock.ofName?
    return .setLocks course content locks on

/-- The commands that one word names. -/
def commands : List String :=
  ["subscribe", "sync", "lock", "unlock", "show", "inspect", "edit", "status", "preview", "schema",
   "config"]

/-- What words after `help` ask for: they name a command, or nothing for the whole program. -/
def help : List String → Invocation
  | [] | ["help"] | ["template"] | ["template", "help"] | ["template", "init"] => .usage
  | [name] => if name ∈ commands then .usage else .refused
  | _ => .refused

/-- Reads what follows a command. -/
def readCommand (name : String) (args : List String) : Read (Options × Request) := do
  let (o, words) ← allWords name {} [] args
  let o ← settle o
  match request? name o words with
  | some r => return (o, r)
  | none => .error .refused

/-- Reads what follows `template`. -/
def readGroup (args : List String) : Read (Options × Request) := do
  let (o, name, rest) ← firstWord .group {} args
  if name = "help" then .error (help ("template" :: rest))
  else if name = "init" then
    let (late, r) ← readCommand name rest
    return ((← settle o).orLater late, r)
  else .error .refused

/-- Reads all arguments. -/
def read (args : List String) : Read (Options × Request) := do
  let (o, name, rest) ← firstWord .front {} args
  if name = "help" then .error (help rest)
  else
    let (late, r) ←
      if name = "template" then readGroup rest
      else if name ∈ commands then readCommand name rest
      else .error .refused
    return ((← settle o).orLater late, r)

/-- What the arguments ask for. -/
def Invocation.ofArguments (args : List String) : Invocation :=
  match read args with
  | .ok (o, r) => .request o r
  | .error i => i

end CourseBlueprint.CommandLine
