/-
Makefiles and settings from files, and the machine that reads them.
-/
import MakeAtlas.Failure
import MakeAtlas.Makefile.Scan
import MakeAtlas.Text.Layout
import MakeAtlas.Workspace.Host
import MakeAtlas.Workspace.Surroundings

/-! ## The machine

What the program leaves to the machine that it runs on: how a text is read as a document, how the entries of a document
are judged as settings, and how much room there is for calls. Only what may come of it is fixed here. -/

namespace MakeAtlas

namespace Settings

/-- why entries give no settings -/
inductive Refusal where
  | misfits (issues : List Issue)
  /-- the judging itself broke off -/
  | broken
  deriving DecidableEq, Repr

/-- what entries are judged to be, and how many unknown severities were met -/
structure Judged where
  result : Except Refusal Settings
  unknownSeverities : Nat := 0

end Settings

class Machine extends Pattern.Dialect where
  /-- the document in a text; a text that is malformed is told about, and other faults are not -/
  parse : List Char → Except Yaml.Fault Document
  /-- the fault in the bytes of no text, which may be malformed before the first byte that is wrong -/
  undecoded : List UInt8 → Yaml.Fault
  /-- the room for calls when a document is expanded -/
  calls : Calls
  /-- the settings in the entries of a document -/
  judge : List (Document × Document) → Settings.Judged

end MakeAtlas

/-! ## Settings

Settings from files. The bytes of a file are a text, the text is a document, the variables in the document are replaced,
and its entries are judged; each step has failures of its own. An empty file gives nothing, which is no failure.

Settings are looked for in the home directory, and in a file of the project: the one that the user names, else the one
that a variable names, else the one in the current directory. A file that is both counts once. -/

namespace MakeAtlas.Settings

/-! ## One file -/

/-- what loading comes to, and how many unknown severities were met -/
structure Loaded (α : Type) where
  result : Except Failure α
  unknownSeverities : Nat := 0

namespace Loaded

variable {α β : Type}

/-- nothing but a failure -/
def failed (f : Failure) : Loaded α := { result := .error f }

/-- a diagnosis about a settings file -/
def refused (p : Path) (message : String) (code : Code := .configInvalid) : Loaded α :=
  failed (.diagnosed ⟨code, message, some p.text⟩)

/-- a result put to further use -/
def map (f : α → β) (l : Loaded α) : Loaded β := { l with result := l.result.map f }

end Loaded

/-- a settings file that cannot be read -/
def unreadable (p : Path) (reason : String) : Loaded Settings :=
  Loaded.refused p ("cannot read configuration: " ++ reason)

/-- a settings file that holds no document; only a malformed one is told about -/
def unparsed (p : Path) : Yaml.Fault → Loaded Settings
  | .malformed => unreadable p "not valid YAML"
  | f => Loaded.failed (.broken (.yaml f))

/-- a fault of expanding, met in a settings file -/
def faultAt (p : Path) : ExpandFault → Failure
  | .unset name => .unset p.text name
  | .unwritable name => .broken (.unwritable name)
  | .tooDeep => .broken .tooDeep

/-- a refusal of the entries of a settings file -/
def refusalAt (p : Path) : Refusal → Failure
  | .misfits issues => .misfits p.text issues
  | .broken => .broken .unjudged

variable [Machine]

def ofEntries (env : Environment) (p : Path) (es : List (Document × Document)) : Loaded Settings :=
  match Document.expandMapping Machine.calls env es with
  | .error f => Loaded.failed (faultAt p f)
  | .ok es =>
    let judged := Machine.judge es
    ⟨judged.result.mapError (refusalAt p), judged.unknownSeverities⟩

def ofDocument (env : Environment) (p : Path) : Document → Loaded Settings
  | .mapping es => ofEntries env p es
  | .null => ofEntries env p []
  | _ => Loaded.refused p "configuration must be a mapping"

def ofBytes (env : Environment) (p : Path) (bytes : List UInt8) : Loaded Settings :=
  match Text.Utf8.decode? bytes with
  | none => unparsed p (Machine.undecoded bytes)
  | some text =>
    match Machine.parse (Text.unifyNewlines text) with
    | .error f => unparsed p f
    | .ok d => ofDocument env p d

def absent (p : Path) : Loaded Settings := Loaded.refused p "configuration file not found" .configMissing

def ofLook (env : Environment) (p : Path) : Look → Loaded Settings
  | .file bytes => ofBytes env p bytes
  | .directory => unreadable p (FileFault.isDirectory.textAt p)
  | .unreadable f => unreadable p f.text
  | .fault .missing => absent p
  | .fault .notDirectory => absent p
  | .fault f => Loaded.failed (.broken (.fileSystem f))

variable {m : Type → Type} [Monad m]

def load (h : Host m) (env : Environment) (p : Path) : m (Loaded Settings) :=
  if p.hasNul then pure (absent p) else do return ofLook env p (← h.look p)

/-! ## Both files -/

def fileBelow? (h : Host m) (dir : Path) : m (Option Path) := do
  let p := dir.below fileName
  match ← h.look p with
  | .file _ => return some p
  | .unreadable _ => return some p
  | _ => return none

/-- the file that was named, if one was; an empty name names none -/
def chosen? (s : Surroundings) (explicit : Option Path) : Except Breakdown (Option Path) :=
  match explicit with
  | some p => some <$> s.expandHome p
  | none =>
    match s.environment.value? fileVariable with
    | none => .ok none
    | some name => if name.isEmpty then .ok none else some <$> s.expandHome (Path.ofText name)

def distinct (s : Surroundings) (user project : Option Path) : Except Breakdown (Option Path) :=
  match user, project with
  | some u, some p =>
    if p.hasNul then .error .nulInPath
    else .ok (if u.resolve s.cwd == p.resolve s.cwd then none else some p)
  | _, project => .ok project

/-- the user's file and the project's file -/
def locate (h : Host m) (s : Surroundings) (explicit : Option Path) :
    m (Except Breakdown (Option Path × Option Path)) := do
  let user ← fileBelow? h s.homePath
  match chosen? s explicit with
  | .error b => return .error b
  | .ok chosen =>
    let project ← match chosen with
      | some p => pure (some p)
      | none => fileBelow? h s.cwd
    return (distinct s user project).map (user, ·)

def loadOptional (h : Host m) (env : Environment) : Option Path → m (Loaded (Option Settings))
  | none => pure ⟨.ok none, 0⟩
  | some p => do return (← load h env p).map some

/-- the settings in both files as one; the project's file is not read after a failure in the user's -/
def loadBoth (h : Host m) (env : Environment) (user project : Option Path) : m (Loaded Settings) := do
  let u ← loadOptional h env user
  match u.result with
  | .error f => return ⟨.error f, u.unknownSeverities⟩
  | .ok lower =>
    let p ← loadOptional h env project
    return ⟨p.result.map (merge lower), u.unknownSeverities + p.unknownSeverities⟩

def loadMerged (h : Host m) (s : Surroundings) (explicit : Option Path) : m (Loaded Settings) := do
  match ← locate h s explicit with
  | .error b => return Loaded.failed (.broken b)
  | .ok (user, project) => loadBoth h s.env user project

end MakeAtlas.Settings

/-! ## Makefiles -/

namespace MakeAtlas.Makefile

def ofLook (p : Path) : Look → Except Failure (List Target)
  | .file bytes => .ok (ofBytes bytes)
  | .directory => .error (.diagnosed (.cannotOpen p.text (FileFault.isDirectory.textAt p)))
  | .unreadable f => .error (.diagnosed (.cannotRead p.text f.text))
  | .fault f => .error (.diagnosed (.cannotOpen p.text (f.textAt p)))

def load {m : Type → Type} [Monad m] (h : Host m) (p : Path) : m (Except Failure (List Target)) :=
  if p.hasNul then pure (.error (.broken .nulInPath)) else do return ofLook p (← h.look p)

end MakeAtlas.Makefile
