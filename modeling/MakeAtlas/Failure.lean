/-
What can go wrong, and how it is told.
-/
import MakeAtlas.Document.Variables
import MakeAtlas.Pattern.Token
import MakeAtlas.Settings.Reading
import MakeAtlas.Text.Layout
import MakeAtlas.Workspace.Host
import MakeAtlas.Yaml.Cursor

/-! ## Diagnoses

What went wrong in words, under a code that says in which part of the work, and about which file. -/

namespace MakeAtlas

/-- the part of the work that failed -/
inductive Code where
  | fileError
  | scanError
  | configInvalid
  | configMissing
  | ruleInvalid
  deriving DecidableEq, Repr

namespace Code

def all : List Code := [fileError, scanError, configInvalid, configMissing, ruleInvalid]

def name : Code → String
  | fileError => "FILE_ERROR"
  | scanError => "SCAN_ERROR"
  | configInvalid => "CONFIG_INVALID"
  | configMissing => "CONFIG_MISSING"
  | ruleInvalid => "RULE_INVALID"

def ofName? (s : String) : Option Code := all.find? (·.name == s)

end Code

structure Diagnosis where
  code : Code
  message : String
  path : Option String := none
  deriving DecidableEq, Repr

namespace Diagnosis

/-- the diagnosis in one line: the file if there is one, the code, the message -/
def text (d : Diagnosis) : String :=
  let body := "[" ++ d.code.name ++ "] " ++ d.message
  match d.path with
  | some p => if p.isEmpty then body else "[" ++ p ++ "] " ++ body
  | none => body

def withCause (message : String) : Option String → String
  | some cause => message ++ ": " ++ cause
  | none => message

def cannotOpen (path : String) (cause : Option String) : Diagnosis :=
  ⟨.fileError, withCause "failed to open Makefile" cause, some path⟩

/-- a makefile that was opened and cannot be read to its end -/
def cannotRead (path : String) (cause : Option String) : Diagnosis :=
  ⟨.scanError, withCause "error reading Makefile" cause, some path⟩

/-- a variable without a value, met in a settings file or in a text of no file -/
def unsetVariable (name : String) (path : Option String) : Diagnosis :=
  ⟨.configInvalid, "Environment variable '" ++ name ++ "' not set", path⟩

/-- a rule with a pattern that does not compile; without a known cause the message says None -/
def badRule (id pattern : String) (cause : Option String) : Diagnosis :=
  ⟨.ruleInvalid, "rule " ++ id ++ ": invalid pattern " ++ Text.quoted pattern ++ ": " ++ cause.getD "None", none⟩

end Diagnosis

end MakeAtlas

/-! ## Failures

Most have a diagnosis, which is shown to the user. A breakdown has none: it is a failure that nobody has foreseen,
and it ends the program at once. -/

namespace MakeAtlas

/-- a failure without a diagnosis -/
inductive Breakdown where
  /-- a path holds the character that no path may hold -/
  | nulInPath
  /-- a path begins with the home directory of a user that there is not -/
  | unknownUser
  /-- the file system does not tell whether a file exists -/
  | fileSystem (fault : FileFault)
  /-- a settings file is not written in UTF-8, or a value in it cannot be built -/
  | yaml (fault : Yaml.Fault)
  /-- a variable in a settings file has a name that cannot be written in bytes -/
  | unwritable (name : Points)
  /-- the values of a settings file are nested too deeply, or one is found inside itself -/
  | tooDeep
  /-- the values of a settings file cannot even be judged -/
  | unjudged
  /-- a pattern is none, in a way that is not told -/
  | pattern (fault : Pattern.Fault)
  /-- the name of a log level means something else -/
  | logLevel (isText : Bool)
  deriving DecidableEq, Repr

inductive Failure where
  | diagnosed (d : Diagnosis)
  /-- a variable in a settings file has no value -/
  | unset (path : String) (name : Points)
  /-- the values in a settings file do not fit their places -/
  | misfits (path : String) (issues : List Settings.Issue)
  | broken (b : Breakdown)
  deriving DecidableEq, Repr

/-- what is shown to the user, unless the failure is a breakdown -/
def Failure.diagnosis? : Failure → Except Breakdown Diagnosis
  | diagnosed d => .ok d
  | unset path name => .ok (.unsetVariable name.shown path)
  | misfits path issues =>
    .ok ⟨.configInvalid, "invalid configuration: " ++ ", ".intercalate (issues.map Settings.Issue.text), some path⟩
  | broken b => .error b

end MakeAtlas
