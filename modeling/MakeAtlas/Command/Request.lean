/-
What a command line asks for.
-/
import MakeAtlas.Failure
import MakeAtlas.Graph.Tree
import MakeAtlas.Settings.Basic
import MakeAtlas.Text.Case
import MakeAtlas.Text.CharClass
import MakeAtlas.Text.Layout

/-! ## Command lines

An option has a long name after two dashes or a short one, a letter after one dash; letters may stand together
after one dash. A value is the rest of the word, after an equals sign for a long name, or else the next word, whatever
it is. Two dashes alone end the options. The words that are left are arguments. -/

namespace MakeAtlas.Command

/-- what follows an option -/
inductive Takes where
  | nothing
  | text
  | number
  | path
  deriving DecidableEq, Repr

/-- an option that a command knows -/
structure Form where
  long : String
  short : Option Char := none
  takes : Takes := .nothing
  deriving DecidableEq, Repr

/-- an option as given; without a value, the value is empty -/
structure Given where
  form : Form
  value : String := ""
  deriving DecidableEq, Repr

/-- why a command is not run -/
inductive Stop where
  /-- the user asks how it is used -/
  | help
  /-- it is not used in this way -/
  | misused
  | broken (b : Breakdown)
  deriving DecidableEq, Repr

/-- the option that asks how a command is used -/
def helpForm : Form := { long := "--help" }

/-- the options in one word, and the option that still waits for its value -/
abbrev Word := List Given × Option Form

/-- letters after one dash -/
def readLetters (forms : List Form) : List Char → Option Word
  | [] => some ([], none)
  | c :: cs =>
    match forms.find? (·.short == some c) with
    | none => none
    | some f =>
      if f.takes == .nothing then (readLetters forms cs).map fun (gs, waits) => ({ form := f } :: gs, waits)
      else if cs.isEmpty then some ([], some f)
      else some ([⟨f, String.ofList cs⟩], none)

/-- a word that begins with a dash -/
def readWord (forms : List Form) (word : List Char) : Option Word :=
  let name := String.ofList (word.takeWhile (· != '='))
  match forms.find? (·.long == name), word.dropWhile (· != '=') with
  | some f, [] => some (if f.takes == .nothing then ([{ form := f }], none) else ([], some f))
  | some f, _ :: value => if f.takes == .nothing then none else some ([⟨f, String.ofList value⟩], none)
  | none, _ => if ['-', '-'].isPrefixOf word then none else readLetters forms (word.drop 1)

def isOptionWord : List Char → Bool
  | '-' :: _ :: _ => true
  | _ => false

/-- options and arguments of a line; when they do not mix, everything after the first argument is an argument -/
def readLine (forms : List Form) (mixed : Bool) : List String → Option (List Given × List String)
  | [] => some ([], [])
  | word :: rest =>
    if word == "--" then some ([], rest)
    else if isOptionWord word.toList then
      match readWord forms word.toList with
      | none => none
      | some (gs, none) => (readLine forms mixed rest).map fun (more, args) => (gs ++ more, args)
      | some (gs, some f) =>
        match rest with
        | [] => none
        | value :: rest => (readLine forms mixed rest).map fun (more, args) => (gs ++ ⟨f, value⟩ :: more, args)
    else if mixed then (readLine forms mixed rest).map fun (gs, args) => (gs, word :: args)
    else some ([], word :: rest)

def valueOf? (gs : List Given) (f : Form) : Option String := ((gs.filter (·.form == f)).getLast?).map (·.value)

def isGiven (gs : List Given) (f : Form) : Bool := gs.any (·.form == f)

def checkValue (takes : Takes) (value : String) : Except Stop Unit :=
  match takes with
  | .number => if (Text.readInteger? value.toList).isSome then .ok () else .error .misused
  | .path => if (Path.ofText value).hasNul then .error (.broken .nulInPath) else .ok ()
  | _ => .ok ()

/-- the last value of every option, in the order in which the options are first met -/
def checkValues (gs : List Given) : Except Stop Unit :=
  ((gs.map (·.form)).eraseDups).forM fun f => checkValue f.takes ((valueOf? gs f).getD "")

/-- options and arguments of a line, checked; a line that asks for help is not checked further -/
def readArguments (forms : List Form) (mixed : Bool) (words : List String) : Except Stop (List Given × List String) :=
  match readLine (helpForm :: forms) mixed words with
  | none => .error .misused
  | some (gs, args) => do
    if isGiven gs helpForm then throw .help
    checkValues gs
    return (gs, args)

def pathArgument : List String → Except Stop (Option Path)
  | [] => .ok none
  | word :: rest =>
    let p := Path.ofText word
    if p.hasNul then .error (.broken .nulInPath) else if rest.isEmpty then .ok (some p) else .error .misused

def noArgument (words : List String) : Except Stop Unit := if words.isEmpty then .ok () else .error .misused

end MakeAtlas.Command

/-! ## Requests

What a command line asks for. -/

namespace MakeAtlas.Command

/-- the makefile and the settings file that the user names -/
structure Source where
  makefile : Option Path := none
  settings : Option Path := none
  deriving DecidableEq, Repr

/-- which part of a graph is shown: all of it, or one target with what is near it -/
structure Scope where
  target : Option String := none
  depth : Int := -1
  deriving DecidableEq, Repr

/-- what is asked for -/
inductive Request where
  | list (source : Source) (json : Bool)
  | graph (source : Source) (scope : Scope) (marks : Graph.Marks) (json : Bool)
  | check (source : Source) (json : Bool)
  | rules (json : Bool)
  | init (output : Path) (force : Bool)
  | version (verbose : Bool)
  deriving DecidableEq, Repr

/-! ### Options -/

def jsonForm : Form := { long := "--json" }

def configForm : Form := { long := "--config", short := some 'c', takes := .path }

def targetForm : Form := { long := "--target", short := some 't', takes := .text }

def depthForm : Form := { long := "--depth", short := some 'd', takes := .number }

def noOrderForm : Form := { long := "--no-order" }

def noCriticalForm : Form := { long := "--no-critical" }

def noParallelForm : Form := { long := "--no-parallel" }

def outputForm : Form := { long := "--output", short := some 'o', takes := .path }

def forceForm : Form := { long := "--force", short := some 'f' }

def verboseForm : Form := { long := "--verbose", short := some 'v' }

def logLevelForm : Form := { long := "--log-level", takes := .text }

namespace Request

/-- the source that options and arguments name -/
def sourceOf (gs : List Given) (words : List String) : Except Stop Source := do
  let makefile ← pathArgument words
  return ⟨makefile, (valueOf? gs configForm).map Path.ofText⟩

/-- the scope that options name; a depth is the depth below a target -/
def scopeOf (gs : List Given) : Except Stop Scope := do
  let target := valueOf? gs targetForm
  let depth := ((valueOf? gs depthForm).bind fun s => Text.readInteger? s.toList).getD (-1)
  if target.isNone && depth != -1 then throw .misused
  return ⟨target, depth⟩

def aboutMakefile (make : Source → Bool → Request) (words : List String) : Except Stop Request := do
  let (gs, args) ← readArguments [configForm, jsonForm] true words
  return make (← sourceOf gs args) (isGiven gs jsonForm)

def graphOf (words : List String) : Except Stop Request := do
  let (gs, args) ← readArguments
    [configForm, targetForm, depthForm, noOrderForm, noCriticalForm, noParallelForm, jsonForm] true words
  let source ← sourceOf gs args
  let scope ← scopeOf gs
  return graph source scope ⟨!isGiven gs noOrderForm, !isGiven gs noCriticalForm, !isGiven gs noParallelForm⟩
    (isGiven gs jsonForm)

def rulesOf (words : List String) : Except Stop Request := do
  let (gs, args) ← readArguments [jsonForm] true words
  noArgument args
  return rules (isGiven gs jsonForm)

/-- a request for a settings file -/
def initOf (words : List String) : Except Stop Request := do
  let (gs, args) ← readArguments [outputForm, forceForm] true words
  noArgument args
  return init (Path.ofText ((valueOf? gs outputForm).getD Settings.fileName)) (isGiven gs forceForm)

def versionOf (words : List String) : Except Stop Request := do
  let (gs, args) ← readArguments [verboseForm] true words
  noArgument args
  return version (isGiven gs verboseForm)

def commands : List (String × (List String → Except Stop Request)) :=
  [("list", aboutMakefile list), ("graph", graphOf), ("check", aboutMakefile check), ("rules", rulesOf),
    ("init", initOf), ("version", versionOf)]

def logLevelVariable : String := "LAZYMAKE_LOG_LEVEL"

/-- the log level that is asked for; an empty variable gives none -/
def logLevel (env : Entries String) (gs : List Given) : String :=
  (valueOf? gs logLevelForm).getD (((env.value? logLevelVariable).filter (!·.isEmpty)).getD "WARNING")

/-- two names mean something else than a level; every other unknown name means the usual level -/
def checkLogLevel (level : String) : Except Stop Unit :=
  match String.ofList (Text.toUpper level.toList) with
  | "BASIC_FORMAT" => .error (.broken (.logLevel true))
  | "_STYLES" => .error (.broken (.logLevel false))
  | _ => .ok ()

/-- what stands in the place of a command and looks like an option asks for help when help is asked for behind it -/
def unknownCommand (name : String) (words : List String) : Stop :=
  match name.toList.head? with
  | some c =>
    if Text.isWordChar c.toNat && c != '_' then .misused
    else match readArguments [logLevelForm] false words with
      | .error .help => .help
      | _ => .misused
  | none => .misused

/-- the request of a command line -/
def read (env : Entries String) (words : List String) : Except Stop Request := do
  let (gs, rest) ← readArguments [logLevelForm] false words
  match rest with
  | [] => throw .misused
  | name :: rest =>
    match commands.lookup name with
    | none => throw (unknownCommand name rest)
    | some command =>
      checkLogLevel (logLevel env gs)
      command rest

end Request

end MakeAtlas.Command
