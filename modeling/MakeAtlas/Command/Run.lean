/-
Running requests, and how they end.
-/
import MakeAtlas.Command.Request
import MakeAtlas.Failure
import MakeAtlas.Graph.Build
import MakeAtlas.Graph.Focus
import MakeAtlas.Load
import MakeAtlas.Report
import MakeAtlas.Safety.Catalog
import MakeAtlas.Settings.Basic
import MakeAtlas.Text.Layout

/-! ## Outcomes

How a command ends: with a status, what it writes, and perhaps an error that it tells. -/

namespace MakeAtlas.Command

/-- the end of a command -/
structure Outcome where
  status : Nat := 0
  output : String := ""
  error : Option String := none
  deriving DecidableEq, Repr

namespace Outcome

/-- the statuses: something was found in a makefile, or it cannot be read; the request or the settings are wrong; a file
cannot be written -/
def found : Nat := 1

def wrong : Nat := 2

def unwritten : Nat := 3

/-- an error told in one line -/
def told (status : Nat) (message : String) : Outcome := { status, error := some ("Error: " ++ message ++ "\n") }

/-- a failure told, unless it is a breakdown -/
def ofFailure (status : Nat) (f : Failure) : Except Breakdown Outcome := f.diagnosis?.map fun d => told status d.text

/-- a text without what could switch the colours of a terminal -/
def plain (s : String) : String := String.ofList (Text.withoutSequences s.toList)

def shown (o : Outcome) : Outcome := { o with output := plain o.output, error := o.error.map plain }

end Outcome

/-- lines as a text -/
def unlines (ls : List String) : String := String.join (ls.map (· ++ "\n"))

end MakeAtlas.Command

/-! ## Requests

Running requests. A request about a makefile first loads the settings and then the makefile, and a failure on the way is
told in place of an answer; the answer itself depends on nothing but the settings and the targets. -/

namespace MakeAtlas.Command

open Makefile (Target)
open Safety (Checker Verdict)

/-- the name of the program and the number of its version -/
def versionText : String := "lazymake 0.1.0"

/-! ### Answers -/

variable [Machine]

def verdicts (s : Settings) (ts : List Target) : Except Breakdown (Entries Verdict) :=
  match Checker.build s.policy Safety.catalog with
  | .ok c => .ok (c.checkAll ts)
  | .error bad => .error (.pattern bad.fault)

def listAnswer (json : Bool) (s : Settings) (p : Path) (ts : List Target) : Except Breakdown Outcome := do
  let vs ← verdicts s ts
  if json then return { output := (Report.targetsJson ts vs).render }
  else if ts.isEmpty then return { output := unlines ["No targets found in " ++ p.text] }
  else return { output := unlines (Report.targetTable ts vs) }

/-- the status of a check: something critical was found, or nothing was -/
def checkStatus (vs : Entries Verdict) : Nat := if vs.any (·.2.needsConfirmation) then Outcome.found else 0

/-- the dangerous targets of a makefile -/
def checkAnswer (json : Bool) (s : Settings) (p : Path) (ts : List Target) : Except Breakdown Outcome := do
  let vs ← verdicts s ts
  let status := checkStatus vs
  if json then return { status, output := (Report.verdictsJson vs).render }
  else if !s.policy.enabled then return { status, output := unlines ["Safety checks are disabled in configuration."] }
  else if vs.isEmpty then return { status, output := unlines ["No dangerous commands found in " ++ p.text] }
  else return { status, output := unlines (Report.verdictsLines (vs.map (·.2))) }

/-- a graph, in full or as JSON; a loop in it counts as found -/
def graphShown (g : Graph) (marks : Graph.Marks) (json : Bool) : Outcome :=
  { status := if g.cycle.isSome then Outcome.found else 0
    output := if json then (Report.graphJson g).render else g.render marks ++ unlines (Report.graphNotes g marks) }

def graphAnswer (scope : Scope) (marks : Graph.Marks) (json : Bool) (ts : List Target) : Outcome :=
  let g := Graph.build ts
  match scope.target with
  | none => graphShown g marks json
  | some name =>
    if g.has name then graphShown (g.focus name scope.depth) marks json
    else .told Outcome.found ("Unknown target: " ++ name)

def rulesAnswer (json : Bool) : Outcome :=
  { output := if json then (Report.Json.list (Safety.catalog.map Report.ruleJson)).render
      else unlines (Report.ruleLines Safety.catalog) }

/-! ### Requests -/

variable {m : Type → Type} [Monad m]

/-- an answer about a makefile -/
def answered (h : Host m) (around : Surroundings) (source : Source)
    (answer : Settings → Path → List Target → Except Breakdown Outcome) : m (Except Breakdown Outcome) := do
  match (← Settings.loadMerged h around source.settings).result with
  | .error f => return Outcome.ofFailure Outcome.wrong f
  | .ok s =>
    let p := source.makefile.getD (Path.ofText s.makefileName)
    match ← Makefile.load h p with
    | .error f => return Outcome.ofFailure Outcome.found f
    | .ok ts => return answer s p ts

/-- whether something is at a path, if the file system tells -/
def exists? : Look → Except Breakdown Bool
  | .fault .missing => .ok false
  | .fault .notDirectory => .ok false
  | .fault f => .error (.fileSystem f)
  | _ => .ok true

/-- the settings file to start with, written; one that is there is kept unless the user insists -/
def written (h : Host m) (p : Path) (force : Bool) : m (Except Breakdown Outcome) := do
  if p.hasNul then return .error .nulInPath
  match exists? (← h.look p) with
  | .error b => return .error b
  | .ok there =>
    if there && !force then
      return .ok (.told Outcome.wrong (p.text ++ " already exists. Use --force to overwrite."))
    match ← h.write p Settings.template with
    | some f => return .ok (.told Outcome.unwritten ("Failed to write " ++ p.text ++ ": " ++ f.textAt p))
    | none => return .ok { output := unlines ["Created " ++ p.text] }

def perform (h : Host m) (around : Surroundings) : Request → m (Except Breakdown Outcome)
  | .list source json => answered h around source (listAnswer json)
  | .graph source scope marks json => answered h around source fun _ _ ts => .ok (graphAnswer scope marks json ts)
  | .check source json => answered h around source (checkAnswer json)
  | .rules json => pure (.ok (rulesAnswer json))
  | .init output force => written h output force
  | .version _ => pure (.ok { output := unlines [versionText] })

/-- what a command line comes to -/
def run (h : Host m) (around : Surroundings) (words : List String) : m (Except Breakdown Outcome) := do
  match Request.read around.environment words with
  | .error .help => return .ok {}
  | .error .misused => return .ok { status := Outcome.wrong }
  | .error (.broken b) => return .error b
  | .ok request => return (← perform h around request).map (·.shown)

end MakeAtlas.Command
