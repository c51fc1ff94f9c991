/-
Checking recipes against rules, with what stands around a match.
-/
import MakeAtlas.Entries
import MakeAtlas.Makefile.Scan
import MakeAtlas.Pattern.Search
import MakeAtlas.Safety.Rule

/-! ## The context of a match

What stands around a match makes it less alarming: a target that is there to delete things, a command that asks before
it acts, a target for development. Each of them takes the severity down by one step at most, and none takes it up. -/

namespace MakeAtlas.Safety

open Pattern (Node CharClass)

/-- words of targets that are there to delete things -/
def cleanWords : List String :=
  ["clean", "distclean", "purge", "reset", "nuke", "remove", "delete", "wipe", "clear"]

def developmentWords : List String :=
  ["dev", "develop", "development", "test", "testing", "local", "localhost", "docker", "compose", "demo", "example",
   "sample"]

def productionWords : List String := ["prod", "production", "master", "main", "live", "release"]

/-- words that name data which must not be lost -/
def criticalWords : List String :=
  ["db", "database", "prod", "production", "schema", "migration", "backup", "restore"]

/-- one of the words occurs in the text, in lower case -/
def mentions (words : List String) (text : List Char) : Bool :=
  let lower := Text.toLower text
  words.any fun w => Text.occursIn w.toList lower

namespace Context

/-- these characters in a row -/
def literal (s : String) : Node := .ofSeq (s.toList.map fun c => .one {} (.code c.toNat))

def ofClass (c : CharClass) : Node := .one {} (.set false [.named c false])

def wordChars : Node := .repeat .greedy 0 none (ofClass .word)

/-- a field of short options with an `i` among them, or the long option that asks before acting -/
def interactivePattern : Node :=
  .alt
    (.ofSeq [.repeat .greedy 1 none (ofClass .space), literal "-", wordChars, literal "i", wordChars,
      .group 1 (.alt (ofClass .space) (.at {} .lineEnd))])
    (literal "--interactive")

/-- the word, with no word character on either side -/
def wholeWord (w : String) : Node := .ofSeq [.at {} .boundary, literal w, .at {} .boundary]

end Context

/-- a target that is there to delete things -/
def isCleanTarget (name : String) : Bool := mentions cleanWords name.toList

def isDevelopmentTarget (name : String) : Bool := mentions developmentWords name.toList

/-- a command that asks before it acts -/
def hasInteractiveFlag (line : String) : Bool := Pattern.found Context.interactivePattern line.toList

/-- a command that names a production system, as a whole word -/
def mentionsProduction (line : String) : Bool :=
  let lower := Text.toLower line.toList
  productionWords.any fun w => Pattern.found (Context.wholeWord w) lower

/-- a target or a command that names data which must not be lost -/
def affectsCriticalSystems (name line : String) : Bool := mentions criticalWords (name ++ " " ++ line).toList

/-- the severity of a match in this target and on this line -/
def adjust (name line : String) (severity : Severity) : Severity :=
  let s := if isCleanTarget name && !affectsCriticalSystems name line then severity.downgrade else severity
  let s := if hasInteractiveFlag line then s.downgrade else s
  if isDevelopmentTarget name && !mentionsProduction line && s == .critical then .warning else s

end MakeAtlas.Safety

/-! ## Checkers

Checking recipes against rules. A checker holds the active rules: those of the catalog that the policy selects, then the
custom ones. A rule with a malformed pattern is skipped, and the checker remembers which. -/

namespace MakeAtlas.Safety

open Makefile (Target)

/-- what is checked, and with which rules; no enabled rules means all of the catalog -/
structure Policy where
  enabled : Bool := true
  enabledRules : List String := []
  excludedTargets : List String := []
  customRules : List Rule := []
  deriving DecidableEq, Repr

/-- a rule that matched a target -/
structure Finding where
  rule : Rule
  line : String
  severity : Severity
  deriving DecidableEq, Repr

/-- everything found in one target; the level is that of the worst finding -/
structure Verdict where
  target : String
  level : Severity
  findings : List Finding
  deriving DecidableEq, Repr

/-- the target must not run without a confirmation -/
def Verdict.needsConfirmation (v : Verdict) : Bool := v.level == .critical

/-- the active rules, and the skipped ones with their first bad pattern -/
structure Checker where
  policy : Policy := {}
  active : List Compiled := []
  skipped : List BadPattern := []

/-- the rules that a policy selects, in the order of evaluation -/
def Policy.selected (p : Policy) (catalog : List Rule) : List Rule :=
  (if p.enabled then catalog.filter fun r => p.enabledRules.isEmpty || p.enabledRules.contains r.id else []) ++
    p.customRules

namespace Checker

variable [Pattern.Dialect]

/-- one more rule; only a malformed pattern may be skipped over -/
def add (c : Checker) (r : Rule) : Except BadPattern Checker :=
  match r.compile with
  | .ok compiled => .ok { c with active := c.active ++ [compiled] }
  | .error bad => if bad.fault == .malformed then .ok { c with skipped := c.skipped ++ [bad] } else .error bad

def build (p : Policy) (catalog : List Rule) : Except BadPattern Checker :=
  (p.selected catalog).foldlM add { policy := p }

def find? (t : Target) (c : Compiled) : Option Finding :=
  (c.firstMatch t.recipe).map fun line => ⟨c.rule, line, adjust t.name line c.rule.severity⟩

def worst (fs : List Finding) : Severity := fs.foldl (fun s f => max s f.severity) .info

/-- what is found in a target; nothing when checks are off or the target is excluded -/
def check (c : Checker) (t : Target) : Option Verdict :=
  if !c.policy.enabled || c.policy.excludedTargets.contains t.name then none
  else
    match c.active.filterMap (find? t) with
    | [] => none
    | findings => some ⟨t.name, worst findings, findings⟩

/-- the verdict of one more target entered; a later target takes the place of an earlier one of its name -/
def enter (c : Checker) (results : Entries Verdict) (t : Target) : Entries Verdict :=
  match c.check t with
  | some v => results.put t.name v
  | none => results.erase t.name

def checkAll (c : Checker) (ts : List Target) : Entries Verdict := ts.foldl c.enter []

end Checker

end MakeAtlas.Safety
