/-
Settings, how they are laid over one another, and the file to start with.
-/
import MakeAtlas.Safety.Checker

/-! ## Settings

Which makefile to read, and what to check in it. Settings hold what was given and only that, so that settings can
be laid over one another: what is given in the upper layer counts, lists of both layers are joined, and what is given in
none has its usual value. -/

namespace MakeAtlas

open Safety (Policy Rule Severity)

namespace Settings

def fileName : String := ".lazymake.yaml"

def fileVariable : String := "LAZYMAKE_CONFIG"

structure CustomRule where
  id : String
  severity : Option Severity := none
  patterns : Option (List String) := none
  description : Option String := none
  suggestion : Option String := none
  deriving DecidableEq, Repr

/-- a custom rule with its usual values filled in -/
def CustomRule.rule (r : CustomRule) : Rule :=
  { id := r.id, severity := r.severity.getD .warning, patterns := r.patterns.getD [],
    description := r.description.getD "", suggestion := r.suggestion.getD "" }

/-- what is given about checking -/
structure Safety where
  enabled : Option Bool := none
  enabledRules : Option (List String) := none
  excludedTargets : Option (List String) := none
  customRules : Option (List CustomRule) := none
  deriving DecidableEq, Repr

/-- two lists of names one after the other, each name once -/
def union (xs ys : List String) : List String := (xs ++ ys).eraseDups

namespace Safety

/-- what is checked -/
def policy (s : Safety) : Policy :=
  { enabled := s.enabled.getD true, enabledRules := s.enabledRules.getD [],
    excludedTargets := s.excludedTargets.getD [], customRules := (s.customRules.getD []).map (·.rule) }

/-- one layer over another -/
def onto (upper lower : Safety) : Safety :=
  { enabled := some (upper.enabled.getD (lower.enabled.getD true))
    enabledRules := some (union (lower.enabledRules.getD []) (upper.enabledRules.getD []))
    excludedTargets := some (union (lower.excludedTargets.getD []) (upper.excludedTargets.getD []))
    customRules := some (lower.customRules.getD [] ++ upper.customRules.getD []) }

end Safety

end Settings

/-- settings as given -/
structure Settings where
  makefile : Option String := none
  safety : Option Settings.Safety := none
  deriving DecidableEq, Repr

namespace Settings

/-- the makefile to read when the user names none -/
def makefileName (s : Settings) : String := s.makefile.getD "Makefile"

/-- what is given about checking, perhaps nothing -/
def checks (s : Settings) : Safety := s.safety.getD {}

/-- what is checked -/
def policy (s : Settings) : Policy := s.checks.policy

/-- one layer over another -/
def onto (upper lower : Settings) : Settings :=
  { makefile := some (upper.makefile.getD lower.makefileName), safety := some (upper.checks.onto lower.checks) }

/-- the settings of a user and of a project as one; the project's are the upper layer -/
def merge : Option Settings → Option Settings → Settings
  | none, none => {}
  | none, some project => project
  | some user, none => user
  | some user, some project => project.onto user

end Settings

end MakeAtlas

/-! ## A file to start with

The settings file to start with: every setting has its usual value, and a comment says what it means. -/

namespace MakeAtlas.Settings

def templateLines : List String :=
  ["# lazymake configuration",
   "#",
   "# Global settings live in ~/.lazymake.yaml, project settings in",
   "# ./.lazymake.yaml. Project values override global ones; lists are combined.",
   "# String values may reference environment variables as $\x7bVAR\x7d.",
   "",
   "# Makefile analyzed when no path is given on the command line",
   "makefile: Makefile",
   "",
   "safety:",
   "  # Set to false to disable dangerous command detection",
   "  enabled: true",
   "",
   "  # Built-in rule IDs to use (empty = all). See `lazymake rules`.",
   "  enabled_rules: []",
   "",
   "  # Targets that are never checked",
   "  exclude_targets: []",
   "",
   "  # Additional rules",
   "  custom_rules: []",
   "  #  - id: prod-deploy",
   "  #    severity: critical   # critical, warning or info",
   "  #    patterns:",
   "  #      - \"deploy.*--env=prod\"",
   "  #    description: Deploys to the production environment.",
   "  #    suggestion: Deploy to staging first."]

/-- the file -/
def template : String := String.join (templateLines.map (· ++ "\n"))

end MakeAtlas.Settings
