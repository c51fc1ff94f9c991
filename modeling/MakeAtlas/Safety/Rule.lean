/-
Rules, and how bad it is that one of them matches.
-/
import MakeAtlas.Pattern.Reader
import MakeAtlas.Pattern.Search
import MakeAtlas.Text.Case
import MakeAtlas.Text.CharClass

/-! ## Severities

How bad it is that a rule matched. -/

namespace MakeAtlas.Safety

/-- from a remark to what needs a confirmation -/
inductive Severity where
  | info
  | warning
  | critical
  deriving DecidableEq, Repr

namespace Severity

/-- every severity, from the lowest -/
def all : List Severity := [info, warning, critical]

def name : Severity → String
  | info => "INFO"
  | warning => "WARNING"
  | critical => "CRITICAL"

/-- the place in the order -/
def rank : Severity → Nat
  | info => 0
  | warning => 1
  | critical => 2

instance : LE Severity := ⟨fun a b => a.rank ≤ b.rank⟩

instance : DecidableLE Severity := fun a b => inferInstanceAs (Decidable (a.rank ≤ b.rank))

instance : Max Severity := ⟨fun a b => if a ≤ b then b else a⟩

/-- one step down; the lowest stays -/
def downgrade : Severity → Severity
  | critical => warning
  | _ => info

/-- the severity of this name; case and the blanks around it do not matter -/
def parse? (text : String) : Option Severity :=
  let name := String.ofList (Text.toUpper (Text.strip text.toList))
  all.find? (·.name == name)

end Severity

end MakeAtlas.Safety

/-! ## Rules

Patterns under a name. A rule matches a recipe at the first line in which one of its patterns is found. -/

namespace MakeAtlas.Safety

structure Rule where
  id : String
  severity : Severity := .warning
  patterns : List String := []
  description : String := ""
  suggestion : String := ""
  deriving DecidableEq, Repr

structure BadPattern where
  rule : String
  pattern : String
  fault : Pattern.Fault
  deriving DecidableEq, Repr

/-- a rule with its patterns read -/
structure Compiled where
  rule : Rule
  nodes : List Pattern.Node

namespace Rule

variable [Pattern.Dialect]

def compileOne (r : Rule) (pattern : String) : Except BadPattern Pattern.Node :=
  match Pattern.compile pattern with
  | .ok n => .ok n
  | .error fault => .error ⟨r.id, pattern, fault⟩

/-- all patterns of the rule, or the first that is none -/
def compile (r : Rule) : Except BadPattern Compiled := do return ⟨r, ← r.patterns.mapM r.compileOne⟩

end Rule

namespace Compiled

/-- a pattern of the rule is found in the line -/
def matchesLine (c : Compiled) (line : String) : Bool := c.nodes.any fun n => Pattern.found n line.toList

def firstMatch (c : Compiled) (recipe : List String) : Option String := recipe.find? c.matchesLine

end Compiled

end MakeAtlas.Safety
