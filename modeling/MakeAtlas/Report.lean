/-
What is written about graphs, targets and findings, as text and as JSON.
-/
import MakeAtlas.Graph.Tree
import MakeAtlas.Safety.Checker
import MakeAtlas.Text.Layout

/-! ## JSON

Values as JSON text, laid out over lines. Every level is indented by two spaces; a list or an object without members
stays on one line. Only printable ASCII is written, all other characters are escaped by number. -/

namespace MakeAtlas.Report

/-- a value to be written -/
inductive Json where
  | null
  | bool (b : Bool)
  | nat (n : Nat)
  | text (s : String)
  | list (xs : List Json)
  | object (es : List (String × Json))
  deriving Inhabited, Repr

namespace Json

def texts (xs : List String) : Json := list (xs.map text)

/-- an escape by number, in units of 16 bits -/
def unit (n : Nat) : List Char := '\\' :: 'u' :: Text.hex 4 n

/-- one character between quotes -/
def escaped (c : Char) : List Char :=
  if c == '"' || c == '\\' then ['\\', c]
  else if c == '\n' then ['\\', 'n']
  else if c == '\r' then ['\\', 'r']
  else if c == '\t' then ['\\', 't']
  else if c == '\x08' then ['\\', 'b']
  else if c == '\x0c' then ['\\', 'f']
  else if ' ' ≤ c && c ≤ '~' then [c]
  else if c.toNat < 0x10000 then unit c.toNat
  else unit (0xD800 + (c.toNat - 0x10000) / 0x400) ++ unit (0xDC00 + (c.toNat - 0x10000) % 0x400)

/-- a text between quotes -/
def quoted (s : String) : String := String.ofList ('"' :: s.toList.flatMap escaped ++ ['"'])

def newLine (level : Nat) : String := String.ofList ('\n' :: List.replicate (2 * level) ' ')

/-- members between brackets, one on a line -/
def bracketed (opening closing : String) (level : Nat) (members : List String) : String :=
  if members.isEmpty then opening ++ closing
  else opening ++ newLine (level + 1) ++ ("," ++ newLine (level + 1)).intercalate members ++ newLine level ++ closing

mutual

def write (level : Nat) : Json → String
  | null => "null"
  | bool b => if b then "true" else "false"
  | nat n => toString n
  | text s => quoted s
  | list xs => bracketed "[" "]" level (writeItems (level + 1) xs)
  | object es => bracketed "\x7b" "\x7d" level (writeEntries (level + 1) es)

def writeItems (level : Nat) : List Json → List String
  | [] => []
  | x :: xs => write level x :: writeItems level xs

/-- the members of an object -/
def writeEntries (level : Nat) : List (String × Json) → List String
  | [] => []
  | (k, x) :: es => (quoted k ++ ": " ++ write level x) :: writeEntries level es

end

/-- a value as a text with a line end after it -/
def render (j : Json) : String := j.write 0 ++ "\n"

end Json

end MakeAtlas.Report

/-! ## Graphs

Graphs as text and as JSON. The text is the drawing, what its marks mean, and the names that no target has. -/

namespace MakeAtlas.Report

/-- the lines about names that no target has -/
def missingLines (g : Graph) : List String :=
  if g.missing.isEmpty then []
  else "" :: "Missing dependencies:" :: g.missing.flatMap fun (name, deps) =>
    deps.map fun dep => "  " ++ name ++ " → " ++ dep ++ " " ++ Graph.placeholderDescription

/-- the lines below a drawing; none below an empty graph, or below one that loops -/
def graphNotes (g : Graph) (m : Graph.Marks) : List String :=
  if g.cycle.isSome || g.names.isEmpty then []
  else (if (Graph.legend m).isEmpty then [] else ["", Graph.legend m]) ++ missingLines g

def nodeJson (n : Graph.Node) : Json :=
  .object [("name", .text n.name), ("kind", .text n.kind.name), ("description", .text n.description),
    ("dependencies", .texts n.dependencies), ("dependents", .texts n.dependents), ("order", .nat n.order),
    ("is_critical", .bool n.critical), ("can_parallel", .bool n.parallel)]

def graphJson (g : Graph) : Json :=
  .object [("nodes", .list (g.nodes.map nodeJson)), ("roots", .texts g.roots), ("has_cycle", .bool g.cycle.isSome),
    ("cycle", .texts (g.cycle.getD [])),
    ("missing_deps", .object (g.missing.map fun (name, deps) => (name, .texts deps))),
    ("execution_levels", .object (g.levels.map fun (k, names) => (toString k, .texts names)))]

end MakeAtlas.Report

/-! ## Findings

What the checks found, as text and as JSON, and the rules that they go by. -/

namespace MakeAtlas.Report

open Safety (Finding Rule Severity Verdict)

/-- a line with a heading, unless there is nothing to say -/
def remark (heading text : String) : List String := if text.isEmpty then [] else ["    " ++ heading ++ ": " ++ text]

def findingLines (f : Finding) : List String :=
  ["  [" ++ f.severity.name ++ "] " ++ f.rule.id, "    Command: " ++ f.line] ++
    remark "Why" f.rule.description ++ remark "Suggestion" f.rule.suggestion

/-- the lines of one dangerous target -/
def verdictLines (v : Verdict) : List String :=
  (v.target ++ ": " ++ v.level.name ++ (if v.needsConfirmation then " (requires confirmation)" else "")) ::
    v.findings.flatMap findingLines

/-- how many targets have each severity, the worst first -/
def severityCounts (vs : List Verdict) : List String :=
  [Severity.critical, .warning, .info].filterMap fun s =>
    match vs.countP (·.level == s) with
    | 0 => none
    | n => some (toString n ++ " " ++ String.ofList (s.name.toList.map Char.toLower))

/-- the lines about all dangerous targets, with a summary at the end -/
def verdictsLines (vs : List Verdict) : List String :=
  List.intercalate [""] (vs.map verdictLines) ++
    ["", toString vs.length ++ " dangerous target(s): " ++ ", ".intercalate (severityCounts vs)]

def findingJson (f : Finding) : Json :=
  .object [("rule_id", .text f.rule.id), ("base_severity", .text f.rule.severity.name),
    ("severity", .text f.severity.name), ("matched_line", .text f.line), ("description", .text f.rule.description),
    ("suggestion", .text f.rule.suggestion)]

/-- one dangerous target as JSON -/
def verdictJson (v : Verdict) : Json :=
  .object [("target", .text v.target), ("danger_level", .text v.level.name),
    ("requires_confirmation", .bool v.needsConfirmation), ("matches", .list (v.findings.map findingJson))]

/-- all dangerous targets as JSON, by name -/
def verdictsJson (vs : Entries Verdict) : Json := .object (vs.map fun (name, v) => (name, verdictJson v))

def ruleLines (rules : List Rule) : List String :=
  let width := rules.foldl (fun w r => max w r.id.length) 0
  rules.map fun r => Text.padRight width r.id ++ "  " ++ Text.padRight 8 r.severity.name ++ "  " ++ r.description

def ruleJson (r : Rule) : Json :=
  .object [("id", .text r.id), ("severity", .text r.severity.name), ("patterns", .texts r.patterns),
    ("description", .text r.description), ("suggestion", .text r.suggestion)]

end MakeAtlas.Report

/-! ## Targets

Targets as a table and as JSON, with the severity that the checks came to. -/

namespace MakeAtlas.Report

open Makefile (DocKind Target)
open Safety (Severity Verdict)
open Text (padLeft padRight stripRight)

def levelOf? (verdicts : Entries Verdict) (t : Target) : Option Severity := (verdicts.value? t.name).map (·.level)

/-- how a documentation comment begins -/
def docMark : DocKind → String
  | .none => ""
  | .single => "#"
  | .double => "##"

/-- one row of the table: name, severity, number of dependencies, kind of documentation, description -/
def targetRow (width : Nat) (verdicts : Entries Verdict) (t : Target) : String :=
  stripRight (padRight width t.name ++ "  " ++ padRight 8 (((levelOf? verdicts t).map Severity.name).getD "") ++ "  " ++
    padLeft 4 (toString t.dependencies.length) ++ "  " ++ padRight 3 (docMark t.doc.kind) ++ "  " ++ t.doc.text)

/-- the head of the first column -/
def targetHead : String := "TARGET"

/-- the widest text of the first column -/
def targetWidth (ts : List Target) : Nat := ts.foldl (fun w t => max w t.name.length) targetHead.length

def targetTable (ts : List Target) (verdicts : Entries Verdict) : List String :=
  let width := targetWidth ts
  (padRight width targetHead ++ "  " ++ padRight 8 "SAFETY" ++ "  DEPS  DOC  DESCRIPTION") ::
    ts.map (targetRow width verdicts)

def levelJson (s : Option Severity) : Json := ((s.map Severity.name).map Json.text).getD .null

def targetJson (verdicts : Entries Verdict) (t : Target) : Json :=
  .object [("name", .text t.name), ("description", .text t.doc.text), ("comment_type", .text t.doc.kind.name),
    ("dependencies", .texts t.dependencies), ("recipe", .texts t.recipe),
    ("danger_level", levelJson (levelOf? verdicts t))]

def targetsJson (ts : List Target) (verdicts : Entries Verdict) : Json := .list (ts.map (targetJson verdicts))

end MakeAtlas.Report
