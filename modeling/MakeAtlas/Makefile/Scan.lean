/-
Makefiles: targets, the kinds of lines, and the reader that makes targets of lines.
-/
import MakeAtlas.Text.CharClass
import MakeAtlas.Text.Encoding
import MakeAtlas.Text.Layout

/-! ## Targets

A target of a makefile: its name, the comment that documents it, the names it waits for, and the commands of its
recipe. -/

namespace MakeAtlas.Makefile

/-- where a description comes from: nowhere, a `#` comment, or a `##` comment -/
inductive DocKind where
  | none
  | single
  | double
  deriving DecidableEq, Repr

/-- the kind as written in reports -/
def DocKind.name : DocKind → String
  | none => "none"
  | single => "single"
  | double => "double"

/-- a comment: its kind and its text without the marks and the blanks around it -/
structure Doc where
  kind : DocKind := .none
  text : String := ""
  deriving DecidableEq, Repr

structure Target where
  name : String
  doc : Doc := {}
  dependencies : List String := []
  recipe : List String := []
  deriving DecidableEq, Repr

namespace Target

/-- what the target says about itself -/
def description (t : Target) : String := t.doc.text

end Target

end MakeAtlas.Makefile

/-! ## Lines

One line of a makefile, and what it is: blank, a command of a recipe, a comment, a header that declares targets, or
anything else. The kind of a line depends on that line alone.

A header is a line with a colon that is no assignment. Its names stand before the first colon, its prerequisites between
the colon (or two) and the first `#`, and a comment may follow. A header whose name part starts with a dot declares
nothing. -/

namespace MakeAtlas.Makefile

open Text

/-- what a header line declares -/
structure Header where
  names : List String
  inline : Doc
  dependencies : List String
  deriving DecidableEq, Repr

/-- the kinds of lines -/
inductive Line where
  | blank
  | command (text : String)
  | comment (doc : Doc)
  | header (h : Header)
  | other
  deriving DecidableEq, Repr

/-- the line without the carriage returns and line feeds at its end -/
def chomp (raw : List Char) : List Char := dropEndWhile (fun c => c == '\r' || c == '\n') raw

/-- an assignment: `:=`, `?=` or `+=` anywhere, or a `=` before the first colon -/
def isAssignment (line : List Char) : Bool :=
  occursIn [':', '='] line || occursIn ['?', '='] line || occursIn ['+', '='] line ||
    (line.contains ':' && (line.takeWhile (· != ':')).contains '=')

/-- a prerequisite that can name a target: no variable, no pattern, no file path -/
def namesTarget (word : List Char) : Bool :=
  word.head? != some '$' && !word.contains '%' && word.count '/' ≤ 1 && !(word.contains '/' && word.contains '.')

/-- the targets named among the prerequisites; those after a `|` only order the build and are left out -/
def prerequisites (text : List Char) : List String :=
  ((fields (text.takeWhile (· != '|'))).filter namesTarget).map String.ofList

/-- a comment text, from what follows its mark -/
def Doc.of (kind : DocKind) (rest : List Char) : Doc := ⟨kind, String.ofList (strip rest)⟩

/-- the comment inside a header: after the first `##`, else after the first `#` -/
def inlineDoc (text : List Char) : Doc :=
  match splitAround ['#', '#'] text with
  | some (_, rest) => .of .double rest
  | none =>
    match splitAround ['#'] text with
    | some (_, rest) => .of .single rest
    | none => {}

/-- the header with this text before its first colon and this text after it -/
def Header.of (before after : List Char) : Header :=
  let names := strip before
  let rest := match after with
    | ':' :: r => r
    | r => r
  { names := if names.head? == some '.' then [] else (fields names).map String.ofList
    inline := inlineDoc rest
    dependencies := prerequisites (rest.takeWhile (· != '#')) }

/-- a line that consists of a comment, from its text without the blanks around it -/
def commentLine? : List Char → Option Doc
  | '#' :: '#' :: rest => some (.of .double rest)
  | '#' :: rest => some (.of .single rest)
  | _ => none

def Line.classify (raw : List Char) : Line :=
  let line := chomp raw
  let trimmed := strip line
  if trimmed.isEmpty then .blank
  else match line with
    | '\t' :: text => .command (String.ofList text)
    | _ =>
      match commentLine? trimmed with
      | some doc => .comment doc
      | none =>
        if line.contains ':' && !isAssignment line then
          .header (.of (line.takeWhile (· != ':')) ((line.dropWhile (· != ':')).drop 1))
        else .other

end MakeAtlas.Makefile

/-! ## Reading

Reading a makefile: one step per line, from the first to the last. A header opens a block; the commands that follow are
its recipe, shared by all targets of the header; a blank line, a comment or the next header closes it. A comment waits
for the next header, unless a blank line comes first. -/

namespace MakeAtlas.Makefile

open Text

/-- the state between two lines: the targets of closed blocks, the open block, and the comment that waits -/
structure Scan where
  closed : List Target := []
  block : List Target := []
  recipe : List String := []
  waiting : Doc := {}

namespace Scan

/-- the targets of all blocks, the open one included -/
def targets (s : Scan) : List Target := s.closed ++ s.block.map fun t => { t with recipe := s.recipe }

/-- the open block closed, no block open -/
def close (s : Scan) : Scan := { closed := s.targets }

/-- the targets that a header declares, given the comment that waits for it -/
def declared (waiting : Doc) (h : Header) : List Target :=
  let doc := if h.inline.text.isEmpty then waiting else h.inline
  h.names.map fun name => { name, doc, dependencies := h.dependencies }

def step (s : Scan) : Line → Scan
  | .blank => s.close
  | .command text => { s with recipe := if s.block.isEmpty then [] else s.recipe ++ [text] }
  | .comment doc => { s.close with waiting := doc }
  | .header h => { s.close with block := declared s.waiting h }
  | .other => s

/-- all lines from the empty state -/
def run (ls : List Line) : Scan := ls.foldl step {}

end Scan

def ofLines (ls : List (List Char)) : List Target := (Scan.run (ls.map Line.classify)).targets

def ofText (text : String) : List Target := ofLines (lines text.toList)

def ofBytes (bytes : List UInt8) : List Target := ofLines (fileLines (Utf8.decodeLenient bytes))

end MakeAtlas.Makefile
