/-
Reading a document into settings. A reading goes on after an issue, a value that does not fit its place, so that all
issues are found; it also counts the severities that nobody knows, which are no issue. Names that settings do not have
do not matter.
-/
import MakeAtlas.Document.Basic
import MakeAtlas.Settings.Basic

namespace MakeAtlas.Settings

/-! ## Issues -/

/-- how a value fails to fit -/
inductive Misfit where
  /-- there must be a value -/
  | missing
  | notText
  /-- it is a text with a character that no text may hold, or bytes that are no text -/
  | brokenText
  | notList
  | notMapping
  | notTruth
  /-- it could be a truth value, and is neither true nor false -/
  | unclearTruth
  deriving DecidableEq, Repr

def Misfit.text : Misfit → String
  | missing => "a value is required"
  | notText => "must be a text"
  | brokenText => "is not a valid text"
  | notList => "must be a list"
  | notMapping => "must be a mapping"
  | notTruth => "must be true or false"
  | unclearTruth => "is neither true nor false"

/-- a misfit and its place, from the outside in -/
structure Issue where
  place : List String
  misfit : Misfit
  deriving DecidableEq, Repr

namespace Issue

def placeText (i : Issue) : String := ".".intercalate i.place

def text (i : Issue) : String := i.placeText ++ " " ++ i.misfit.text

/-- the issue, seen from further outside -/
def under (name : String) (i : Issue) : Issue := { i with place := name :: i.place }

end Issue

/-! ## Readings -/

/-- a value or the issues in its way, and the number of unknown severities -/
structure Reading (α : Type) where
  result : Except (List Issue) α
  unknownSeverities : Nat := 0

namespace Reading

variable {α β : Type}

/-- a single issue at the place itself -/
def issue (m : Misfit) : Reading α := { result := .error [⟨[], m⟩] }

def value (a : α) : Reading α := { result := .ok a }

def applyResult : Except (List Issue) (α → β) → Except (List Issue) α → Except (List Issue) β
  | .ok f, .ok a => .ok (f a)
  | .ok _, .error is => .error is
  | .error is, .ok _ => .error is
  | .error is, .error js => .error (is ++ js)

instance : Applicative Reading where
  pure := value
  seq f x :=
    let x := x ()
    ⟨applyResult f.result x.result, f.unknownSeverities + x.unknownSeverities⟩

/-- the reading, seen from further outside -/
def under (name : String) (r : Reading α) : Reading α :=
  { r with result := r.result.mapError fun is => is.map (·.under name) }

end Reading

/-- how a document is read -/
abbrev Reader (α : Type) := Document → Reading α

namespace Reader

variable {α : Type}

def text : Reader String
  | .text s =>
    match Points.text? s with
    | some t => .value t
    | none => .issue .brokenText
  | .bytes bs =>
    match Text.Utf8.decode? bs with
    | some s => .value (String.ofList s)
    | none => .issue .brokenText
  | _ => .issue .notText

/-- words for true and false, without regard to case -/
def trueWords : List String := ["1", "t", "y", "true", "yes", "on"]

def falseWords : List String := ["0", "f", "n", "false", "no", "off"]

def truthWord (s : List Char) : Reading Bool :=
  let word := String.ofList (s.map Char.toLower)
  if trueWords.contains word then .value true
  else if falseWords.contains word then .value false
  else .issue .unclearTruth

def truthNumber (n : Int) : Reading Bool :=
  if n == 1 then .value true else if n == 0 then .value false else .issue .unclearTruth

/-- the whole numbers that are looked at; larger ones are no truth values at all -/
def isShort (n : Int) : Bool := -0x8000000000000000 ≤ n && n < 0x8000000000000000

/-- a truth value, also as a number or a word -/
def truth : Reader Bool
  | .bool b => .value b
  | .int n => if isShort n then truthNumber n else .issue .notTruth
  | .decimal d =>
    match d.binary.toInt64? with
    | some n => truthNumber n
    | none => .issue .notTruth
  | .text s =>
    match Points.chars? s with
    | some cs => truthWord cs
    | none => .issue .brokenText
  | .bytes bs =>
    match Text.Utf8.decode? bs with
    | some s => truthWord s
    | none => .issue .unclearTruth
  | _ => .issue .notTruth

/-- the name of a severity; nothing, and what names none, is a warning -/
def severity : Reader Safety.Severity
  | .null => .value .warning
  | .text s =>
    match (Points.text? s).bind Safety.Severity.parse? with
    | some v => .value v
    | none => ⟨.ok .warning, 1⟩
  | _ => ⟨.ok .warning, 1⟩

def items (item : Reader α) : Nat → List Document → Reading (List α)
  | _, [] => .value []
  | i, d :: ds => (· :: ·) <$> (item d).under (toString i) <*> items item (i + 1) ds

/-- a list, or another collection without keys -/
def list (item : Reader α) : Reader (List α)
  | .list ds => items item 0 ds
  | .set ds => items item 0 ds
  | .pairs ps => items item 0 (ps.map fun p => .list [p.1, p.2])
  | _ => .issue .notList

def mapping (entries : List (Document × Document) → Reading α) : Reader α
  | .mapping es => entries es
  | _ => .issue .notMapping

/-- what is under a name, if anything is -/
def optional (es : List (Document × Document)) (name : String) (r : Reader α) : Reading (Option α) :=
  match Document.field? name es with
  | some d => some <$> (r d).under name
  | none => .value none

/-- what must be under a name -/
def required (es : List (Document × Document)) (name : String) (r : Reader α) : Reading α :=
  match Document.field? name es with
  | some d => (r d).under name
  | none => (Reading.issue .missing).under name

end Reader

/-! ## The shape of settings -/

def CustomRule.reader : Reader CustomRule := Reader.mapping fun es =>
  CustomRule.mk <$> Reader.required es "id" Reader.text
    <*> Reader.optional es "severity" Reader.severity
    <*> Reader.optional es "patterns" (Reader.list Reader.text)
    <*> Reader.optional es "description" Reader.text
    <*> Reader.optional es "suggestion" Reader.text

/-- what is given about checking -/
def Safety.reader : Reader Safety := Reader.mapping fun es =>
  Safety.mk <$> Reader.optional es "enabled" Reader.truth
    <*> Reader.optional es "enabled_rules" (Reader.list Reader.text)
    <*> Reader.optional es "exclude_targets" (Reader.list Reader.text)
    <*> Reader.optional es "custom_rules" (Reader.list CustomRule.reader)

def reader : Reader Settings := Reader.mapping fun es =>
  Settings.mk <$> Reader.optional es "makefile" Reader.text
    <*> Reader.optional es "safety" Safety.reader

end MakeAtlas.Settings
