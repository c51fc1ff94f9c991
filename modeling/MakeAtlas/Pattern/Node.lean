/-
Patterns as trees, and the tests of one character at their leaves.
-/
import MakeAtlas.Text.Case
import MakeAtlas.Text.CharClass

/-! ## Trees

Patterns as trees. A tree is free of flags: every leaf carries the mode in which it is compared. Code points are
numbers, since a pattern can name one that no text holds. -/

namespace MakeAtlas.Pattern

/-- how a leaf is compared -/
structure Mode where
  ignoreCase : Bool := false
  multiline : Bool := false
  dotAll : Bool := false
  ascii : Bool := false
  deriving DecidableEq, Repr

inductive CharClass where
  | digit
  | space
  | word
  deriving DecidableEq, Repr

inductive Member where
  | code (n : Nat)
  | range (lo hi : Nat)
  | named (cls : CharClass) (negated : Bool)
  deriving DecidableEq, Repr

/-- a test of one character -/
inductive Single where
  | any
  | code (n : Nat)
  | notCode (n : Nat)
  | set (negated : Bool) (members : List Member)
  deriving DecidableEq, Repr

/-- a test of a place between characters -/
inductive Anchor where
  | lineStart
  | lineEnd
  | textStart
  | textEnd
  | boundary
  | noBoundary
  deriving DecidableEq, Repr

/-- which number of repetitions is tried first, and whether another may be tried after it -/
inductive Style where
  | greedy
  | lazy
  | possessive
  deriving DecidableEq, Repr

/-- a pattern; `behind` holds the number of characters that its body spans -/
inductive Node where
  | empty
  | one (mode : Mode) (test : Single)
  | at (mode : Mode) (anchor : Anchor)
  | seq (first second : Node)
  | alt (first second : Node)
  | repeat (style : Style) (least : Nat) (most : Option Nat) (body : Node)
  | group (index : Nat) (body : Node)
  | atomic (body : Node)
  | ahead (holds : Bool) (body : Node)
  | behind (holds : Bool) (width : Nat) (body : Node)
  | backref (mode : Mode) (index : Nat)
  | ifGroup (index : Nat) (yes no : Node)
  deriving DecidableEq, Repr

namespace Node

/-- one pattern after the other -/
def ofSeq : List Node → Node
  | [] => empty
  | [n] => n
  | n :: ns => seq n (ofSeq ns)

/-- the first of these patterns that leads to a match -/
def ofAlt : List Node → Node
  | [] => empty
  | [n] => n
  | n :: ns => alt n (ofAlt ns)

/-- a repetition -/
def isRepeat : Node → Bool
  | .repeat .. => true
  | _ => false

/-- a test of a place -/
def isAnchor : Node → Bool
  | .at .. => true
  | _ => false

/-- what counts as an unlimited width -/
def unlimited : Nat := 0x10000000000000000

/-- the least and the greatest number of characters that a match can span; `spans` has those of the groups -/
def width (spans : List (Nat × Nat × Nat)) : Node → Nat × Nat
  | empty => (0, 0)
  | one .. => (1, 1)
  | .at .. => (0, 0)
  | seq a b =>
    let (i, j) := width spans a
    let (l, h) := width spans b
    (i + l, j + h)
  | alt a b =>
    let (i, j) := width spans a
    let (l, h) := width spans b
    (min i l, max j h)
  | .repeat _ least most body =>
    let (i, j) := width spans body
    (i * least, match most with
      | some m => j * m
      | none => if j == 0 then 0 else unlimited)
  | group _ body => width spans body
  | atomic body => width spans body
  | ahead .. => (0, 0)
  | behind .. => (0, 0)
  | backref _ index => (spans.lookup index).getD (0, 0)
  | ifGroup _ yes no =>
    let (i, j) := width spans yes
    let (l, h) := width spans no
    (min i l, max j h)

end Node

end MakeAtlas.Pattern

/-! ## Tests of one character

Ignoring case, two characters are equal when they fold to the same form; in ASCII mode only ASCII
letters fold. A set is a little weaker on members beyond U+FFFF: there the lower-case form of the character is looked
up, and for a range also the upper-case form of that. -/

namespace MakeAtlas.Pattern

open Text

/-- the lower-case form of an ASCII letter -/
def asciiLower (n : Nat) : Nat := if 0x41 ≤ n && n ≤ 0x5A then n + 32 else n

/-- the upper-case form of an ASCII letter -/
def asciiUpper (n : Nat) : Nat := if 0x61 ≤ n && n ≤ 0x7A then n - 32 else n

def CharClass.holds (ascii : Bool) (c : Nat) : CharClass → Bool
  | digit => if ascii then 0x30 ≤ c && c ≤ 0x39 else isDigit c
  | space => if ascii then c == 0x20 || (0x09 ≤ c && c ≤ 0x0D) else blankRanges.has c
  | word => if ascii then isAsciiAlnum c || c == 0x5F else isWordChar c

namespace Mode

/-- the lower-case form in this mode -/
def lower (m : Mode) (c : Nat) : Nat := if m.ascii then asciiLower c else lowerCode c

/-- the same character, in this mode -/
def same (m : Mode) (a b : Nat) : Bool :=
  a == b || (m.ignoreCase && (if m.ascii then asciiLower a == asciiLower b else foldCase a == foldCase b))

/-- the characters that are the same as this one when case is ignored -/
def variants (m : Mode) (c : Nat) : List Nat :=
  if m.ascii then [c, asciiLower c, asciiUpper c]
  else
    let key := foldCase c
    let lowers := c :: key ++ match key with
      | [k] => upperRows.filterMap (·.source? k)
      | _ => longUpper.filterMap fun e => if e.2 == key then some e.1 else none
    (lowers ++ lowers.flatMap fun l => lowerRows.filterMap (·.source? l)).filter (foldCase · == key)

end Mode

/-- a range of code points -/
def between (lo hi c : Nat) : Bool := lo ≤ c && c ≤ hi

/-- the character belongs to the member of a set -/
def Member.holds (m : Mode) (c : Nat) : Member → Bool
  | code n => if m.ignoreCase && n ≥ 0x10000 then m.lower c == n else m.same c n
  | range lo hi =>
    if !m.ignoreCase then between lo hi c
    else
      (m.variants c).any (between lo (min hi 0xFFFF)) ||
        (hi ≥ 0x10000 && (between lo hi (m.lower c) || (upperCodes (m.lower c)).any (between (max lo 0x10000) hi)))
  | named cls negated => cls.holds m.ascii c != negated

/-- the character passes the test -/
def Single.holds (m : Mode) (c : Nat) : Single → Bool
  | any => m.dotAll || c != 0x0A
  | code n => m.same c n
  | notCode n => !m.same c n
  | set negated members => (members.any (·.holds m c)) != negated

end MakeAtlas.Pattern
