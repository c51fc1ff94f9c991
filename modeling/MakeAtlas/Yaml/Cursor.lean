/-
A place in a YAML text, with its line and column. Line ends have been made one before: a line feed, or one of three
further characters, ends a line.
-/

namespace MakeAtlas.Yaml

/-- why a text holds no value -/
inductive Fault where
  /-- it breaks the rules of YAML, or asks for a value that is not allowed -/
  | malformed
  /-- an escape names no code point -/
  | noCodePoint
  /-- an escape names a number out of all range -/
  | numberTooLarge
  /-- a truth value with an unknown name -/
  | unknownTruth
  /-- a number that is none -/
  | badNumber
  /-- a number without digits -/
  | emptyNumber
  /-- a time that is not written as one -/
  | badTime
  /-- a time that does not exist -/
  | impossibleTime
  /-- a mapping in the place of a time -/
  | unwrittenTime
  /-- the bytes are those of no text -/
  | undecodable
  /-- values are nested too deeply -/
  | tooDeep
  deriving DecidableEq, Repr

/-- a character that ends a line -/
def isBreak (c : Char) : Bool := c == '\n' || c == '\x85' || c == '\u2028' || c == '\u2029'

/-- a space, a tab or a line end -/
def isGap (c : Char) : Bool := c == ' ' || c == '\t' || isBreak c

/-- the text is at its end or goes on with a gap -/
def atGap : List Char → Bool
  | [] => true
  | c :: _ => isGap c

/-- the text is at its end or goes on with a space or a line end -/
def atSpace : List Char → Bool
  | [] => true
  | c :: _ => c == ' ' || isBreak c

def atLineEnd : List Char → Bool
  | [] => true
  | c :: _ => isBreak c

/-- a character that a text may hold -/
def isAllowed (c : Char) : Bool :=
  let n := c.toNat
  n == 0x09 || n == 0x0A || n == 0x0D || (0x20 ≤ n && n ≤ 0x7E) || n == 0x85 || (0xA0 ≤ n && n ≤ 0xFFFD) || 0x10000 ≤ n

/-- the rest of the text, and where it starts -/
structure Cursor where
  rest : List Char
  index : Nat := 0
  line : Nat := 0
  column : Nat := 0

namespace Cursor

/-- one character on; a byte order mark takes no column -/
def step (c : Cursor) : Cursor :=
  match c.rest with
  | [] => c
  | x :: xs =>
    if isBreak x then ⟨xs, c.index + 1, c.line + 1, 0⟩
    else ⟨xs, c.index + 1, c.line, if x == '\uFEFF' then c.column else c.column + 1⟩

/-- that many characters on -/
def skip (c : Cursor) : Nat → Cursor
  | 0 => c
  | n + 1 => c.step.skip n

/-- this character comes next -/
def looksAt (c : Cursor) (x : Char) : Bool := c.rest.head? == some x

/-- the characters ahead that satisfy `p`, and the place after them -/
def takeWhile (c : Cursor) (p : Char → Bool) : List Char × Cursor :=
  let taken := c.rest.takeWhile p
  (taken, c.skip taken.length)

/-- the place after the characters ahead that satisfy `p` -/
def dropWhile (c : Cursor) (p : Char → Bool) : Cursor := (c.takeWhile p).2

/-- the place after the spaces ahead -/
def dropSpaces (c : Cursor) : Cursor := c.dropWhile (· == ' ')

/-- the end of a line taken: what it stands for in a text, and the place after it -/
def lineBreak? (c : Cursor) : Option (Char × Cursor) :=
  match c.rest with
  | x :: _ => if isBreak x then some (if x == '\x85' then '\n' else x, c.step) else none
  | [] => none

/-- a line of three dashes or three dots begins here -/
def atMarker (c : Cursor) : Bool :=
  match c.rest with
  | '-' :: '-' :: '-' :: r => atGap r
  | '.' :: '.' :: '.' :: r => atGap r
  | _ => false

/-- spaces, then a comment perhaps, then the end of the line, which is taken too -/
def restOfLine (c : Cursor) : Except Fault Cursor :=
  let c := c.dropSpaces
  let c := if c.looksAt '#' then c.dropWhile (!isBreak ·) else c
  if atLineEnd c.rest then .ok c.step else .error .malformed

end Cursor

end MakeAtlas.Yaml
