/-
From a text to its tokens, one sign or scalar after the other.
-/
import MakeAtlas.Yaml.Token

namespace MakeAtlas.Yaml

/-- a place where a key may have begun: the number of tokens before it, and whether it must be a key -/
structure KeyPlace where
  number : Nat
  required : Bool
  index : Nat
  line : Nat
  column : Nat

/-- how many characters a key can span -/
def longestKey : Nat := 1024

/-- the reader between two tokens; the last token comes first -/
structure Stream where
  cursor : Cursor
  flow : Nat := 0
  indent : Int := -1
  indents : List Int := []
  allowKey : Bool := true
  places : List (Nat × KeyPlace) := []
  tokens : List Token := []

namespace Stream

def push (s : Stream) (t : Token) : Stream := { s with tokens := t :: s.tokens }

/-- a token put in after the first `number` ones -/
def insert (s : Stream) (number : Nat) (t : Token) : Stream :=
  let later := s.tokens.length - number
  { s with tokens := s.tokens.take later ++ t :: s.tokens.drop later }

/-- the blocks that are indented by more than `column` end -/
def unwind (column : Int) : List Int → Stream → Stream
  | outer :: rest, s =>
    if s.indent > column then unwind column rest { s.push .blockEnd with indent := outer, indents := rest } else s
  | [], s => s

/-- the blocks that the indentation ends; in flow it ends none -/
def endBlocks (s : Stream) (column : Int) : Stream := if s.flow == 0 then unwind column s.indents s else s

/-- a block begins at `column`, if it is indented by more than the one around it -/
def deepen (s : Stream) (column : Nat) : Option Stream :=
  if s.indent < (column : Int) then some { s with indent := column, indents := s.indent :: s.indents } else none

/-- the place at this level of flow forgotten; a required key must have been found -/
def forget (s : Stream) : Except Fault Stream :=
  match s.places.lookup s.flow with
  | some p => if p.required then .error .malformed else .ok { s with places := s.places.filter (·.1 != s.flow) }
  | none => .ok s

/-- a key may begin here -/
def remember (s : Stream) : Except Fault Stream := do
  if !s.allowKey then return s
  let s ← s.forget
  let c := s.cursor
  let p : KeyPlace :=
    { number := s.tokens.length, required := s.flow == 0 && s.indent == (c.column : Int)
      index := c.index, line := c.line, column := c.column }
  return { s with places := (s.flow, p) :: s.places }

/-- the place is out of reach of a colon -/
def stale (c : Cursor) (p : KeyPlace) : Bool := p.line != c.line || c.index - p.index > longestKey

/-- places that are out of reach forgotten; a required key must have been found -/
def dropStale (s : Stream) : Except Fault Stream :=
  if s.places.any fun (_, p) => stale s.cursor p && p.required then .error .malformed
  else .ok { s with places := s.places.filter fun (_, p) => !stale s.cursor p }

/-- past spaces, comments and line ends; outside of flow a key may begin after a line end -/
def toNext : Nat → Stream → Stream
  | 0, s => s
  | fuel + 1, s =>
    let c := s.cursor.dropSpaces
    let c := if c.looksAt '#' then c.dropWhile (!isBreak ·) else c
    match c.lineBreak? with
    | some (_, c) => toNext fuel { s with cursor := c, allowKey := s.allowKey || s.flow == 0 }
    | none => { s with cursor := c }

/-- past a byte order mark at the very start, and on to the next token -/
def toToken (s : Stream) : Stream :=
  let c := s.cursor
  let s := if c.index == 0 && c.looksAt '\uFEFF' then { s with cursor := c.step } else s
  s.toNext (c.rest.length + 1)

def sign (s : Stream) (n : Nat) (t : Token) : Stream := { s.push t with cursor := s.cursor.skip n }

/-- the end of the text -/
def finish (s : Stream) : Except Fault Stream := do
  let s ← (s.endBlocks (-1)).forget
  return { s.push .streamEnd with allowKey := false, places := [] }

/-- a directive, or a marker of a document -/
def outside (s : Stream) (read : Cursor → Except Fault (Token × Cursor)) : Except Fault Stream := do
  let s ← (s.endBlocks (-1)).forget
  let (t, c) ← read s.cursor
  return { s.push t with cursor := c, allowKey := false }

def marker (s : Stream) (t : Token) : Except Fault Stream := s.outside fun c => .ok (t, c.skip 3)

/-- a collection in flow begins -/
def openFlow (s : Stream) (t : Token) : Except Fault Stream := do
  let s ← s.remember
  return { s.sign 1 t with flow := s.flow + 1, allowKey := true }

/-- a collection in flow ends -/
def closeFlow (s : Stream) (t : Token) : Except Fault Stream := do
  let s ← s.forget
  return { s.sign 1 t with flow := s.flow - 1, allowKey := false }

def flowEntry (s : Stream) : Except Fault Stream := do
  let s ← s.forget
  return { s.sign 1 .flowEntry with allowKey := true }

/-- a sign outside of flow that may begin a block -/
def beginBlock (s : Stream) (start : Token) : Except Fault Stream :=
  if s.flow != 0 then .ok s
  else if !s.allowKey then .error .malformed
  else match s.deepen s.cursor.column with
    | some s => .ok (s.push start)
    | none => .ok s

/-- a dash before an item -/
def blockEntry (s : Stream) : Except Fault Stream := do
  let s ← s.beginBlock .blockSequence
  let s ← { s with allowKey := true }.forget
  return s.sign 1 .blockEntry

/-- a question mark before a key -/
def explicitKey (s : Stream) : Except Fault Stream := do
  let s ← s.beginBlock .blockMapping
  let s ← { s with allowKey := s.flow == 0 }.forget
  return s.sign 1 .key

/-- a colon: what began at the place kept at this level was a key -/
def valueSign (s : Stream) : Except Fault Stream := do
  match s.places.lookup s.flow with
  | some p =>
    let s := { s with places := s.places.filter (·.1 != s.flow) }.insert p.number .key
    let s := if s.flow != 0 then s
      else match s.deepen p.column with
        | some s => s.insert p.number .blockMapping
        | none => s
    return { s with allowKey := false }.sign 1 .value
  | none =>
    let s ← s.beginBlock .blockMapping
    let s ← { s with allowKey := s.flow == 0 }.forget
    return s.sign 1 .value

/-- a token after which no key can begin, though one may begin with it -/
def atom (s : Stream) (read : Cursor → Except Fault (Token × Cursor)) : Except Fault Stream := do
  let s ← s.remember
  let (t, c) ← read s.cursor
  return { s.push t with cursor := c, allowKey := false }

/-- a plain scalar; when a line has ended after it, a key may begin -/
def plain (s : Stream) : Except Fault Stream := do
  let s ← s.remember
  let (t, ended, c) := plainScalar (s.flow != 0) (s.indent + 1) s.cursor
  return { s.push (.scalar t) with cursor := c, allowKey := ended }

def block (s : Stream) (fold : Bool) : Except Fault Stream := do
  let s ← { s with allowKey := true }.forget
  let (t, c) ← blockScalar fold s.indent s.cursor
  return { s.push (.scalar t) with cursor := c }

/-- the signs that begin no plain scalar -/
def signs : List Char :=
  ['-', '?', ':', ',', '[', ']', '\x7b', '\x7d', '#', '&', '*', '!', '|', '>', '\'', '"', '%', '@', Char.ofNat 0x60]

def beginsPlain (flow : Bool) : List Char → Bool
  | [] => false
  | c :: cs => (!isGap c && !signs.contains c) || (!atGap cs && (c == '-' || (!flow && (c == '?' || c == ':'))))

def quotedToken (double : Bool) (c : Cursor) : Except Fault (Token × Cursor) := do
  let (t, c) ← quotedScalar double c
  return (.scalar t, c)

def next (s : Stream) : Except Fault Stream := do
  let s ← s.toToken.dropStale
  let s := s.endBlocks s.cursor.column
  let c := s.cursor
  let flow := s.flow != 0
  match c.rest with
  | [] => s.finish
  | x :: xs =>
    if x == '%' && c.column == 0 then s.outside Cursor.directive
    else if c.column == 0 && c.atMarker then s.marker (if x == '-' then .documentStart else .documentEnd)
    else if x == '[' then s.openFlow .flowSequence
    else if x == '\x7b' then s.openFlow .flowMapping
    else if x == ']' then s.closeFlow .flowSequenceEnd
    else if x == '\x7d' then s.closeFlow .flowMappingEnd
    else if x == ',' then s.flowEntry
    else if x == '-' && atGap xs then s.blockEntry
    else if x == '?' && (flow || atGap xs) then s.explicitKey
    else if x == ':' && (flow || atGap xs) then s.valueSign
    else if x == '*' then s.atom fun c => do
      let (n, c) ← c.reference
      return (.alias n, c)
    else if x == '&' then s.atom fun c => do
      let (n, c) ← c.reference
      return (.anchor n, c)
    else if x == '!' then s.atom Cursor.tag
    else if x == '|' && !flow then s.block false
    else if x == '>' && !flow then s.block true
    else if x == '\'' then s.atom (quotedToken false)
    else if x == '"' then s.atom (quotedToken true)
    else if beginsPlain flow c.rest then s.plain
    else .error .malformed

/-- token after token to the end, or to the first fault; one unit of fuel for each token -/
def run : Nat → Stream → List Token
  | 0, s => s.tokens.reverse
  | fuel + 1, s =>
    match s.next with
    | .error f => (.failure f :: s.tokens).reverse
    | .ok s => if s.tokens.head? == some .streamEnd then s.tokens.reverse else run fuel s

end Stream

def Token.ofText (text : List Char) : List Token :=
  if text.all isAllowed then Stream.run (text.length + 2) { cursor := { rest := text } } else [.failure .malformed]

end MakeAtlas.Yaml
