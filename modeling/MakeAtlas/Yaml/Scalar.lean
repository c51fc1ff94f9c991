/-
Scalars: plain texts, texts in quotes, and blocks. Inside a scalar a single line end counts as a space and further ones
stand for themselves, except in a block that keeps its lines.
-/
import MakeAtlas.Text.Encoding
import MakeAtlas.Yaml.Cursor

namespace MakeAtlas.Yaml

/-- the text of a scalar; a plain one has no quotes -/
structure Scalar where
  text : Points
  plain : Bool := false
  deriving DecidableEq, Repr

/-- what a line end and the empty lines after it stand for -/
def folded (first : Char) (more : List Char) : List Char :=
  if first != '\n' then first :: more else if more.isEmpty then [' '] else more

/-! ### Plain scalars -/

/-- the run of a plain scalar ahead: up to a gap, a colon that ends a key, or, in flow, a sign of the flow -/
def plainRun (flow : Bool) : List Char → List Char
  | [] => []
  | c :: cs =>
    let signs := [',', '[', ']', '\x7b', '\x7d']
    if isGap c then []
    else if flow && (c == '?' || signs.contains c) then []
    else if c == ':' && (atGap cs || (flow && cs.head?.any signs.contains)) then []
    else c :: plainRun flow cs

/-- the empty lines ahead, each with its leading spaces; none when a document marker comes first -/
def emptyLines : Nat → Cursor → List Char → Option (List Char) × Cursor
  | 0, c, acc => (some acc.reverse, c)
  | fuel + 1, c, acc =>
    if c.looksAt ' ' then emptyLines fuel c.step acc
    else match c.lineBreak? with
      | none => (some acc.reverse, c)
      | some (b, c) => if c.atMarker then (none, c) else emptyLines fuel c (b :: acc)

/-- what stands between two runs of a plain scalar, whether a line ended in it, and the place after it; nothing ends the
scalar -/
def plainGap (c : Cursor) : List Char × Bool × Cursor :=
  let (spaces, c) := c.takeWhile (· == ' ')
  match c.lineBreak? with
  | none => (spaces, false, c)
  | some (b, c) =>
    if c.atMarker then ([], true, c)
    else match emptyLines (c.rest.length + 1) c [] with
      | (none, c) => ([], true, c)
      | (some more, c) => (folded b more, true, c)

/-- the runs of a plain scalar ahead, indented by at least `indent`, after what stands before the first; tells whether a
line ended after the last one -/
def plainRuns (flow : Bool) (indent : Int) : Nat → Cursor → List Char → Bool → List Char × Bool × Cursor
  | 0, c, _, ended => ([], ended, c)
  | fuel + 1, c, gap, ended =>
    match plainRun flow c.rest with
    | [] => ([], ended, c)
    | run =>
      let (next, ended, c) := plainGap (c.skip run.length)
      if next.isEmpty || c.looksAt '#' || (!flow && (c.column : Int) < indent) then (gap ++ run, ended, c)
      else
        let (more, ended, c) := plainRuns flow indent fuel c next ended
        (gap ++ run ++ more, ended, c)

def plainScalar (flow : Bool) (indent : Int) (c : Cursor) : Scalar × Bool × Cursor :=
  let (text, ended, c) := plainRuns flow indent (c.rest.length + 1) c [] false
  ({ text := .ofChars text, plain := true }, ended, c)

/-! ### Quoted scalars -/

def shortEscapes : List (Char × Char) :=
  [('0', '\x00'), ('a', '\x07'), ('b', '\x08'), ('t', '\t'), ('\t', '\t'), ('n', '\n'), ('v', '\x0b'), ('f', '\x0c'),
   ('r', '\r'), ('e', '\x1b'), (' ', ' '), ('"', '"'), ('\\', '\\'), ('/', '/'), ('N', '\x85'), ('_', '\xa0'),
   ('L', '\u2028'), ('P', '\u2029')]

/-- the value of a hexadecimal digit -/
def hexDigit? (c : Char) : Option Nat :=
  if '0' ≤ c && c ≤ '9' then some (c.toNat - 0x30)
  else if 'a' ≤ c && c ≤ 'f' then some (c.toNat - 0x57)
  else if 'A' ≤ c && c ≤ 'F' then some (c.toNat - 0x37)
  else none

/-- exactly `n` hexadecimal digits -/
def hexNumber? (n : Nat) (cs : List Char) : Option Nat := do
  let ds ← (cs.take n).mapM hexDigit?
  if ds.length == n then some (ds.foldl (fun a d => a * 16 + d) 0) else none

/-- the number of digits that an escape letter asks for -/
def escapeLength? : Char → Option Nat
  | 'x' => some 2
  | 'u' => some 4
  | 'U' => some 8
  | _ => none

/-- the numbers from here on are out of all range -/
def numberLimit : Nat := 0x80000000

def codePoint (n : Nat) : Except Fault CodePoint :=
  if n ≥ numberLimit then .error .numberTooLarge
  else if h : n < 0x110000 then .ok ⟨n, h⟩
  else .error .noCodePoint

/-- the line ends ahead, with the gaps around them -/
def quotedLines : Nat → Cursor → List Char → Except Fault (List Char × Cursor)
  | 0, c, acc => .ok (acc.reverse, c)
  | fuel + 1, c, acc =>
    if c.atMarker then .error .malformed
    else
      let c := c.dropWhile fun x => x == ' ' || x == '\t'
      match c.lineBreak? with
      | some (b, c) => quotedLines fuel c (b :: acc)
      | none => .ok (acc.reverse, c)

/-- the rest of a scalar in quotes; `acc` holds its text, the last character first -/
def quotedFrom (double : Bool) : Nat → Cursor → Points → Except Fault (Scalar × Cursor)
  | 0, _, _ => .error .malformed
  | fuel + 1, c, acc =>
    let lines (c : Cursor) := quotedLines (c.rest.length + 1) c []
    match c.rest with
    | [] => .error .malformed
    | x :: xs =>
      if x == (if double then '"' else '\'') then
        if !double && xs.head? == some '\'' then quotedFrom double fuel (c.skip 2) (.ofChar '\'' :: acc)
        else .ok ({ text := acc.reverse }, c.step)
      else if double && x == '\\' then
        match xs with
        | [] => .error .malformed
        | y :: ys =>
          match shortEscapes.lookup y, escapeLength? y with
          | some z, _ => quotedFrom double fuel (c.skip 2) (.ofChar z :: acc)
          | none, some n =>
            match hexNumber? n ys with
            | none => .error .malformed
            | some code => do
              let z ← codePoint code
              quotedFrom double fuel (c.skip (2 + n)) (z :: acc)
          | none, none =>
            match c.step.lineBreak? with
            | none => .error .malformed
            | some (_, c) => do
              let (more, c) ← lines c
              quotedFrom double fuel c (.ofChars more.reverse ++ acc)
      else if isGap x then
        let (gap, d) := c.takeWhile fun x => x == ' ' || x == '\t'
        match d.rest, d.lineBreak? with
        | [], _ => .error .malformed
        | _, none => quotedFrom double fuel d (.ofChars gap.reverse ++ acc)
        | _, some (b, d) => do
          let (more, d) ← lines d
          quotedFrom double fuel d (.ofChars (folded b more).reverse ++ acc)
      else quotedFrom double fuel c.step (.ofChar x :: acc)

def quotedScalar (double : Bool) (c : Cursor) : Except Fault (Scalar × Cursor) :=
  quotedFrom double (c.rest.length + 1) c.step []

/-! ### Block scalars -/

/-- what a block does with the line ends at its end -/
inductive Chomp where
  | clip
  | strip
  | keep
  deriving DecidableEq, Repr

/-- the sign of how a block ends -/
def chompOf? : Char → Option Chomp
  | '+' => some .keep
  | '-' => some .strip
  | _ => none

/-- a digit from 1 to 9 ahead; a zero is an error -/
def blockIndent (c : Cursor) : Except Fault (Option Nat × Cursor) :=
  match c.rest with
  | x :: _ =>
    if x == '0' then .error .malformed
    else if '1' ≤ x && x ≤ '9' then .ok (some (x.toNat - 0x30), c.step)
    else .ok (none, c)
  | [] => .ok (none, c)

/-- a sign of how the block ends, if it is ahead -/
def blockChomp (c : Cursor) : Option Chomp × Cursor :=
  match c.rest.head?.bind chompOf? with
  | some k => (some k, c.step)
  | none => (none, c)

/-- the signs after the one that starts a block, in either order -/
def blockSigns (c : Cursor) : Except Fault (Chomp × Option Nat × Cursor) := do
  match blockChomp c with
  | (some k, c) =>
    let (n, c) ← blockIndent c
    return (k, n, c)
  | (none, c) =>
    let (n, c) ← blockIndent c
    match n with
    | none => return (.clip, none, c)
    | some _ =>
      let (k, c) := blockChomp c
      return (k.getD .clip, n, c)

/-- the empty lines at the start of a block, and the widest indentation among them and the line after them -/
def blockStart : Nat → Cursor → List Char → Nat → List Char × Nat × Cursor
  | 0, c, acc, widest => (acc.reverse, widest, c)
  | fuel + 1, c, acc, widest =>
    if c.looksAt ' ' then blockStart fuel c.step acc (max widest c.step.column)
    else match c.lineBreak? with
      | some (b, c) => blockStart fuel c (b :: acc) widest
      | none => (acc.reverse, widest, c)

/-- up to the indentation, past the spaces ahead -/
def toIndent (indent : Nat) (c : Cursor) : Cursor :=
  c.skip (min (indent - c.column) (c.rest.takeWhile (· == ' ')).length)

/-- the empty lines ahead in a block, and the indentation of the line after them -/
def blockLines (indent : Nat) : Nat → Cursor → List Char → List Char × Cursor
  | 0, c, acc => (acc.reverse, c)
  | fuel + 1, c, acc =>
    let c := toIndent indent c
    match c.lineBreak? with
    | some (b, c) => blockLines indent fuel c (b :: acc)
    | none => (acc.reverse, c)

/-- the lines of a block: its text so far, the end of its last line, and the empty lines after that -/
def blockBody (fold : Bool) (indent : Nat) : Nat → Cursor → List Char → List Char →
    List Char × List Char × List Char × Cursor
  | 0, c, acc, empty => (acc, [], empty, c)
  | fuel + 1, c, acc, empty =>
    let solid := !(c.looksAt ' ' || c.looksAt '\t')
    let (line, c) := c.takeWhile (!isBreak ·)
    let acc := acc ++ empty ++ line
    let (ending, c) := match c.lineBreak? with
      | some (b, c) => ([b], c)
      | none => ([], c)
    let (empty, c) := blockLines indent (c.rest.length + 1) c []
    if c.column == indent && !c.rest.isEmpty then
      let joined :=
        if fold && ending == ['\n'] && solid && !(c.looksAt ' ' || c.looksAt '\t') then
          (if empty.isEmpty then [' '] else [])
        else ending
      blockBody fold indent fuel c (acc ++ joined) empty
    else (acc, ending, empty, c)

/-- a block, from its sign on; `parent` is the indentation around it -/
def blockScalar (fold : Bool) (parent : Int) (c : Cursor) : Except Fault (Scalar × Cursor) := do
  let (chomp, increment, c) ← blockSigns c.step
  if !atSpace c.rest then throw .malformed
  let c ← c.restOfLine
  let least := (max (parent + 1) 1).toNat
  let fuel := c.rest.length + 1
  let (empty, indent, c) :=
    match increment with
    | none =>
      let (empty, widest, c) := blockStart fuel c [] 0
      (empty, max least widest, c)
    | some n =>
      let indent := least + n - 1
      let (empty, c) := blockLines indent fuel c []
      (empty, indent, c)
  let (text, ending, empty, c) :=
    if c.column == indent && !c.rest.isEmpty then blockBody fold indent fuel c [] empty else ([], [], empty, c)
  let tail := match chomp with
    | .strip => []
    | .clip => ending
    | .keep => ending ++ empty
  return ({ text := .ofChars (text ++ tail) }, c)

end MakeAtlas.Yaml
