/-
YAML as tokens: the signs of the notation, its scalars, and the starts and ends of blocks, which no sign marks but the
indentation does.

What turns out to be a key is noticed only at the colon after it, so the reader keeps the places where a key may have
begun, at most one for each level of flow, and puts the sign of a key in later. A key must stand on one line and be
short.
-/
import MakeAtlas.Text.Encoding
import MakeAtlas.Yaml.Scalar

namespace MakeAtlas.Yaml

/-- a sign of the notation, or a scalar -/
inductive Token where
  | version (major : Nat)
  | tagHandle (handle stem : List Char)
  | directive
  | documentStart
  | documentEnd
  | blockSequence
  | blockMapping
  | blockEnd
  | flowSequence
  | flowSequenceEnd
  | flowMapping
  | flowMappingEnd
  | blockEntry
  | flowEntry
  | key
  | value
  | alias (name : List Char)
  | anchor (name : List Char)
  | tag (handle : Option (List Char)) (suffix : List Char)
  | scalar (s : Scalar)
  | streamEnd
  /-- the text cannot be read beyond this place -/
  | failure (f : Fault)
  deriving DecidableEq, Repr

/-- a letter, a digit, a dash or an underscore -/
def isNameChar (c : Char) : Bool :=
  ('0' ≤ c && c ≤ '9') || ('A' ≤ c && c ≤ 'Z') || ('a' ≤ c && c ≤ 'z') || c == '-' || c == '_'

def isTagChar (c : Char) : Bool :=
  isNameChar c ||
    [';', '/', '?', ':', '@', '&', '=', '+', '$', ',', '.', '!', '~', '*', '\'', '(', ')', '[', ']'].contains c

namespace Cursor

/-- a name, which must not be empty -/
def name (c : Cursor) : Except Fault (List Char × Cursor) :=
  match c.takeWhile isNameChar with
  | ([], _) => .error .malformed
  | (n, c) => .ok (n, c)

/-- this character must come next -/
def expect (c : Cursor) (x : Char) : Except Fault Cursor := if c.looksAt x then .ok c.step else .error .malformed

/-- the bytes of the escapes ahead, each a percent sign and two digits -/
def escapedBytes : Nat → Cursor → Except Fault (List UInt8 × Cursor)
  | 0, c => .ok ([], c)
  | fuel + 1, c =>
    match c.rest with
    | '%' :: ds =>
      match hexNumber? 2 ds with
      | none => .error .malformed
      | some n => do
        let (bs, c) ← escapedBytes fuel (c.skip 3)
        return (UInt8.ofNat n :: bs, c)
    | _ => .ok ([], c)

def tagText : Nat → Cursor → Except Fault (List Char × Cursor)
  | 0, c => .ok ([], c)
  | fuel + 1, c =>
    match c.takeWhile isTagChar with
    | (run, c) =>
      if !c.looksAt '%' then .ok (run, c)
      else do
        let (bytes, c) ← escapedBytes (c.rest.length + 1) c
        match Text.Utf8.decode? bytes with
        | none => .error .malformed
        | some escaped =>
          let (more, c) ← tagText fuel c
          return (run ++ escaped ++ more, c)

/-- the text of a tag, which must not be empty -/
def tagSuffix (c : Cursor) : Except Fault (List Char × Cursor) := do
  let (text, d) ← tagText (c.rest.length + 1) c
  if d.index == c.index then throw .malformed else return (text, d)

/-- the handle of a tag: an exclamation mark, or a name between two -/
def tagHandle (c : Cursor) : Except Fault (List Char × Cursor) := do
  let c ← c.expect '!'
  if c.looksAt ' ' then return (['!'], c)
  let (name, c) := c.takeWhile isNameChar
  if name.isEmpty && !c.looksAt '!' then throw .malformed
  let c ← c.expect '!'
  return ('!' :: name ++ ['!'], c)

def tag (c : Cursor) : Except Fault (Token × Cursor) := do
  let after := c.rest.drop 1
  let (token, c) ←
    if after.head? == some '<' then do
      let (suffix, c) ← (c.skip 2).tagSuffix
      pure (Token.tag none suffix, ← c.expect '>')
    else if atGap after then pure (Token.tag none ['!'], c.step)
    else if (after.takeWhile fun x => x != ' ' && !isBreak x).contains '!' then do
      let (handle, c) ← c.tagHandle
      let (suffix, c) ← c.tagSuffix
      pure (Token.tag (some handle) suffix, c)
    else do
      let (suffix, c) ← c.step.tagSuffix
      pure (Token.tag (some ['!']) suffix, c)
  if atSpace c.rest then return (token, c) else throw .malformed

/-- the name of an anchor or an alias, after its sign -/
def reference (c : Cursor) : Except Fault (List Char × Cursor) := do
  let (name, c) ← c.step.name
  if atGap c.rest || ['?', ':', ',', ']', '\x7d', '%', '@', Char.ofNat 0x60].any c.looksAt then return (name, c)
  else throw .malformed

def versionNumber (c : Cursor) : Except Fault (Nat × Cursor) :=
  match c.takeWhile fun x => '0' ≤ x && x ≤ '9' with
  | ([], _) => .error .malformed
  | (ds, c) => .ok (ds.foldl (fun n d => n * 10 + (d.toNat - 0x30)) 0, c)

/-- a directive, with the line that it stands on -/
def directive (c : Cursor) : Except Fault (Token × Cursor) := do
  let (name, c) ← c.step.name
  if !atSpace c.rest then throw .malformed
  let (token, c) ←
    match name with
    | ['Y', 'A', 'M', 'L'] => do
      let (major, c) ← c.dropSpaces.versionNumber
      let (_, c) ← (← c.expect '.').versionNumber
      if !atSpace c.rest then throw .malformed
      pure (Token.version major, c)
    | ['T', 'A', 'G'] => do
      let (handle, c) ← c.dropSpaces.tagHandle
      if !c.looksAt ' ' then throw .malformed
      let (stem, c) ← c.dropSpaces.tagSuffix
      if !atSpace c.rest then throw .malformed
      pure (Token.tagHandle handle stem, c)
    | _ => pure (Token.directive, c.dropWhile (!isBreak ·))
  return (token, ← c.restOfLine)

end Cursor

end MakeAtlas.Yaml
