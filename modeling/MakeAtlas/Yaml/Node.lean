/-
YAML nodes: scalars, sequences and mappings, each with its kind. A node is read from tokens by recursive descent. An
alias becomes a copy of the node that it names; an alias to a node that it stands in becomes a loop.
-/
import MakeAtlas.Yaml.Implicit
import MakeAtlas.Yaml.Stream

namespace MakeAtlas.Yaml

inductive Node where
  | scalar (tag : Tag) (text : Points)
  | sequence (tag : Tag) (items : List Node)
  | mapping (tag : Tag) (entries : List (Node × Node))
  /-- the collection that many levels up, itself counted as none -/
  | loop (levels : Nat)
  deriving Inhabited, Repr

namespace Node

/-- what stands where a value is left out -/
def absent : Node := scalar .null []

def tag : Node → Tag
  | scalar t .. => t
  | sequence t _ => t
  | mapping t _ => t
  | loop _ => .unknown

end Node

/-- what the reader of nodes knows between two tokens: the nodes that have a name, and the names of the collections that
are open, the innermost first -/
structure Composer where
  tokens : List Token
  /-- the collections nested at most -/
  deepest : Nat
  handles : List (List Char × List Char) := []
  anchors : List (List Char × Node) := []
  enclosing : List (Option (List Char)) := []

namespace Composer

/-- a step of the reader of nodes -/
abbrev Step := StateT Composer (Except Fault)

/-- the next token, left in place -/
def peek : Step Token := do
  match (← get).tokens with
  | .failure f :: _ => throw f
  | t :: _ => return t
  | [] => throw .malformed

/-- past the next token -/
def drop : Step Unit := modify fun c => { c with tokens := c.tokens.tail }

/-- past the next token if it is this one -/
def accept (t : Token) : Step Bool := do
  if (← peek) == t then
    drop
    return true
  else return false

def atAny (ts : List Token) : Step Bool := do return ts.contains (← peek)

/-- a handle and what it stands for, unless it has been given already -/
def defaultHandles : List (List Char × List Char) := [(['!'], ['!']), (['!', '!'], Tag.stem)]

def tagName (handle : Option (List Char)) (suffix : List Char) : Step (List Char) := do
  match handle with
  | none => return suffix
  | some h =>
    match (← get).handles.lookup h with
    | some stem => return stem ++ suffix
    | none => throw .malformed

/-- what may stand before a node: an anchor and a tag, in either order -/
structure Properties where
  anchor : Option (List Char) := none
  tag : Option (List Char) := none

def anchor : Step (Option (List Char)) := do
  match ← peek with
  | .anchor n =>
    drop
    return some n
  | _ => return none

def tag : Step (Option (List Char)) := do
  match ← peek with
  | .tag h s =>
    drop
    return some (← tagName h s)
  | _ => return none

def properties : Step Properties := do
  match ← anchor with
  | some n => return ⟨some n, ← tag⟩
  | none =>
    match ← tag with
    | some t => return ⟨← anchor, some t⟩
    | none => return {}

namespace Properties

/-- the tag says nothing about the kind -/
def isOpen (p : Properties) : Bool := p.tag == none || p.tag == some ['!']

def kind (p : Properties) (usual : Tag) : Tag := if p.isOpen then usual else Tag.ofName (p.tag.getD [])

/-- the kind of a scalar: a plain one is judged by its looks -/
def scalarKind (p : Properties) (s : Scalar) : Tag :=
  if p.tag == some ['!'] || (s.plain && p.tag == none) then Implicit.tagOf s.text.lenient
  else if p.tag == none then .str
  else Tag.ofName (p.tag.getD [])

end Properties

/-- the name is not in use for another node -/
def checkAnchor (name : Option (List Char)) : Step Unit := do
  let c ← get
  match name with
  | some n => if (c.anchors.lookup n).isSome || c.enclosing.contains (some n) then throw .malformed
  | none => return ()

def register (name : Option (List Char)) (n : Node) : Step Node := do
  if let some a := name then modify fun c => { c with anchors := (a, n) :: c.anchors }
  return n

/-- the node that an alias names -/
def resolve (name : List Char) : Step Node := do
  let c ← get
  match c.anchors.lookup name with
  | some n => return n
  | none =>
    match c.enclosing.findIdx? (· == some name) with
    | some i => return .loop i
    | none => throw .malformed

/-- a collection: its body is read with its name open -/
def enclosed (name : Option (List Char)) (body : Step Node) : Step Node := do
  modify fun c => { c with enclosing := name :: c.enclosing }
  let c ← get
  if c.enclosing.length > c.deepest then throw .tooDeep
  let n ← body
  modify fun c => { c with enclosing := c.enclosing.tail }
  register name n

mutual

/-- a node; `block` allows collections by indentation, `level` also a sequence that is not indented -/
def node (fuel : Nat) (block level : Bool) : Step Node := do
  match fuel with
  | 0 => throw .tooDeep
  | fuel + 1 =>
    match ← peek with
    | .alias name =>
      drop
      resolve name
    | _ =>
      let p ← properties
      checkAnchor p.anchor
      let t ← peek
      if level && t == .blockEntry then
        enclosed p.anchor do return .sequence (p.kind .seq) (← levelItems fuel [])
      else match t with
        | .scalar s =>
          drop
          register p.anchor (.scalar (p.scalarKind s) s.text)
        | .flowSequence =>
          drop
          enclosed p.anchor do return .sequence (p.kind .seq) (← flowItems fuel true [])
        | .flowMapping =>
          drop
          enclosed p.anchor do return .mapping (p.kind .map) (← flowEntries fuel true [])
        | _ =>
          if block && t == .blockSequence then
            drop
            enclosed p.anchor do return .sequence (p.kind .seq) (← blockItems fuel [])
          else if block && t == .blockMapping then
            drop
            enclosed p.anchor do return .mapping (p.kind .map) (← blockEntries fuel [])
          else if p.anchor.isSome || p.tag.isSome then
            register p.anchor (.scalar (p.scalarKind { text := [], plain := true }) [])
          else throw .malformed

/-- a node, or nothing where one of these tokens comes next -/
def nodeUnless (fuel : Nat) (stops : List Token) (block level : Bool) : Step Node := do
  match fuel with
  | 0 => throw .tooDeep
  | fuel + 1 => if ← atAny stops then return .absent else node fuel block level

/-- the items of an indented sequence -/
def blockItems (fuel : Nat) (acc : List Node) : Step (List Node) := do
  match fuel with
  | 0 => throw .tooDeep
  | fuel + 1 =>
    if ← accept .blockEntry then
      let n ← nodeUnless fuel [.blockEntry, .blockEnd] true false
      blockItems fuel (n :: acc)
    else if ← accept .blockEnd then return acc.reverse
    else throw .malformed

/-- the items of a sequence that is not indented -/
def levelItems (fuel : Nat) (acc : List Node) : Step (List Node) := do
  match fuel with
  | 0 => throw .tooDeep
  | fuel + 1 =>
    if ← accept .blockEntry then
      let n ← nodeUnless fuel [.blockEntry, .key, .value, .blockEnd] true false
      levelItems fuel (n :: acc)
    else return acc.reverse

/-- the entries of an indented mapping -/
def blockEntries (fuel : Nat) (acc : List (Node × Node)) : Step (List (Node × Node)) := do
  match fuel with
  | 0 => throw .tooDeep
  | fuel + 1 =>
    if ← accept .key then
      let stops : List Token := [.key, .value, .blockEnd]
      let k ← nodeUnless fuel stops true true
      let v ← if ← accept .value then nodeUnless fuel stops true true else pure .absent
      blockEntries fuel ((k, v) :: acc)
    else if ← accept .blockEnd then return acc.reverse
    else throw .malformed

/-- the value after a key in flow, where `close` ends the collection -/
def flowValue (fuel : Nat) (close : Token) : Step Node := do
  match fuel with
  | 0 => throw .tooDeep
  | fuel + 1 => if ← accept .value then nodeUnless fuel [.flowEntry, close] false false else return .absent

/-- the items of a sequence in flow; a key in it makes a mapping of one entry -/
def flowItems (fuel : Nat) (first : Bool) (acc : List Node) : Step (List Node) := do
  match fuel with
  | 0 => throw .tooDeep
  | fuel + 1 =>
    if ← accept .flowSequenceEnd then return acc.reverse
    else
      if !first then if !(← accept .flowEntry) then throw .malformed
      if ← accept .key then
        let n ← enclosed none do
          let k ← nodeUnless fuel [.value, .flowEntry, .flowSequenceEnd] false false
          let v ← flowValue fuel .flowSequenceEnd
          return .mapping .map [(k, v)]
        flowItems fuel false (n :: acc)
      else if ← accept .flowSequenceEnd then return acc.reverse
      else
        let n ← node fuel false false
        flowItems fuel false (n :: acc)

/-- the entries of a mapping in flow; a node without the sign of a key has no value -/
def flowEntries (fuel : Nat) (first : Bool) (acc : List (Node × Node)) : Step (List (Node × Node)) := do
  match fuel with
  | 0 => throw .tooDeep
  | fuel + 1 =>
    if ← accept .flowMappingEnd then return acc.reverse
    else
      if !first then if !(← accept .flowEntry) then throw .malformed
      if ← accept .key then
        let k ← nodeUnless fuel [.value, .flowEntry, .flowMappingEnd] false false
        let v ← flowValue fuel .flowMappingEnd
        flowEntries fuel false ((k, v) :: acc)
      else if ← accept .flowMappingEnd then return acc.reverse
      else
        let k ← node fuel false false
        flowEntries fuel false ((k, .absent) :: acc)

end

/-- the directives ahead: at most one version, which must be 1, and each handle once -/
def directives : List Token → Bool → List (List Char × List Char) →
    Except Fault (List (List Char × List Char) × List Token)
  | .version major :: ts, seen, handles =>
    if seen || major != 1 then .error .malformed else directives ts true handles
  | .tagHandle h stem :: ts, seen, handles =>
    if (handles.lookup h).isSome then .error .malformed else directives ts seen ((h, stem) :: handles)
  | .directive :: ts, seen, handles => directives ts seen handles
  | ts, _, handles => .ok (handles ++ defaultHandles, ts)

/-- a document that starts with its marker, perhaps after directives -/
def marked (fuel : Nat) : Step Node := do
  let (handles, rest) ← directives (← get).tokens false []
  modify fun c => { c with tokens := rest, handles }
  if !(← accept .documentStart) then throw .malformed
  match ← peek with
  | .version _ | .tagHandle .. | .directive | .documentStart | .documentEnd | .streamEnd => return .absent
  | _ => node fuel true false

/-- past any number of markers that end a document -/
def pastEnds : Nat → Step Unit
  | 0 => return ()
  | fuel + 1 => do if ← accept .documentEnd then pastEnds fuel

/-- the only document of a stream, if there is one -/
def single : Step (Option Node) := do
  let fuel := 3 * (← get).tokens.length + 8
  let document ← match ← peek with
    | .streamEnd => return none
    | .version _ | .tagHandle .. | .directive | .documentStart => marked fuel
    | _ =>
      modify fun c => { c with handles := defaultHandles }
      node fuel true false
  pastEnds fuel
  if (← peek) == .streamEnd then return some document else throw .malformed

end Composer

def Node.ofText (deepest : Nat) (text : List Char) : Except Fault (Option Node) :=
  (Composer.single { tokens := Token.ofText text, deepest }).map (·.1)

end MakeAtlas.Yaml
