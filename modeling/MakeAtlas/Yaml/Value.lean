/-
From nodes to documents. First the merge keys are resolved: the entries of what they name come before the entries beside
them, so that those win. Then every node gets its value by its kind.

Values are built level by level, and the fault of the outermost level counts; among those the first. Keys are built on
the level of their mapping.
-/
import MakeAtlas.Document.Basic
import MakeAtlas.Text.Case
import MakeAtlas.Text.Encoding
import MakeAtlas.Yaml.Node
import MakeAtlas.Yaml.Number

namespace MakeAtlas.Yaml

namespace Node

/-! ### Merging -/

def badEntry : Node × Node := (.scalar .unknown [], absent)

def mergedItem : Node → List (Node × Node)
  | mapping _ es => es
  | loop 1 => []
  | loop n => [(.scalar .str [], .loop n)]
  | _ => [badEntry]

/-- the entries that a merge key adds; a mapping that merges itself gains none -/
def mergedEntries : Node → List (Node × Node)
  | mapping _ es => es
  | sequence _ ns => (ns.reverse.map mergedItem).flatten
  | loop 0 => []
  | loop n => [(.scalar .str [], .loop n)]
  | scalar .. => [badEntry]

/-- the entries of a mapping with its merge keys resolved -/
def withMerged (es : List (Node × Node)) : List (Node × Node) :=
  (es.filter (·.1.tag == .merge)).flatMap (fun e => mergedEntries e.2) ++
    (es.filter (·.1.tag != .merge)).map fun (k, v) =>
      match k with
      | scalar .value text => (scalar .str text, v)
      | k => (k, v)

def textTags : List Tag := [.null, .bool, .int, .float, .timestamp, .str, .binary]

mutual

/-- the text of a scalar, or of what stands under the sign of a value -/
def textOf? : Node → Option Points
  | scalar _ text => some text
  | mapping _ es => textUnder? es
  | _ => none

/-- the text under the first sign of a value -/
def textUnder? : List (Node × Node) → Option Points
  | [] => none
  | (k, v) :: es => if k.tag == .value then textOf? v else textUnder? es

end

/-- a mapping that stands for a scalar -/
def asScalar (t : Tag) (es : List (Node × Node)) : Option Node :=
  if textTags.contains t then (textUnder? es).map (scalar (if t == .timestamp then .mappedTime else t)) else none

mutual

def merge : Node → Node
  | scalar t text => scalar t text
  | loop n => loop n
  | sequence t ns => sequence t (if t == .omap || t == .pairs then mergePairItems ns else mergeItems ns)
  | mapping t es => (asScalar t es).getD (mapping t (withMerged (mergePairs es)))

def mergeItems : List Node → List Node
  | [] => []
  | n :: ns => merge n :: mergeItems ns

/-- every item of a list of pairs; their keys are taken as they are -/
def mergePairItems : List Node → List Node
  | [] => []
  | mapping t es :: ns => mapping t (mergePairs es) :: mergePairItems ns
  | n :: ns => merge n :: mergePairItems ns

/-- every key and value -/
def mergePairs : List (Node × Node) → List (Node × Node)
  | [] => []
  | (k, v) :: es => (merge k, merge v) :: mergePairs es

end

end Node

/-! ### Values -/

/-- a value, or the level of a fault and the fault -/
abbrev Attempt (α : Type) := Except (Nat × Fault) α

/-- two values; of two faults the one of the outer level counts -/
def both {α β : Type} : Attempt α → Attempt β → Attempt (α × β)
  | .ok a, .ok b => .ok (a, b)
  | .ok _, .error f => .error f
  | .error f, .ok _ => .error f
  | .error f, .error g => .error (if g.1 < f.1 then g else f)

/-- names of truth values, in lower case -/
def truthOf? (text : List Char) : Option Bool :=
  let name := String.ofList (Text.toLower text)
  if ["yes", "true", "on"].contains name then some true
  else if ["no", "false", "off"].contains name then some false
  else none

def timeOf (text : List Char) : Except Fault Document :=
  match Implicit.time? (Implicit.withoutLineEnd text) with
  | none => .error .badTime
  | some t => if t.exists? then .ok (.date t) else .error .impossibleTime

def scalarValue (t : Tag) (s : Points) : Except Fault Document :=
  let text := s.lenient
  match t with
  | .null => .ok .null
  | .bool =>
    match truthOf? text with
    | some b => .ok (.bool b)
    | none => .error .unknownTruth
  | .int => (Number.intOf text).map .int
  | .float => (Number.decimalOf text).map .decimal
  | .timestamp => timeOf text
  | .str => .ok (.text s)
  | .binary =>
    if text.all (·.toNat < 0x80) then
      match Text.Base64.decode? text with
      | some bs => .ok (.bytes bs)
      | none => .error .malformed
    else .error .malformed
  | .mappedTime => .error .unwrittenTime
  | _ => .error .malformed

/-- a scalar is built at once; a collection of a wrong kind fails a level further in -/
def isDeferred : Tag → Bool
  | .seq | .map | .set | .omap | .pairs => true
  | _ => false

/-- entries with equal keys brought together -/
def keyed (es : List (Document × Document)) : List (Document × Document) :=
  es.foldl (fun acc e => Document.putEntry e.1 e.2 acc) []

/-- a key is a scalar that is built at once; everything else can change, and is no key -/
def keyValue (level : Nat) : Node → Attempt Document
  | .scalar t text =>
    if isDeferred t then .error (level, .malformed)
    else match scalarValue t text with
      | .ok d => .ok d
      | .error f => .error (level, f)
  | _ => .error (level, .malformed)

mutual

/-- the value of a node at some level; what a collection holds is built one level further in -/
def valueOf (level : Nat) : Node → Attempt Document
  | .scalar t text =>
    match scalarValue t text with
    | .ok d => .ok d
    | .error f => .error (if isDeferred t then level + 1 else level, f)
  | .loop _ => .ok .endless
  | .sequence t ns =>
    match t with
    | .seq => (itemValues (level + 1) ns).map .list
    | .omap => (pairValues (level + 1) ns).map .pairs
    | .pairs => (pairValues (level + 1) ns).map .pairs
    | t => .error (if isDeferred t then level + 1 else level, .malformed)
  | .mapping t es =>
    match t with
    | .map => (entryValues (level + 1) es).map fun es => .mapping (keyed es)
    | .set => (entryValues (level + 1) es).map fun es => .set ((keyed es).map (·.1))
    | t => .error (if isDeferred t then level + 1 else level, .malformed)

def itemValues (level : Nat) : List Node → Attempt (List Document)
  | [] => .ok []
  | n :: ns => (both (valueOf level n) (itemValues level ns)).map fun (d, ds) => d :: ds

/-- the values of keys and of what is under them -/
def entryValues (level : Nat) : List (Node × Node) → Attempt (List (Document × Document))
  | [] => .ok []
  | (k, v) :: es =>
    (both (both (keyValue level k) (valueOf level v)) (entryValues level es)).map fun (e, es) => e :: es

/-- the values of mappings with one entry each -/
def pairValues (level : Nat) : List Node → Attempt (List (Document × Document))
  | [] => .ok []
  | .mapping _ [(k, v)] :: ns =>
    (both (both (valueOf level k) (valueOf level v)) (pairValues level ns)).map fun (e, es) => e :: es
  | _ :: ns => (both (.error (level, .malformed)) (pairValues level ns)).map fun (e, es) => e :: es

end

/-- the document that a text holds; a text without one holds nothing -/
def load (deepest : Nat) (text : List Char) : Except Fault Document := do
  match ← Node.ofText deepest text with
  | none => return .null
  | some n =>
    match valueOf 0 n.merge with
    | .ok d => return d
    | .error (_, f) => throw f

end MakeAtlas.Yaml
