/-
Variables in texts: a dollar sign and a name in braces stand for a value of the environment. A text is read once from
left to right, and what is put in for a name is not read again. Braces without a name, and a brace that is not closed,
stay.

The system keeps names and values as bytes. A name that cannot be written in bytes cannot even be looked up, which is
another fault than that of a name without a value. And calls are nested as deeply as values are, so that there may be no
room for a deep one.
-/
import MakeAtlas.Document.Basic

namespace MakeAtlas

/-- the names of variables, and their values -/
abbrev Environment := List (List UInt8 × List UInt8)

/-- why a document cannot be expanded -/
inductive ExpandFault where
  /-- a variable has no value -/
  | unset (name : Points)
  /-- the name holds half of a surrogate pair that stands for no byte -/
  | unwritable (name : Points)
  /-- there is no room for one more call -/
  | tooDeep
  deriving DecidableEq, Repr

namespace Environment

/-- variables whose names and values are characters -/
def ofTexts (es : List (String × String)) : Environment :=
  es.map fun (name, value) => (Text.Utf8.encode name.toList, Text.Utf8.encode value.toList)

/-- the value under a name -/
def find (env : Environment) (name : Points) : Except ExpandFault Points :=
  match Points.encode? name with
  | none => .error (.unwritable name)
  | some bytes =>
    match env.lookup bytes with
    | none => .error (.unset name)
    | some value => .ok (Points.decode value)

def dollar : CodePoint := .ofChar '$'

def opening : CodePoint := .ofChar '\x7b'

def closing : CodePoint := .ofChar '\x7d'

/-- the name up to the first closing brace, and the text behind the brace -/
def closed? (cs : Points) : Option (Points × Points) :=
  match cs.takeWhile (· != closing), cs.dropWhile (· != closing) with
  | n :: ns, _ :: rest => some (n :: ns, rest)
  | _, _ => none

/-- the name in a reference that starts here, and the text behind it -/
def reference? : Points → Option (Points × Points)
  | d :: b :: cs => if d == dollar && b == opening then closed? cs else none
  | _ => none

theorem length_lt_of_closed? {cs name rest : Points} (h : closed? cs = some (name, rest)) :
    rest.length < cs.length := by
  have hle : (cs.dropWhile (· != closing)).length ≤ cs.length := (List.dropWhile_sublist _).length_le
  unfold closed? at h
  split at h
  next hbehind =>
    obtain ⟨-, rfl⟩ := Prod.mk.inj (Option.some.inj h)
    rw [hbehind, List.length_cons] at hle
    omega
  next => cases h

/-- a reference takes up part of the text -/
theorem length_lt_of_reference? {s name rest : Points} (h : reference? s = some (name, rest)) :
    rest.length < s.length := by
  unfold reference? at h
  split at h
  next =>
    split at h
    next => exact Nat.lt_succ_of_lt (Nat.lt_succ_of_lt (length_lt_of_closed? h))
    next => cases h
  next => cases h

/-- the text with every reference replaced by its value -/
def expand (env : Environment) (s : Points) : Except ExpandFault Points :=
  match h : reference? s with
  | some (name, rest) =>
    have := length_lt_of_reference? h
    do return (← env.find name) ++ (← expand env rest)
  | none =>
    match s with
    | [] => .ok []
    | c :: cs => do return c :: (← expand env cs)
termination_by s.length

end Environment

/-- the room for calls, and how much of it the calls for a value, for what is in a list or a mapping, and for a text
take -/
structure Calls where
  room : Nat
  value : Nat
  list : Nat
  mapping : Nat
  text : Environment → Points → Nat

namespace Calls

/-- go on with the room that is left behind some calls -/
def enter {α : Type} (room need : Nat) (next : Nat → Except ExpandFault α) : Except ExpandFault α :=
  if room < need then .error .tooDeep else next (room - need)

def of (calls : Calls) (env : Environment) : Document → Nat
  | .text s => calls.value + calls.text env s
  | .list _ => calls.value + calls.list
  | .mapping _ => calls.value + calls.mapping
  | _ => calls.value

end Calls

namespace Document

mutual

/-- the document with the variables in all its texts replaced; keys, and what stands in pairs and sets, stay -/
def expand (calls : Calls) (env : Environment) (room : Nat) : Document → Except ExpandFault Document
  | text s => Calls.enter room (calls.of env (text s)) fun _ => do return text (← env.expand s)
  | list xs => Calls.enter room (calls.of env (list xs)) fun room => do return list (← expandItems calls env room xs)
  | mapping es =>
    Calls.enter room (calls.of env (mapping es)) fun room => do return mapping (← expandEntries calls env room es)
  | endless => .error .tooDeep
  | d => Calls.enter room (calls.of env d) fun _ => .ok d

/-- the items one after the other -/
def expandItems (calls : Calls) (env : Environment) (room : Nat) : List Document → Except ExpandFault (List Document)
  | [] => .ok []
  | d :: ds => do
    let x ← expand calls env room d
    return x :: (← expandItems calls env room ds)

/-- the values one after the other -/
def expandEntries (calls : Calls) (env : Environment) (room : Nat) :
    List (Document × Document) → Except ExpandFault (List (Document × Document))
  | [] => .ok []
  | (k, d) :: es => do
    let x ← expand calls env room d
    return (k, x) :: (← expandEntries calls env room es)

end

/-- the entries of the outermost mapping, with the variables replaced -/
def expandMapping (calls : Calls) (env : Environment) (es : List (Document × Document)) :
    Except ExpandFault (List (Document × Document)) :=
  Calls.enter calls.room calls.mapping fun room => expandEntries calls env room es

end Document

end MakeAtlas
