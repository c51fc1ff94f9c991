/-
Variables in a document, part by part. The parts of a document are all values in it, in the order in which they are come
to: a value is followed by what is in it. Keys are no parts, and pairs and sets are single ones, since nothing in them
is replaced. The leaves are the parts that hold nothing further.
- `Part`, `parts`: a value with the room for calls that is left where it stands, and the calls that it takes.
- `Part.Fails`, `fault?_eq_some_iff`: a part fails for want of room, or as its text does.
- `faultOf_expand`, `faultOf_expandMapping`: replacing all variables of a document fails as its first bad part does.
- `findSome?_parts`: with room for every part that is the first bad leaf.
-/
import Mathlib.Tactic
import MakeAtlas.Proofs.Document.References

namespace MakeAtlas.Document

/-! ## Parts -/

/-- a value of a document, with the room for calls where it stands and the calls that it takes -/
structure Part where
  room : ℕ
  need : ℕ
  value : Document

mutual

/-- the parts of a document: the whole, and then the parts of what is in it -/
def parts (calls : Calls) (env : Environment) (room : ℕ) : Document → List Part
  | list xs => ⟨room, calls.of env (list xs), list xs⟩ :: partsOfItems calls env (room - calls.of env (list xs)) xs
  | mapping es => ⟨room, calls.of env (mapping es), mapping es⟩ ::
    partsOfEntries calls env (room - calls.of env (mapping es)) es
  | d => [⟨room, calls.of env d, d⟩]

def partsOfItems (calls : Calls) (env : Environment) (room : ℕ) : List Document → List Part
  | [] => []
  | d :: ds => parts calls env room d ++ partsOfItems calls env room ds

def partsOfEntries (calls : Calls) (env : Environment) (room : ℕ) : List (Document × Document) → List Part
  | [] => []
  | (_, d) :: es => parts calls env room d ++ partsOfEntries calls env room es

end

/-- the outermost mapping, and then the parts of its values -/
def partsOfMapping (calls : Calls) (env : Environment) (es : List (Document × Document)) : List Part :=
  ⟨calls.room, calls.mapping, mapping es⟩ :: partsOfEntries calls env (calls.room - calls.mapping) es

mutual

/-- the parts that hold nothing further, from left to right -/
def leaves : Document → List Document
  | list xs => leavesOfItems xs
  | mapping es => leavesOfEntries es
  | d => [d]

def leavesOfItems : List Document → List Document
  | [] => []
  | d :: ds => leaves d ++ leavesOfItems ds

def leavesOfEntries : List (Document × Document) → List Document
  | [] => []
  | (_, d) :: es => leaves d ++ leavesOfEntries es

end

/-! ## Faults -/

/-- why the variables in a value cannot be replaced, whatever room there is -/
def fault? (env : Environment) : Document → Option ExpandFault
  | text s => faultOf (env.expand s)
  | endless => some .tooDeep
  | _ => none

namespace Part

/-- a part fails when there is no room for its calls, when it is found inside itself, or as its text does -/
inductive Fails (env : Environment) (p : Part) : ExpandFault → Prop where
  | noRoom (h : p.room < p.need) : Fails env p .tooDeep
  | endless (h : p.value = endless) : Fails env p .tooDeep
  | text {s : Points} {f : ExpandFault} (hroom : p.need ≤ p.room) (hvalue : p.value = text s)
    (h : env.expand s = .error f) :
    Fails env p f

def fault? (env : Environment) (p : Part) : Option ExpandFault :=
  if p.room < p.need then some .tooDeep else p.value.fault? env

theorem fault?_of_room {env : Environment} {p : Part} (h : p.need ≤ p.room) : p.fault? env = p.value.fault? env :=
  if_neg (Nat.not_lt.2 h)

theorem fault?_eq_some_iff {env : Environment} {p : Part} {f : ExpandFault} :
    p.fault? env = some f ↔ p.Fails env f := by
  constructor
  · intro h
    rcases Nat.lt_or_ge p.room p.need with hshort | hroom
    · rw [fault?, if_pos hshort, Option.some.injEq] at h
      exact h ▸ .noRoom hshort
    · rw [fault?_of_room hroom] at h
      cases hvalue : p.value with
      | text s =>
        rw [hvalue, Document.fault?, faultOf_eq_some_iff] at h
        exact .text hroom hvalue h
      | endless =>
        rw [hvalue, Document.fault?, Option.some.injEq] at h
        exact h ▸ .endless hvalue
      | _ => simp [hvalue, Document.fault?] at h
  · intro h
    cases h with
    | noRoom h => exact if_pos h
    | endless h =>
      rw [fault?, h, Document.fault?]
      split <;> rfl
    | text hroom hvalue h => rw [fault?_of_room hroom, hvalue, Document.fault?, h, faultOf]

theorem fault?_eq_none_iff {env : Environment} {p : Part} : p.fault? env = none ↔ ∀ f, ¬ p.Fails env f := by
  simp only [← fault?_eq_some_iff, Option.eq_none_iff_forall_ne_some, Ne]

end Part

/-! ## A document -/

section

variable (calls : Calls) (env : Environment)

theorem faultOf_enter {α : Type} (room need : ℕ) (next : ℕ → Except ExpandFault α) :
    faultOf (Calls.enter room need next) = if room < need then some .tooDeep else faultOf (next (room - need)) := by
  rw [Calls.enter, apply_ite faultOf]
  rfl

/-- a part in front, with whatever comes behind it -/
theorem findSome?_part (room need : ℕ) (d : Document) (hd : d.fault? env = none) (ps : List Part) :
    ((⟨room, need, d⟩ :: ps : List Part)).findSome? (Part.fault? env) =
      if room < need then some .tooDeep else ps.findSome? (Part.fault? env) := by
  rw [List.findSome?_cons, Part.fault?, hd]
  by_cases hshort : room < need
  · rw [if_pos hshort, if_pos hshort]
  · rw [if_neg hshort, if_neg hshort]

mutual

/-- **A document fails as its first bad part does.** -/
theorem faultOf_expand : ∀ (room : ℕ) (d : Document),
    faultOf (d.expand calls env room) = (d.parts calls env room).findSome? (Part.fault? env)
  | room, list xs => by
    rw [expand, faultOf_enter, faultOf_bind, faultOf_expandItems, parts, findSome?_part env _ _ _ rfl]
  | room, mapping es => by
    rw [expand, faultOf_enter, faultOf_bind, faultOf_expandEntries, parts, findSome?_part env _ _ _ rfl]
  | room, text s => by
    have hparts : (text s).parts calls env room = [⟨room, calls.of env (text s), text s⟩] := by simp [parts]
    rw [expand, faultOf_enter, faultOf_bind, hparts, List.findSome?_singleton, Part.fault?, fault?]
  | room, endless => by
    have hparts : endless.parts calls env room = [⟨room, calls.of env endless, endless⟩] := by simp [parts]
    rw [expand, hparts, List.findSome?_singleton, Part.fault?, fault?, ite_self]
    rfl
  | room, null | room, bool _ | room, int _ | room, decimal _ | room, bytes _ | room, date _ | room, pairs _
  | room, set _ => by
    simp only [expand, parts, List.findSome?_singleton]
    rw [faultOf_enter]
    rfl

theorem faultOf_expandItems : ∀ (room : ℕ) (ds : List Document),
    faultOf (expandItems calls env room ds) = (partsOfItems calls env room ds).findSome? (Part.fault? env)
  | _, [] => rfl
  | room, d :: ds => by
    rw [expandItems, faultOf_bind_bind, faultOf_expand, faultOf_expandItems, partsOfItems, List.findSome?_append]

theorem faultOf_expandEntries : ∀ (room : ℕ) (es : List (Document × Document)),
    faultOf (expandEntries calls env room es) = (partsOfEntries calls env room es).findSome? (Part.fault? env)
  | _, [] => rfl
  | room, (k, d) :: es => by
    rw [expandEntries, faultOf_bind_bind, faultOf_expand, faultOf_expandEntries, partsOfEntries, List.findSome?_append]

end

theorem faultOf_expandMapping (es : List (Document × Document)) :
    faultOf (expandMapping calls env es) = (partsOfMapping calls env es).findSome? (Part.fault? env) := by
  rw [expandMapping, faultOf_enter, faultOf_expandEntries, partsOfMapping, findSome?_part env _ _ _ rfl]

/-! ## Leaves -/

mutual

/-- **With room for every part the first bad leaf counts.** -/
theorem findSome?_parts : ∀ (room : ℕ) (d : Document), (∀ p ∈ d.parts calls env room, p.need ≤ p.room) →
    (d.parts calls env room).findSome? (Part.fault? env) = d.leaves.findSome? (fault? env)
  | room, list xs => by
    intro hroom
    rw [parts, List.forall_mem_cons] at hroom
    rw [parts, List.findSome?_cons, Part.fault?_of_room hroom.1, leaves]
    exact findSome?_partsOfItems _ xs hroom.2
  | room, mapping es => by
    intro hroom
    rw [parts, List.forall_mem_cons] at hroom
    rw [parts, List.findSome?_cons, Part.fault?_of_room hroom.1, leaves]
    exact findSome?_partsOfEntries _ es hroom.2
  | room, text _ | room, endless | room, null | room, bool _ | room, int _ | room, decimal _ | room, bytes _
  | room, date _ | room, pairs _ | room, set _ => by
    intro hroom
    simp only [parts, List.forall_mem_singleton] at hroom
    simp only [parts, leaves, List.findSome?_singleton]
    exact Part.fault?_of_room hroom

theorem findSome?_partsOfItems : ∀ (room : ℕ) (ds : List Document),
    (∀ p ∈ partsOfItems calls env room ds, p.need ≤ p.room) →
      (partsOfItems calls env room ds).findSome? (Part.fault? env) = (leavesOfItems ds).findSome? (fault? env)
  | _, [] => fun _ => rfl
  | room, d :: ds => by
    intro hroom
    rw [partsOfItems, List.forall_mem_append] at hroom
    rw [partsOfItems, leavesOfItems, List.findSome?_append, List.findSome?_append, findSome?_parts room d hroom.1,
      findSome?_partsOfItems room ds hroom.2]

theorem findSome?_partsOfEntries : ∀ (room : ℕ) (es : List (Document × Document)),
    (∀ p ∈ partsOfEntries calls env room es, p.need ≤ p.room) →
      (partsOfEntries calls env room es).findSome? (Part.fault? env) = (leavesOfEntries es).findSome? (fault? env)
  | _, [] => fun _ => rfl
  | room, (k, d) :: es => by
    intro hroom
    rw [partsOfEntries, List.forall_mem_append] at hroom
    rw [partsOfEntries, leavesOfEntries, List.findSome?_append, List.findSome?_append, findSome?_parts room d hroom.1,
      findSome?_partsOfEntries room es hroom.2]

end

/-- with room for every part, entries fail as their first bad leaf does -/
theorem faultOf_expandMapping_of_room {es : List (Document × Document)}
    (hroom : ∀ p ∈ partsOfMapping calls env es, p.need ≤ p.room) :
    faultOf (expandMapping calls env es) = (leavesOfEntries es).findSome? (fault? env) := by
  rw [partsOfMapping, List.forall_mem_cons] at hroom
  rw [faultOf_expandMapping, partsOfMapping, List.findSome?_cons, Part.fault?_of_room hroom.1]
  exact findSome?_partsOfEntries calls env _ es hroom.2

end

end MakeAtlas.Document
