/-
The dependency graph. A node stands for a target, or holds the place of a name that no target has. Edges are kept as
names, in both directions. A graph owns some of the nodes that its edges lead to: all of them when it was built from
targets, the nodes near one target when it was focused.
-/
import MakeAtlas.Entries
import MakeAtlas.Makefile.Scan
import MakeAtlas.Text.Layout

namespace MakeAtlas.Graph

open Makefile (Target)

/-- whether a target stands behind a node -/
inductive NodeKind where
  | real
  | placeholder
  deriving DecidableEq, Repr

/-- the kind as written in reports -/
def NodeKind.name : NodeKind → String
  | real => "real"
  | placeholder => "placeholder"

def placeholderDescription : String := "(external or file dependency)"

/-- a node with its edges and marks; order 0 means that none was assigned -/
structure Node where
  name : String
  kind : NodeKind := .real
  description : String := ""
  dependencies : List String := []
  dependents : List String := []
  order : Nat := 0
  critical : Bool := false
  parallel : Bool := false
  deriving DecidableEq, Repr

namespace Node

def ofTarget (t : Target) : Node := { name := t.name, description := t.description }

/-- the node that holds the place of an unknown name -/
def standIn (name : String) : Node := { name, kind := .placeholder, description := placeholderDescription }

/-- the node in one line, for debugging -/
def summary (n : Node) : String :=
  "Node(" ++ Text.quoted n.name ++ ", kind=" ++ n.kind.name ++ ", order=" ++ toString n.order ++ ")"

end Node

def lookup (store : List Node) (name : String) : Option Node := store.find? (·.name == name)

def dependenciesIn (store : List Node) (name : String) : List String :=
  ((lookup store name).map (·.dependencies)).getD []

/-- the names that wait for the node with this name -/
def dependentsIn (store : List Node) (name : String) : List String :=
  ((lookup store name).map (·.dependents)).getD []

/-- how many of these names are not among those seen -/
def unseen (seen names : List String) : Nat := names.countP (!seen.contains ·)

/-- the more is seen, the less is unseen -/
theorem unseen_le {seen seen' : List String} (hsub : ∀ a ∈ seen, a ∈ seen') (names : List String) :
    unseen seen' names ≤ unseen seen names := by
  apply List.countP_mono_left
  intro a _ ha
  simp only [Bool.not_eq_true', List.contains_eq_mem, decide_eq_false_iff_not] at ha ⊢
  exact fun hmem => ha (hsub a hmem)

/-- a name seen for the first time leaves one name less unseen -/
theorem unseen_lt {seen seen' names : List String} {name : String} (hname : name ∈ names) (hnew : name ∉ seen)
    (hseen : name ∈ seen') (hsub : ∀ a ∈ seen, a ∈ seen') : unseen seen' names < unseen seen names := by
  obtain ⟨before, after, hsplit⟩ := List.append_of_mem hname
  have h1 := unseen_le hsub before
  have h2 := unseen_le hsub after
  simp only [unseen] at h1 h2 ⊢
  rw [hsplit, List.countP_append, List.countP_append, List.countP_cons_of_neg (by simpa using hseen),
    List.countP_cons_of_pos (by simpa using hnew)]
  omega

/-- a name entered at its order, behind those that are there already -/
def enroll (order : Nat) (name : String) : List (Nat × List String) → List (Nat × List String)
  | [] => [(order, [name])]
  | level :: levels =>
    if level.1 == order then (order, level.2 ++ [name]) :: levels else level :: enroll order name levels

end Graph

/-- a graph: the nodes that edges lead to, the names of its own nodes, its roots, the loop that was found in it as a
closed walk, and the unknown names that its targets wait for -/
structure Graph where
  store : List Graph.Node := []
  names : List String := []
  roots : List String := []
  cycle : Option (List String) := none
  missing : Entries (List String) := []

namespace Graph

def has (g : Graph) (name : String) : Bool := g.names.contains name

def node? (g : Graph) (name : String) : Option Node := if g.has name then lookup g.store name else none

def nodes (g : Graph) : List Node := g.names.filterMap (lookup g.store)

/-- what the node of this name waits for -/
def dependencies (g : Graph) (name : String) : List String := dependenciesIn g.store name

/-- what waits for the node of this name -/
def dependents (g : Graph) (name : String) : List String := dependentsIn g.store name

def criticalNodes (g : Graph) : List Node := g.nodes.filter (·.critical)

/-- the names at each order, lowest order first; nodes without an order are left out -/
def levels (g : Graph) : List (Nat × List String) :=
  let groups := (g.nodes.filter (0 < ·.order)).foldl (fun levels n => enroll n.order n.name levels) []
  groups.mergeSort (·.1 ≤ ·.1)

end Graph

end MakeAtlas
