/-
From targets to the finished graph.
-/
import MakeAtlas.Graph.Basic
import MakeAtlas.Graph.Chain
import MakeAtlas.Graph.Cycle
import MakeAtlas.Graph.Level

/-! ## Wiring

From targets to nodes with edges. The last definition of a name counts, at the place of the first. A name that is
waited for and not defined gets a stand-in node at the end. Each pair of names is linked once. -/

namespace MakeAtlas.Graph

open Makefile (Target)

/-- nodes and the unknown names met so far -/
structure Wires where
  store : List Node := []
  missing : Entries (List String) := []

/-- a definition entered: it replaces an earlier one of the same name -/
def define (t : Target) : List Target → List Target
  | [] => [t]
  | u :: us => if u.name == t.name then t :: us else u :: define t us

/-- the definitions that count, in the order of first definition -/
def definitions (ts : List Target) : List Target := ts.foldl (fun ds t => define t ds) []

def update (name : String) (f : Node → Node) (store : List Node) : List Node :=
  store.map fun n => if n.name == name then f n else n

namespace Wires

/-- a stand-in added when no node has this name -/
def ensure (name : String) (store : List Node) : List Node :=
  if (lookup store name).isSome then store else store ++ [.standIn name]

def link (w : Wires) (name dep : String) : Wires :=
  let store := ensure dep w.store
  if (dependenciesIn store name).contains dep then { w with store }
  else
    { store := update dep (fun n => { n with dependents := n.dependents ++ [name] })
        (update name (fun n => { n with dependencies := n.dependencies ++ [dep] }) store)
      missing :=
        if (lookup store dep).any (·.kind == .placeholder) then w.missing.adjust name [] (· ++ [dep]) else w.missing }

def wire (w : Wires) (t : Target) : Wires := t.dependencies.foldl (fun w dep => w.link t.name dep) w

def ofTargets (ts : List Target) : Wires :=
  let ds := definitions ts
  ds.foldl wire { store := ds.map Node.ofTarget }

end Wires

end MakeAtlas.Graph

/-! ## The finished graph

From targets to the finished graph: wiring, the search for a loop, and, when there is none, order, critical chains and
parallel work. A graph with a loop keeps order 0 and no marks. -/

namespace MakeAtlas.Graph

open Makefile (Target)

/-- a node that waits for something is parallel when another such node has its order -/
def markParallel (g : Graph) : Graph :=
  let waiting := g.store.filter (!·.dependencies.isEmpty)
  { g with store := g.store.map fun n => { n with
      parallel := !n.dependencies.isEmpty && decide (1 < (waiting.filter (·.order == n.order)).length) } }

/-- orders and marks, on a graph without a loop -/
def annotate (g : Graph) : Graph := markParallel (markCritical (assignOrder g))

/-- wired nodes as a graph, before any analysis; the roots are the nodes that nothing waits for -/
def ofWires (w : Wires) : Graph :=
  { store := w.store
    names := w.store.map (·.name)
    roots := (w.store.filter (·.dependents.isEmpty)).map (·.name)
    missing := w.missing }

def build (ts : List Target) : Graph :=
  let g := ofWires (.ofTargets ts)
  match findCycle g with
  | .ok none => annotate g
  | .ok (some walk) => { g with cycle := some walk }
  | .error _ => g

end MakeAtlas.Graph
