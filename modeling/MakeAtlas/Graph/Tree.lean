/-
The graph drawn as trees, one below the other, one for each root. A node is drawn in full where it is met first and as a
reference after that. A drawing is a list of entries; its text has one line for each.
-/
import MakeAtlas.Graph.Basic

namespace MakeAtlas.Graph

/-- which marks are drawn beside a name -/
structure Marks where
  order : Bool := false
  critical : Bool := false
  parallel : Bool := false
  deriving DecidableEq, Repr

/-- the sign of a node on a longest chain -/
def criticalSign : String := "★"

/-- the sign of a node that can run beside others -/
def parallelSign : String := "∥"

/-- a place in the tree: for each ancestor below the root, and for the node itself, whether it is the last child -/
structure Place where
  above : List Bool := []
  last : Bool := true
  deriving DecidableEq, Repr

/-- one line of a drawing -/
inductive Entry where
  | gap
  | full (place : Place) (name : String)
  | reference (place : Place) (name : String)
  deriving DecidableEq, Repr

/-- a node still to be drawn -/
abbrev Task := Place × String

def childTasks (g : Graph) (place : Place) (name : String) : List Task :=
  let deps := (g.dependencies name).filter g.has
  let above := place.above ++ [place.last]
  deps.zipIdx.map fun (dep, i) => (⟨above, i + 1 == deps.length⟩, dep)

/-- draw the tasks in order, the children of a node right after it; one unit of fuel for each entry -/
def drawTasks (g : Graph) : Nat → List String → List Task → List Entry × List String
  | 0, drawn, _ => ([], drawn)
  | _, drawn, [] => ([], drawn)
  | fuel + 1, drawn, (place, name) :: tasks =>
    if drawn.contains name then
      let (rest, drawn) := drawTasks g fuel drawn tasks
      (.reference place name :: rest, drawn)
    else
      let (rest, drawn) := drawTasks g fuel (name :: drawn) (childTasks g place name ++ tasks)
      (.full place name :: rest, drawn)

/-- enough for every node to be drawn once in full, with each of its edges -/
def drawFuel (g : Graph) : Nat := g.nodes.foldl (fun n node => n + node.dependencies.length) (1 + g.names.length)

def drawRoots (g : Graph) : List String → List String → List Entry
  | _, [] => []
  | drawn, root :: roots =>
    let (tree, drawn) := drawTasks g (drawFuel g) drawn [({}, root)]
    tree ++ (if roots.isEmpty then [] else .gap :: drawRoots g drawn roots)

def drawing (g : Graph) : List Entry := drawRoots g [] g.roots

/-- what stands left of a name -/
def Place.text (p : Place) : String :=
  String.join (p.above.map fun last => if last then "    " else "│   ") ++ (if p.last then "└── " else "├── ")

/-- a name with its marks and its description -/
def label (m : Marks) (n : Node) : String :=
  let parts := [n.name] ++ (if m.order && n.order != 0 then ["[" ++ toString n.order ++ "]"] else []) ++
    (if m.critical && n.critical then [criticalSign] else []) ++
    (if m.parallel && n.parallel then [parallelSign] else [])
  " ".intercalate parts ++ (if n.description.isEmpty then "" else " — " ++ n.description)

def Entry.text (g : Graph) (m : Marks) : Entry → String
  | .gap => ""
  | .full place name => place.text ++ ((lookup g.store name).map (label m)).getD name
  | .reference place name => place.text ++ name ++ " (see above)"

def loopText (walk : List String) : String := " → ".intercalate walk

def render (g : Graph) (m : Marks) : String :=
  match g.cycle with
  | some walk =>
    "⚠️  Circular dependency detected!\nCycle: " ++ loopText walk ++
      "\n\nFix the circular dependency in your Makefile before visualizing the graph.\n"
  | none =>
    if g.names.isEmpty then "No targets found in Makefile.\n"
    else "\n".intercalate ((drawing g).map (Entry.text g m)) ++ "\n"

/-- what the marks mean; empty when none is drawn -/
def legend (m : Marks) : String :=
  let parts := (if m.order then ["[N] = execution order"] else []) ++
    (if m.critical then [criticalSign ++ " = critical path"] else []) ++
    (if m.parallel then [parallelSign ++ " = can run in parallel"] else [])
  if parts.isEmpty then "" else "Legend: " ++ ", ".intercalate parts

end MakeAtlas.Graph
