/-
The search for a loop. A depth-first walk along the edges colors the names: white until it meets them, gray while they
are on the path to where it stands, black once it has left them for good. Each name that the walk goes down to remembers
the one that it came from. An edge to a gray name closes a loop, which is read back along these links. In a focused
graph the walk can meet an edge to a node that the graph does not own; it stops there.
-/
import MakeAtlas.Graph.Basic

namespace MakeAtlas.Graph

/-- how far the search is with a name -/
inductive Color where
  | white
  | gray
  | black
  deriving DecidableEq, Repr

/-- why a search stopped before its end: at a loop, at a name outside the graph, or at a loop that the links do not give
back -/
inductive Halt where
  | loop (walk : List String)
  | outside (name : String)
  | astray (name : String)
  deriving DecidableEq, Repr

/-- the names from `name` up the links to `entry`, and without it; no value when a link is missing. A link that was
followed is out: met again, it would lead round for ever. -/
def climb (parents : Entries String) (entry name : String) : Option (List String) :=
  if name == entry then some []
  else
    match _h : parents.value? name with
    | none => none
    | some parent => (climb (parents.erase name) entry parent).map (name :: ·)
termination_by parents.length
decreasing_by exact Entries.length_erase_lt _h

/-- the closed walk from `entry` down to the innermost name and back; `below` holds the innermost name first -/
def closedWalk (entry : String) (below : List String) : List String := entry :: below.reverse ++ [entry]

/-- where a search stands: the colors, the links, and the path, innermost name first, each with the dependencies that it
still has to look at -/
structure Search where
  colors : Entries Color
  parents : Entries String := []
  path : List (String × List String) := []

namespace Search

/-- nothing is met yet -/
def start (g : Graph) : Search := { colors := g.names.map (·, .white) }

/-- a path begun at `name` -/
def enter (g : Graph) (name : String) (s : Search) : Search :=
  { s with colors := s.colors.put name .gray, path := [(name, g.dependencies name)] }

/-- the innermost name looks at its next dependency, or is left for good when it has looked at all -/
def step (g : Graph) (s : Search) : Except Halt Search :=
  match s.path with
  | [] => .ok s
  | (name, []) :: path => .ok { s with colors := s.colors.put name .black, path }
  | (name, dep :: deps) :: path =>
    match s.colors.value? dep with
    | none => .error (.outside dep)
    | some .gray =>
      match climb s.parents dep name with
      | some below => .error (.loop (closedWalk dep below))
      | none => .error (.astray dep)
    | some .white => .ok
      { colors := s.colors.put dep .gray
        parents := s.parents.put dep name
        path := (dep, g.dependencies dep) :: (name, deps) :: path }
    | some .black => .ok { s with path := (name, deps) :: path }

/-- the names not met yet -/
def unmet (s : Search) : Nat := s.colors.countP (·.2 == .white)

/-- what the names on the path still have to do -/
def work (s : Search) : Nat := (s.path.flatMap (·.2)).length + s.path.length

/-- blackening a name leaves no more names unmet -/
theorem unmet_blacken_le (name : String) (colors : Entries Color) :
    (colors.put name .black).countP (·.2 == .white) ≤ colors.countP (·.2 == .white) := by
  cases h : colors.value? name with
  | none =>
    have := Entries.countP_put_new h .black (· == .white)
    rw [if_neg (by decide)] at this
    omega
  | some old =>
    have := Entries.countP_put h .black (· == .white)
    rw [if_neg (by decide : ¬ (Color.black == .white) = true)] at this
    omega

/-- graying a white name leaves one name less unmet -/
theorem unmet_gray_lt {name : String} {colors : Entries Color} (h : colors.value? name = some .white) :
    (colors.put name .gray).countP (·.2 == .white) < colors.countP (·.2 == .white) := by
  have := Entries.countP_put h .gray (· == .white)
  rw [if_pos (by decide), if_neg (by decide)] at this
  omega

/-- a step meets a new name, or leaves less to do -/
theorem step_shrinks {g : Graph} {s s' : Search} (h : s.step g = .ok s') (hp : s.path ≠ []) :
    s'.unmet < s.unmet ∨ s'.unmet ≤ s.unmet ∧ s'.work < s.work := by
  unfold step at h
  split at h
  next hpath => exact absurd hpath hp
  next name path hpath =>
    cases h
    right
    exact ⟨unmet_blacken_le name s.colors, by simp [work, hpath]⟩
  next name dep deps path hpath =>
    split at h
    next => cases h
    next => split at h <;> cases h
    next hc => cases h; exact .inl (unmet_gray_lt hc)
    next => cases h; right; exact ⟨Nat.le_refl _, by simp [work, hpath]⟩

/-- steps until the path is empty -/
def run (g : Graph) (s : Search) : Except Halt Search :=
  if _hp : s.path = [] then .ok s
  else
    match _h : s.step g with
    | .error e => .error e
    | .ok s' => run g s'
termination_by (s.unmet, s.work)
decreasing_by
  rcases step_shrinks _h _hp with h | ⟨h, hw⟩
  · exact Prod.Lex.left _ _ h
  · rcases Nat.lt_or_eq_of_le h with h | h
    · exact Prod.Lex.left _ _ h
    · rw [h]; exact Prod.Lex.right _ hw

/-- a path from `name` and back to it, unless it was met before -/
def visit (g : Graph) (s : Search) (name : String) : Except Halt Search :=
  if s.colors.value? name = some .white then (s.enter g name).run g else .ok s

end Search

/-- paths from every name in turn -/
def search (g : Graph) : Except Halt Search := g.names.foldlM (Search.visit g) (.start g)

/-- a loop as a closed walk, if there is one; or the name where the search could not go on -/
def findCycle (g : Graph) : Except String (Option (List String)) :=
  match search g with
  | .ok _ => .ok none
  | .error (.loop w) => .ok (some w)
  | .error (.outside name) => .error name
  | .error (.astray name) => .error name

end MakeAtlas.Graph
