/-
Chains of dependencies. The depth of a name is the number of edges on the longest chain that starts there. Depths are
found with a stack: a name with a dependency of unknown depth waits on it until those above it are done. A node is
critical when it stands for a target and lies on a longest chain; these are found from the deepest nodes down, one edge
and one depth at a time.
-/
import MakeAtlas.Graph.Basic

namespace MakeAtlas.Graph

/-- depths found so far -/
abbrev Depths := Entries Nat

/-- the depth of a name that waits for names of these depths -/
def depthAbove (depths : List Nat) : Nat :=
  match depths.max? with
  | none => 0
  | some depth => depth + 1

/-- the depths found so far, the names that had to wait, and the stack, its top first -/
structure Settling where
  known : Depths
  waited : List String := []
  stack : List String

namespace Settling

/-- The top of the stack leaves it when its depth is known, gets its depth when those of its dependencies are known, and
else waits for them. No value when it has waited before: it then waits for itself, and would for ever. -/
def step (g : Graph) (s : Settling) : Option Settling :=
  match s.stack with
  | [] => some s
  | name :: stack =>
    if (s.known.value? name).isSome then some { s with stack }
    else
      match (g.dependencies name).filter fun dep => (s.known.value? dep).isNone with
      | [] =>
        some { s with known := s.known.put name (depthAbove ((g.dependencies name).filterMap s.known.value?)), stack }
      | pending =>
        if s.waited.contains name then none
        else some { s with waited := name :: s.waited, stack := pending.reverse ++ s.stack }

/-- a step makes a name of the graph wait, or takes one off the stack -/
theorem step_shrinks {g : Graph} {s s' : Settling} (h : s.step g = some s') (hs : s.stack ≠ []) :
    unseen s'.waited (g.store.map (·.name)) < unseen s.waited (g.store.map (·.name)) ∨
      s'.waited = s.waited ∧ s'.stack.length < s.stack.length := by
  unfold step at h
  split at h
  next hstack => exact absurd hstack hs
  next name stack hstack =>
    rw [hstack, List.length_cons]
    split at h
    next => cases h; exact .inr ⟨rfl, Nat.lt_succ_self _⟩
    next =>
      split at h
      next => cases h; exact .inr ⟨rfl, Nat.lt_succ_self _⟩
      next hpending =>
        split at h
        next => cases h
        next hnew =>
          cases h
          refine .inl (unseen_lt ?_ (by simpa using hnew) List.mem_cons_self fun a ha => List.mem_cons_of_mem _ ha)
          have hdeps : g.dependencies name ≠ [] := fun h0 => hpending (by rw [h0]; rfl)
          rw [Graph.dependencies, dependenciesIn] at hdeps
          cases hn : lookup g.store name with
          | none => simp [hn] at hdeps
          | some n =>
            rw [lookup] at hn
            exact List.mem_map.2 ⟨n, List.mem_of_find?_eq_some hn, by simpa using List.find?_some hn⟩

/-- the depths once the stack is empty -/
def run (g : Graph) (s : Settling) : Option Depths :=
  if _hs : s.stack = [] then some s.known
  else
    match _h : s.step g with
    | none => none
    | some s' => run g s'
termination_by (unseen s.waited (g.store.map (·.name)), s.stack.length)
decreasing_by
  rcases step_shrinks _h _hs with h | ⟨hw, hl⟩
  · exact Prod.Lex.left _ _ h
  · rw [hw]; exact Prod.Lex.right _ hl

end Settling

/-- the depth of every name -/
def depths (g : Graph) : Option Depths :=
  g.names.foldlM (fun known name => Settling.run g { known, stack := [name] }) []

/-- the names marked so far, and those of them whose dependencies are still to be looked at -/
structure Marking where
  marked : List String
  stack : List String

namespace Marking

/-- `dep` stands for a target, and its depth is one less than that of `name` -/
def continues (g : Graph) (known : Depths) (name dep : String) : Bool :=
  (lookup g.store dep).any (·.kind == .real) &&
    match known.value? dep, known.value? name with
    | some d, some e => d + 1 == e
    | _, _ => false

/-- a dependency of `name` looked at -/
def reach (g : Graph) (known : Depths) (name : String) (m : Marking) (dep : String) : Marking :=
  if !m.marked.contains dep && continues g known name dep
    then { marked := m.marked ++ [dep], stack := dep :: m.stack } else m

/-- the names that may still be marked or are to be looked at -/
def ahead (known : Depths) (m : Marking) : Nat := unseen m.marked known.keys + m.stack.length

theorem reach_ahead_le (g : Graph) (known : Depths) (name : String) (m : Marking) (dep : String) :
    (m.reach g known name dep).ahead known ≤ m.ahead known := by
  unfold reach
  split
  next h =>
    simp only [Bool.and_eq_true, Bool.not_eq_true', List.contains_eq_mem, decide_eq_false_iff_not, continues] at h
    obtain ⟨hm, -, h⟩ := h
    split at h
    next hd _ =>
      have hkey : dep ∈ known.keys := List.mem_map.2 ⟨_, Entries.mem_of_value? hd, rfl⟩
      have hmark : dep ∈ m.marked ++ [dep] := List.mem_concat_self
      have := unseen_lt hkey hm hmark fun a ha => List.mem_append_left _ ha
      simp only [ahead, List.length_cons]
      omega
    next => cases h
  next => exact Nat.le_refl _

theorem foldl_reach_ahead_le (g : Graph) (known : Depths) (name : String) (deps : List String) (m : Marking) :
    (deps.foldl (reach g known name) m).ahead known ≤ m.ahead known := by
  induction deps generalizing m with
  | nil => exact Nat.le_refl _
  | cons dep deps ih => exact Nat.le_trans (ih _) (reach_ahead_le g known name m dep)

/-- all names marked once the stack is empty, its top first -/
def run (g : Graph) (known : Depths) (m : Marking) : List String :=
  match _h : m.stack with
  | [] => m.marked
  | name :: stack => run g known ((g.dependencies name).foldl (reach g known name) { m with stack })
termination_by m.ahead known
decreasing_by
  refine Nat.lt_of_le_of_lt (foldl_reach_ahead_le g known name _ _) ?_
  simp [ahead, _h]

end Marking

/-- the names on longest chains, from the deepest down; none when no name waits for another or the depths are not
found -/
def criticalNames (g : Graph) : List String :=
  match depths g with
  | none => []
  | some known =>
    let top := (known.map (·.2)).max?.getD 0
    if top == 0 then []
    else
      let tops := g.names.filter fun name => known.value? name == some top && !(g.dependencies name).isEmpty
      Marking.run g known { marked := tops, stack := tops.reverse }

/-- every node on a longest chain marked -/
def markCritical (g : Graph) : Graph :=
  let names := criticalNames g
  { g with store := g.store.map fun n => { n with critical := names.contains n.name } }

end MakeAtlas.Graph
