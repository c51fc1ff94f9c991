/-
Focus: the part of a graph within some number of steps of one target. Names to look at wait in a queue, each with the
number of steps that led to it, and the same name may wait there more than once. A name is found when it leaves the
queue for the first time, and unless it is as far out as the focus reaches, what it waits for joins the queue then. The
nodes keep their edges and marks, so edges may lead out of the part.
-/
import MakeAtlas.Graph.Basic

namespace MakeAtlas.Graph

def unlimitedReach : Nat := 999999

/-- the number of steps that a depth asks for; below zero it is unlimited -/
def reachOf (depth : Int) : Nat := if depth < 0 then unlimitedReach else depth.toNat

/-- the names found so far, and the queue, its first in front -/
structure Spread where
  found : List String := []
  queue : List (String × Nat)

namespace Spread

/-- what joins the queue behind a name that was found after this many steps -/
def offers (store : List Node) (reach : Nat) (found : List String) (name : String) (steps : Nat) :
    List (String × Nat) :=
  if steps < reach then ((dependenciesIn store name).filter (!found.contains ·)).map (·, steps + 1) else []

/-- the first of the queue leaves it; it is found now, unless it was found before -/
def step (store : List Node) (reach : Nat) (s : Spread) : Spread :=
  match s.queue with
  | [] => s
  | (name, steps) :: queue =>
    if s.found.contains name then { s with queue }
    else
      let found := s.found ++ [name]
      { found, queue := queue ++ offers store reach found name steps }

/-- the edges of the nodes that are not found -/
def unused (store : List Node) (found : List String) : Nat :=
  ((store.filter (!found.contains ·.name)).flatMap (·.dependencies)).length

/-- how many may still leave the queue -/
def ahead (store : List Node) (s : Spread) : Nat := unused store s.found + s.queue.length

theorem unused_cons (n : Node) (store : List Node) (found : List String) :
    unused (n :: store) found = (if n.name ∈ found then 0 else n.dependencies.length) + unused store found := by
  by_cases h : n.name ∈ found <;> simp [unused, h]

/-- the more is found, the less is unused -/
theorem unused_le_of_subset {found found' : List String} (hsub : ∀ a ∈ found, a ∈ found') (store : List Node) :
    unused store found' ≤ unused store found := by
  induction store with
  | nil => exact Nat.le_refl _
  | cons n store ih =>
    rw [unused_cons, unused_cons]
    by_cases hn : n.name ∈ found
    · rw [if_pos hn, if_pos (hsub _ hn)]
      omega
    · rw [if_neg hn]
      split <;> omega

/-- a name found for the first time uses its edges -/
theorem unused_concat_le {found : List String} {name : String} (hnew : name ∉ found) (store : List Node) :
    unused store (found ++ [name]) + (dependenciesIn store name).length ≤ unused store found := by
  induction store with
  | nil => exact Nat.le_refl _
  | cons n store ih =>
    rw [unused_cons, unused_cons]
    by_cases hname : n.name = name
    · have hdeps : dependenciesIn (n :: store) name = n.dependencies := by simp [dependenciesIn, lookup, hname]
      have hrest : unused store (found ++ [name]) ≤ unused store found :=
        unused_le_of_subset (fun a ha => List.mem_append_left _ ha) store
      rw [hdeps, if_pos (by simp [hname]), if_neg (hname ▸ hnew)]
      omega
    · have hdeps : dependenciesIn (n :: store) name = dependenciesIn store name := by
        simp [dependenciesIn, lookup, hname]
      have hmem : n.name ∈ found ++ [name] ↔ n.name ∈ found := by simp [hname]
      rw [hdeps]
      simp only [hmem]
      omega

theorem length_offers_le (store : List Node) (reach : Nat) (found : List String) (name : String) (steps : Nat) :
    (offers store reach found name steps).length ≤ (dependenciesIn store name).length := by
  unfold offers
  split
  · rw [List.length_map]
    exact List.length_filter_le _ _
  · exact Nat.zero_le _

/-- whoever leaves the queue brings in less than is left to come -/
theorem step_ahead_lt (store : List Node) (reach : Nat) {s : Spread} (h : s.queue ≠ []) :
    (s.step store reach).ahead store < s.ahead store := by
  unfold step
  split
  next hq => exact absurd hq h
  next name steps queue hq =>
    split
    next => simp [ahead, hq]
    next hnew =>
      have hused : unused store (s.found ++ [name]) + (dependenciesIn store name).length ≤ unused store s.found :=
        unused_concat_le (by simpa using hnew) store
      have hoffers := length_offers_le store reach (s.found ++ [name]) name steps
      simp only [ahead, hq, List.length_append, List.length_cons]
      omega

/-- the names found once the queue is empty, in the order in which they are found -/
def run (store : List Node) (reach : Nat) (s : Spread) : List String :=
  if _h : s.queue = [] then s.found else run store reach (s.step store reach)
termination_by s.ahead store
decreasing_by exact step_ahead_lt store reach _h

end Spread

/-- the part of the graph around `name`; empty when the graph has no such node -/
def focus (g : Graph) (name : String) (depth : Int) : Graph :=
  if g.has name then
    { store := g.store
      names := Spread.run g.store (reachOf depth) { queue := [(name, 0)] }
      roots := [name]
      cycle := g.cycle }
  else {}

end MakeAtlas.Graph
