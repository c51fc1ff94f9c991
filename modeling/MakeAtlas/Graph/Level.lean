/-
Levels, by counting. Each name counts the dependencies that it still waits for, and the names that wait for none stand
in a queue. In a round, as many leave the queue as stood in it at the start; each gets the number of the round as its
order, and each name that waits for it counts one less. A name that comes to zero joins the queue.
-/
import MakeAtlas.Graph.Basic

namespace MakeAtlas.Graph

/-- what each name still waits for, counted; the queue; and the orders given so far -/
structure Schedule where
  counts : Entries Int
  queue : List String
  orders : Entries Nat := []

namespace Schedule

/-- every name waits for all its dependencies -/
def start (g : Graph) : Schedule :=
  { counts := g.names.map fun name => (name, ((g.dependencies name).length : Int))
    queue := g.names.filter fun name => (g.dependencies name).isEmpty }

/-- the name waits for one dependency less; a name that does not count is passed over -/
def release (s : Schedule) (name : String) : Schedule :=
  match s.counts.value? name with
  | none => s
  | some count =>
    { s with
      counts := s.counts.put name (count - 1)
      queue := if count - 1 == 0 then s.queue ++ [name] else s.queue }

/-- the first of the queue gets its order, and what waits for it is released -/
def serve (g : Graph) (order : Nat) (s : Schedule) : Schedule :=
  match s.queue with
  | [] => s
  | name :: queue => (g.dependents name).foldl release { s with queue, orders := s.orders.put name order }

/-- that many of the queue are served -/
def serveAll (g : Graph) (order : Nat) : Nat → Schedule → Schedule
  | 0, s => s
  | n + 1, s => serveAll g order n (s.serve g order)

def round (g : Graph) (order : Nat) (s : Schedule) : Schedule := s.serveAll g order s.queue.length

/-- the names that stand in the queue or may still join it -/
def ahead (s : Schedule) : Nat := s.counts.countP (fun e => decide (0 < e.2)) + s.queue.length

theorem release_ahead_le (s : Schedule) (name : String) : (s.release name).ahead ≤ s.ahead := by
  unfold release
  split
  · exact Nat.le_refl _
  next count hc =>
    have := Entries.countP_put hc (count - 1) (fun k => decide (0 < k))
    simp only [ahead, decide_eq_true_eq] at this ⊢
    by_cases h0 : count - 1 = 0
    · rw [if_pos (by omega), if_neg (by omega)] at this
      simp only [h0, BEq.rfl, if_true, List.length_append, List.length_singleton] at this ⊢
      omega
    · simp only [beq_false_of_ne h0, Bool.false_eq_true, if_false] at this ⊢
      split at this <;> split at this <;> omega

theorem foldl_release_ahead_le (names : List String) (s : Schedule) : (names.foldl release s).ahead ≤ s.ahead := by
  induction names generalizing s with
  | nil => exact Nat.le_refl _
  | cons name names ih => exact Nat.le_trans (ih _) (release_ahead_le s name)

/-- whoever is served has left the queue for good -/
theorem serve_ahead_lt (g : Graph) (order : Nat) {s : Schedule} (h : s.queue ≠ []) :
    (s.serve g order).ahead < s.ahead := by
  unfold serve
  split
  next hq => exact absurd hq h
  next name queue hq =>
    refine Nat.lt_of_le_of_lt (foldl_release_ahead_le _ _) ?_
    simp [ahead, hq]

theorem serve_ahead_le (g : Graph) (order : Nat) (s : Schedule) : (s.serve g order).ahead ≤ s.ahead := by
  by_cases h : s.queue = []
  · simp [serve, h]
  · exact Nat.le_of_lt (serve_ahead_lt g order h)

theorem serveAll_ahead_le (g : Graph) (order n : Nat) (s : Schedule) : (s.serveAll g order n).ahead ≤ s.ahead := by
  induction n generalizing s with
  | zero => exact Nat.le_refl _
  | succ n ih => exact Nat.le_trans (ih _) (serve_ahead_le g order s)

theorem round_ahead_lt (g : Graph) (order : Nat) {s : Schedule} (h : s.queue ≠ []) :
    (s.round g order).ahead < s.ahead := by
  unfold round
  cases hn : s.queue.length with
  | zero => exact absurd (List.length_eq_zero_iff.1 hn) h
  | succ n => exact Nat.lt_of_le_of_lt (serveAll_ahead_le g order n _) (serve_ahead_lt g order h)

/-- rounds until the queue is empty, after `order` of them -/
def run (g : Graph) (order : Nat) (s : Schedule) : Entries Nat :=
  if _h : s.queue = [] then s.orders else run g (order + 1) (s.round g (order + 1))
termination_by s.ahead
decreasing_by exact round_ahead_lt g (order + 1) _h

end Schedule

/-- every node with the number of its round as its order; a node that no round reaches keeps the order that it has -/
def assignOrder (g : Graph) : Graph :=
  let orders := (Schedule.start g).run g 0
  { g with store := g.store.map fun n => { n with order := (orders.value? n.name).getD n.order } }

end MakeAtlas.Graph
