/-
The search for depths, turn by turn. The turns keep a stack and the depths that are written, and nothing tells them what
has waited on the stack before; on a loop they would go round for ever. Depths are written one behind the other, so a
depth that is written twice stands there twice.
- `turn_of_known`, `turn_of_ready`, `turn_of_pending`: what a turn does with the top of the stack.
- `turn_nodup`, `turns_nodup`: a turn writes no depth that is written already, and so no number of turns does.
- `step_turn`: a step of the search that remembers what has waited is a turn without that memory.
- `exists_turns_run`, `exists_turns_foldlM`: so where that search comes to its end, the turns do.
- `unwinds_of_acyclic`: without a loop every name has its depth written once, and no depth is read before it is written.
- `unwinds_depths`: and there is no loop wherever building a graph looks for depths.
Witness: `diamond`, where one name stands on the stack twice.
-/
import MakeAtlas.Proofs.Graph.Depth
import MakeAtlas.Proofs.Graph.Loops

namespace MakeAtlas.Graph

open Makefile (Target)

/-! ## Turns -/

/-- the names still to start from, the depths as they were written, and the stack, its top first -/
structure Unwinding where
  starts : List String
  written : Depths := []
  stack : List String := []

namespace Unwinding

/-- An empty stack takes the next name to start from, unless its depth is written. The top of the stack leaves it when
its depth is written, has its depth written when those of its dependencies are, and else gets those without a depth put
on top of it. No value when a depth is read that is not written. -/
def turn (g : Graph) (u : Unwinding) : Option Unwinding :=
  match u.stack, u.starts with
  | [], [] => some u
  | [], start :: starts => some { u with starts, stack := if (u.written.value? start).isSome then [] else [start] }
  | name :: stack, _ =>
    if (u.written.value? name).isSome then some { u with stack }
    else
      match (g.dependencies name).filter fun dep => (u.written.value? dep).isNone with
      | [] => do
        let below ← (g.dependencies name).mapM u.written.value?
        return { u with written := u.written ++ [(name, depthAbove below)], stack }
      | pending => some { u with stack := pending.reverse ++ u.stack }

def turns (g : Graph) : ℕ → Unwinding → Option Unwinding
  | 0, u => some u
  | n + 1, u => u.turn g >>= turns g n

section

variable {g : Graph} {u v : Unwinding} {known known' : Depths} {name : String} {starts stack : List String}

theorem turns_add (g : Graph) (m n : ℕ) (u : Unwinding) : turns g (m + n) u = turns g m u >>= turns g n := by
  induction m generalizing u with
  | zero => rw [Nat.zero_add]; rfl
  | succ m ih =>
    rw [Nat.succ_add, turns, turns, bind_assoc]
    exact bind_congr ih

theorem turns_trans {m n : ℕ} {w : Unwinding} (hm : turns g m u = some v) (hn : turns g n v = some w) :
    turns g (m + n) u = some w := by
  rw [turns_add, hm]
  exact hn

/-- depths that are all known can all be read -/
theorem mapM_value? {names : List String} (hall : ∀ a ∈ names, (known.value? a).isSome) :
    names.mapM known.value? = some (names.filterMap known.value?) := by
  induction names with
  | nil => rfl
  | cons a names ih =>
    obtain ⟨d, hd⟩ := Option.isSome_iff_exists.1 (hall a List.mem_cons_self)
    rw [List.mapM_cons, hd, ih fun b hb => hall b (List.mem_cons_of_mem _ hb), List.filterMap_cons_some hd]
    rfl

theorem turn_of_known (hk : (known.value? name).isSome) :
    turn g ⟨starts, known, name :: stack⟩ = some ⟨starts, known, stack⟩ := by
  simp only [turn, hk, if_true]

/-- the depth of a name is written when those of its dependencies are, and all that is read then is written -/
theorem turn_of_ready (hk : ¬ (known.value? name).isSome)
    (hpending : (g.dependencies name).filter (fun dep => (known.value? dep).isNone) = []) :
    turn g ⟨starts, known, name :: stack⟩ =
      some ⟨starts, known ++ [(name, depthAbove ((g.dependencies name).filterMap known.value?))], stack⟩ := by
  have hall : ∀ dep ∈ g.dependencies name, (known.value? dep).isSome := by
    intro dep hdep
    simpa [Option.isSome_iff_ne_none] using List.filter_eq_nil_iff.1 hpending dep hdep
  simp only [turn, hk, hpending, mapM_value? hall, Bool.false_eq_true, if_false]
  rfl

theorem turn_of_pending {dep : String} {deps : List String} (hk : ¬ (known.value? name).isSome)
    (hpending : (g.dependencies name).filter (fun dep => (known.value? dep).isNone) = dep :: deps) :
    turn g ⟨starts, known, name :: stack⟩ = some ⟨starts, known, (dep :: deps).reverse ++ name :: stack⟩ := by
  simp only [turn, hk, hpending, Bool.false_eq_true, if_false]

/-- a turn writes no depth that is written already -/
theorem turn_nodup (h : u.turn g = some v) (hnd : u.written.keys.Nodup) : v.written.keys.Nodup := by
  obtain ⟨starts, known, stack⟩ := u
  cases stack with
  | nil => cases starts <;> cases h <;> exact hnd
  | cons name stack =>
    by_cases hk : (known.value? name).isSome
    · rw [turn_of_known hk] at h
      cases h
      exact hnd
    · cases hpending : (g.dependencies name).filter fun dep => (known.value? dep).isNone with
      | nil =>
        rw [turn_of_ready hk hpending] at h
        cases h
        rw [Entries.keys, List.map_append]
        refine List.nodup_append.2 ⟨hnd, List.nodup_singleton _, fun a ha b hb => ?_⟩
        rintro rfl
        rw [List.mem_singleton.1 hb] at ha
        exact hk (Entries.mem_keys_iff.1 ha)
      | cons dep deps =>
        rw [turn_of_pending hk hpending] at h
        cases h
        exact hnd

theorem turns_nodup {n : ℕ} (h : turns g n u = some v) (hnd : u.written.keys.Nodup) : v.written.keys.Nodup := by
  induction n generalizing u with
  | zero => cases h; exact hnd
  | succ n ih =>
    obtain ⟨w, hw, h⟩ := Option.bind_eq_some_iff.1 h
    exact ih h (turn_nodup hw hnd)

/-! ## The search with a memory takes the same turns -/

theorem step_turn {s s' : Settling} (h : s.step g = some s') (hs : s.stack ≠ []) (starts : List String) :
    turn g ⟨starts, s.known, s.stack⟩ = some ⟨starts, s'.known, s'.stack⟩ := by
  obtain ⟨name, stack, hstack⟩ := List.exists_cons_of_ne_nil hs
  rw [hstack]
  by_cases hk : (s.known.value? name).isSome
  · simp only [Settling.step, hstack, hk, if_true, Option.some.injEq] at h
    rw [turn_of_known hk, ← h]
  · cases hpending : (g.dependencies name).filter fun dep => (s.known.value? dep).isNone with
    | nil =>
      simp only [Settling.step, hstack, hk, hpending, Bool.false_eq_true, if_false, Option.some.injEq] at h
      rw [turn_of_ready hk hpending, ← h, Entries.put_of_new (Option.not_isSome_iff_eq_none.1 hk)]
    | cons dep deps =>
      simp only [Settling.step, hstack, hk, hpending, Bool.false_eq_true, if_false, Option.ite_none_left_eq_some,
        Option.some.injEq] at h
      rw [turn_of_pending hk hpending, ← h.2]

/-- where the search comes to its end from some stack, turns take that stack down -/
theorem exists_turns_run {s : Settling} (h : s.run g = some known) (starts : List String) :
    ∃ n, turns g n ⟨starts, s.known, s.stack⟩ = some ⟨starts, known, []⟩ := by
  induction s using Settling.run.induct g with
  | case1 s hs =>
    rw [Settling.run, dif_pos hs] at h
    cases h
    exact ⟨0, by rw [hs]; rfl⟩
  | case2 s hs hstep =>
    rw [Settling.run, dif_neg hs] at h
    split at h
    next => cases h
    next s' hsome => rw [hstep] at hsome; cases hsome
  | case3 s hs s' hstep ih =>
    rw [Settling.run_step hs hstep] at h
    obtain ⟨n, hn⟩ := ih h
    refine ⟨n + 1, ?_⟩
    rw [turns, step_turn hstep hs]
    exact hn

/-- a search from a name that has its depth changes nothing -/
theorem run_of_known {name : String} (hname : (known.value? name).isSome) :
    Settling.run g { known, stack := [name] } = some known := by
  have hstep : Settling.step g { known, stack := [name] } = some { known, stack := [] } := by
    simp [Settling.step, hname]
  rw [Settling.run_step (List.cons_ne_nil _ _) hstep, Settling.run, dif_pos rfl]

/-- where searches from one name after the other come to their end, turns use up these names to start from -/
theorem exists_turns_foldlM {names : List String}
    (h : names.foldlM (fun known name => Settling.run g { known, stack := [name] }) known = some known') :
    ∃ n, turns g n ⟨names, known, []⟩ = some ⟨[], known', []⟩ := by
  induction names generalizing known with
  | nil =>
    cases h
    exact ⟨0, rfl⟩
  | cons name names ih =>
    rw [List.foldlM_cons] at h
    obtain ⟨known₁, hrun, hrest⟩ := Option.bind_eq_some_iff.1 h
    obtain ⟨n, hn⟩ := ih hrest
    by_cases hk : (known.value? name).isSome
    · have hsame : known₁ = known := by
        rw [run_of_known hk] at hrun
        exact (Option.some.inj hrun).symm
      have hstart : turns g 1 ⟨name :: names, known, []⟩ = some ⟨names, known, []⟩ := by simp [turns, turn, hk]
      exact ⟨1 + n, turns_trans hstart (hsame ▸ hn)⟩
    · have hstart : turns g 1 ⟨name :: names, known, []⟩ = some ⟨names, known, [name]⟩ := by simp [turns, turn, hk]
      obtain ⟨m, hm⟩ := exists_turns_run hrun names
      exact ⟨1 + (m + n), turns_trans hstart (turns_trans hm hn)⟩

end

end Unwinding

/-! ## Its end -/

/-- the turns come to their end with these depths written: one for each name of the graph and none twice, each the
number of edges on the longest chain that starts there -/
structure Unwinds (g : Graph) (written : Depths) : Prop where
  ends : ∃ n, Unwinding.turns g n { starts := g.names } = some { starts := [], written }
  once : written.keys.Nodup
  names : ∀ a, a ∈ written.keys ↔ a ∈ g.names
  longest : ∀ e ∈ written, HasDepth g.Waits e.1 e.2

theorem unwinds_of_acyclic {g : Graph} (hc : g.Closed) (hac : ¬ Cyclic g.Waits) :
    ∃ written, depths g = some written ∧ Unwinds g written := by
  obtain ⟨written, hdepths, hm, hall⟩ := depths_eq_some hc hac
  obtain ⟨n, hn⟩ := Unwinding.exists_turns_foldlM hdepths
  refine ⟨written, hdepths, ⟨n, hn⟩, Unwinding.turns_nodup hn List.nodup_nil, fun a => ⟨fun ha => ?_, fun ha => ?_⟩,
    fun e he => (hm e he).2⟩
  · obtain ⟨e, he, rfl⟩ := List.mem_map.1 ha
    exact (hm e he).1
  · exact Entries.mem_keys_iff.2 (hall a ha)

/-- **Depths are written once, and building ends.** On a graph that owns all that its nodes wait for, and where no name
comes back to itself, the turns come to their end. In the graph of any targets a loop is found, and the graph keeps it
and is done; or none is found, and the turns on that graph come to their end. The search for a loop breaks off in
neither case. -/
theorem unwinds_depths :
    (∀ g : Graph, g.Closed → ¬ Cyclic g.Waits → ∃ written, depths g = some written ∧ Unwinds g written) ∧
      ∀ ts : List Target,
        (∃ walk, findCycle (ofWires (.ofTargets ts)) = .ok (some walk) ∧
          build ts = { ofWires (.ofTargets ts) with cycle := some walk }) ∨
        (findCycle (ofWires (.ofTargets ts)) = .ok none ∧ build ts = annotate (ofWires (.ofTargets ts)) ∧
          ∃ written, depths (assignOrder (ofWires (.ofTargets ts))) = some written ∧
            Unwinds (assignOrder (ofWires (.ofTargets ts))) written) := by
  refine ⟨fun g hc hac => unwinds_of_acyclic hc hac, fun ts => ?_⟩
  have hwired := wired_ofTargets ts
  have hr := remarks_assignOrder (ofWires (.ofTargets ts))
  rcases findCycle_cases hwired.closed with ⟨walk, hfound, -⟩ | ⟨hnone, hac⟩
  · exact .inl ⟨walk, hfound, by simp only [build, hfound]⟩
  · refine .inr ⟨hnone, by simp only [build, hnone], unwinds_of_acyclic (hr.wired hwired).closed ?_⟩
    rwa [hr.waits]

/-- `low` stands on the stack twice at a time, for `top` and above `right`, and is looked at again once its depth is
written -/
def diamond : List Target :=
  [{ name := "top", dependencies := ["low", "left", "right"] }, { name := "left", dependencies := ["low"] },
    { name := "right", dependencies := ["low"] }, { name := "low" }]

theorem unwinds_depths_diamond :
    (ofWires (.ofTargets diamond)).Closed ∧ ¬ Cyclic (ofWires (.ofTargets diamond)).Waits ∧
      ∃ written, depths (ofWires (.ofTargets diamond)) = some written ∧
      Unwinds (ofWires (.ofTargets diamond)) written := by
  have hclosed := (wired_ofTargets diamond).closed
  have hac : ¬ Cyclic (ofWires (.ofTargets diamond)).Waits := by
    rw [waits_ofTargets_eq]
    exact not_cyclic_of_rank (["low", "right", "left", "top"].idxOf ·) (by decide)
  exact ⟨hclosed, hac, unwinds_depths.1 _ hclosed hac⟩

end MakeAtlas.Graph
