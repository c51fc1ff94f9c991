/-
One focus after the other. A part shares the nodes of the graph that it was taken from, with all their edges, so a later
focus reads the same nodes as the first one and may reach beyond an earlier boundary.
- `Shares`: the invariant of a part. `Shares.focus`: one focus keeps it, and gives what it would give on the whole
  graph.
- `focusAll_build`: of a sequence only the last focus counts; after a name that is absent nothing is left.
- `listsMissing_part_iff`: the entries of missing names stay behind with the built graph, so a part lists what its nodes
  miss only when they miss nothing.
Witness: `focusAll_build_crossing`. Counterexample: `focus_forgets_missing`.
-/
import MakeAtlas.Proofs.Graph.Drawing
import MakeAtlas.Report

namespace MakeAtlas.Graph

open Makefile (Target)

/-! ## Only the last focus counts -/

/-- each name is in the graph that it is focused in -/
def Present (g : Graph) : List (String × ℤ) → Prop
  | [] => True
  | step :: steps => g.has step.1 = true ∧ Present (g.focus step.1 step.2) steps

/-- `p` has some names of `g`, with the nodes that these have there, and its loop -/
structure Shares (g p : Graph) : Prop where
  store : p.store = g.store
  cycle : p.cycle = g.cycle
  subset : ∀ a ∈ p.names, a ∈ g.names

theorem Shares.refl (g : Graph) : Shares g g := ⟨rfl, rfl, fun _ ha => ha⟩

variable {g p : Graph}

/-- **A focus of a part is a focus of the whole.** -/
theorem Shares.focus (h : Shares g p) (hg : Wired g) {name : String} (hname : p.has name = true) (depth : ℤ) :
    p.focus name depth = g.focus name depth ∧ Shares g (p.focus name depth) := by
  have hwhole : g.has name = true := List.contains_iff_mem.2 (h.subset name (List.contains_iff_mem.1 hname))
  have heq : p.focus name depth = g.focus name depth := by
    rw [focus_of_has hname, focus_of_has hwhole, h.store, h.cycle]
  refine ⟨heq, ?_⟩
  rw [heq]
  refine ⟨?_, ?_, fun a ha => hg.names_focus_subset hwhole depth ha⟩ <;> rw [focus_of_has hwhole]

theorem focus_of_not_has {name : String} (h : ¬ g.has name = true) (depth : ℤ) : g.focus name depth = {} := by
  rw [focus, if_neg h]

theorem focusAll_empty (steps : List (String × ℤ)) : ({} : Graph).focusAll steps = {} := by
  induction steps with
  | nil => rfl
  | cons step steps ih =>
    have hstep : ({} : Graph).focus step.1 step.2 = {} := focus_of_not_has (by simp [has]) step.2
    rw [focusAll, List.foldl_cons, hstep]
    exact ih

/-- a sequence of focuses that finds its names ends like its last one -/
theorem Shares.focusAll_concat (h : Shares g p) (hg : Wired g) (steps : List (String × ℤ)) (last : String × ℤ)
    (hpresent : Present p (steps ++ [last])) : p.focusAll (steps ++ [last]) = g.focus last.1 last.2 := by
  induction steps generalizing p with
  | nil => exact (h.focus hg hpresent.1 last.2).1
  | cons step steps ih => exact ih (h.focus hg hpresent.1 step.2).2 hpresent.2

/-- a sequence of focuses that misses a name leaves nothing -/
theorem focusAll_of_absent (steps more : List (String × ℤ)) (habsent : ¬ Present p steps) :
    p.focusAll (steps ++ more) = {} := by
  induction steps generalizing p with
  | nil => exact absurd trivial habsent
  | cons step steps ih =>
    by_cases hname : p.has step.1 = true
    · exact ih fun hpresent => habsent ⟨hname, hpresent⟩
    · rw [focusAll, List.cons_append, List.foldl_cons, focus_of_not_has hname]
      exact focusAll_empty (steps ++ more)

/-- **Only the last focus counts.** When each name of a sequence is in the graph that it is focused in, the last focus
on the whole graph gives the same part: the same nodes in the same order, the same roots and the same loop. When some
name is absent, nothing is left, whatever follows. -/
theorem focusAll_build (ts : List Target) (steps : List (String × ℤ)) :
    (∀ last, Present (build ts) (steps ++ [last]) →
      (build ts).focusAll (steps ++ [last]) = (build ts).focus last.1 last.2) ∧
      (¬ Present (build ts) steps → ∀ more, (build ts).focusAll (steps ++ more) = {}) :=
  ⟨fun last => (Shares.refl _).focusAll_concat (wired_build ts) steps last,
    fun habsent more => focusAll_of_absent steps more habsent⟩

/-- a boundary between `test` and `deps`, which the later focus passes; then a name that is not in the part -/
theorem focusAll_build_crossing :
    (Present (build crossing) [("all", 1), ("test", -1)] ∧
      (build crossing).focusAll [("all", 1), ("test", -1)] = (build crossing).focus "test" (-1)) ∧
      ¬ Present (build crossing) [("lint", 0), ("deps", -1)] ∧
      (build crossing).focusAll [("lint", 0), ("deps", -1), ("lint", 0)] = {} := by
  have hpresent : Present (build crossing) [("all", 1), ("test", -1)] := by
    rw [build_of_acyclic not_cyclic_crossing]
    exact ⟨by decide +kernel, by decide +kernel, trivial⟩
  have habsent : ¬ Present (build crossing) [("lint", 0), ("deps", -1)] := by
    rw [build_of_acyclic not_cyclic_crossing]
    intro hboth
    exact absurd hboth.2.1 (by decide +kernel)
  exact ⟨⟨hpresent, (focusAll_build crossing [("all", 1)]).1 ("test", -1) hpresent⟩, habsent,
    (focusAll_build crossing [("lint", 0), ("deps", -1)]).2 habsent [("lint", 0)]⟩

/-! ## Missing names stay behind -/

/-- a graph without entries lists what its nodes miss only when they miss nothing -/
theorem listsMissing_iff_of_nil (h : g.missing = []) :
    ListsMissing g ↔ ∀ n ∈ g.nodes, ∀ b ∈ n.dependencies, g.holdsPlace b = false := by
  constructor
  · intro hlists n hn b hb
    by_contra hplace
    have hne := filter_holdsPlace_ne_nil_iff.2 ⟨b, hb, Bool.eq_true_of_not_eq_false hplace⟩
    have hentry := (hlists n.name _).2 ⟨n, node?_eq_some_iff.2 ⟨hn, rfl⟩, rfl, hne⟩
    rw [h] at hentry
    cases hentry
  · intro hnone a missing
    rw [h]
    refine iff_of_false (by simp) ?_
    intro hsome
    obtain ⟨n, hn, rfl, hne⟩ := hsome
    obtain ⟨b, hb, hplace⟩ := filter_holdsPlace_ne_nil_iff.1 hne
    rw [hnone n (node?_eq_some_iff.1 hn).1 b hb] at hplace
    cases hplace

theorem missing_focus (g : Graph) (name : String) (depth : ℤ) : (g.focus name depth).missing = [] := by
  rw [focus]
  split <;> rfl

theorem missing_focusAll (h : g.missing = []) (steps : List (String × ℤ)) : (g.focusAll steps).missing = [] := by
  induction steps generalizing g with
  | nil => exact h
  | cons step steps ih => exact ih (missing_focus g step.1 step.2)

/-- **A part lists what its nodes miss only when they miss nothing.** The built graph itself lists it. A part has no
entries, and none are reported of it, so it lists what its nodes miss exactly when none of them waits for a stand-in. -/
theorem listsMissing_part_iff (ts : List Target) (steps : List (String × ℤ)) :
    ListsMissing (build ts) ∧
      (steps = [] ∨ ((build ts).focusAll steps).missing = [] ∧ Report.missingLines ((build ts).focusAll steps) = []) ∧
      (ListsMissing ((build ts).focusAll steps) ↔ steps = [] ∨
        ∀ n ∈ ((build ts).focusAll steps).nodes, ∀ b ∈ n.dependencies, ((build ts).focusAll steps).holdsPlace
          b = false) := by
  have hwhole : ListsMissing (build ts) := listsMissing_build ts
  cases steps with
  | nil => exact ⟨hwhole, .inl rfl, iff_of_true hwhole (.inl rfl)⟩
  | cons step steps =>
    have hnone : ((build ts).focusAll (step :: steps)).missing = [] :=
      missing_focusAll (missing_focus _ step.1 step.2) steps
    refine ⟨hwhole, .inr ⟨hnone, ?_⟩, (listsMissing_iff_of_nil hnone).trans (or_iff_right (by simp)).symm⟩
    rw [Report.missingLines, hnone]
    rfl

/-- one name that waits for an unknown one -/
def stray : List Target := [{ name := "a", dependencies := ["x"] }]

theorem not_cyclic_stray : ¬ Cyclic (Depends stray) := not_cyclic_of_rank (["x", "a"].idxOf ·) (by decide)

/-- **A focus forgets what is missing.** The part around `a` still waits for `x`, which no target has, and its entries
do not say so. -/
theorem focus_forgets_missing :
    (build stray).missing = [("a", ["x"])] ∧ ((build stray).focus "a" (-1)).missing = [] ∧
      (∃ n ∈ ((build stray).focus "a" (-1)).nodes, n.name = "a" ∧ n.dependencies = ["x"]) ∧
      ((build stray).focus "a" (-1)).holdsPlace "x" = true ∧ ¬ ListsMissing ((build stray).focus "a" (-1)) := by
  have hnone : ((build stray).focus "a" (-1)).missing = [] := missing_focus _ _ _
  have hnode : ∃ n ∈ ((build stray).focus "a" (-1)).nodes, n.name = "a" ∧ n.dependencies = ["x"] := by
    rw [build_of_acyclic not_cyclic_stray]
    decide +kernel
  have hplace : ((build stray).focus "a" (-1)).holdsPlace "x" = true := by
    rw [build_of_acyclic not_cyclic_stray]
    decide +kernel
  refine ⟨?_, hnone, hnode, hplace, fun hlists => ?_⟩
  · rw [missing_build]
    decide
  · obtain ⟨n, hn, -, hdeps⟩ := hnode
    have hfalse := (listsMissing_iff_of_nil hnone).1 hlists n hn "x" (by simp [hdeps])
    rw [hplace] at hfalse
    cases hfalse

end MakeAtlas.Graph
