/-
Loops. What the search answers on a graph that owns all that its nodes wait for, and so on every built graph.
- `isSome_findCycle_iff`: the search always has an answer, and it is a loop exactly when some name comes back to itself
  along the dependencies. A built graph keeps that answer.
- `isLoop_findCycle`: a loop in an answer is a closed walk along edges that meets no name twice; reading it back along
  the links never fails.
Witnesses: `tangle`, where the walk leaves one branch for good, comes back to it, and closes a loop in another branch,
and `ring`.
-/
import MakeAtlas.Proofs.Graph.Search
import MakeAtlas.Proofs.Graph.Wiring

namespace MakeAtlas.Graph

open Makefile (Target)

/-! ## The answer depends on the edges only -/

theorem step_congr {g g' : Graph} (hd : g.dependencies = g'.dependencies) (s : Search) : s.step g = s.step g' := by
  unfold Search.step
  rw [hd]

theorem run_congr {g g' : Graph} (hd : g.dependencies = g'.dependencies) (s : Search) : s.run g = s.run g' := by
  induction s using Search.run.induct g with
  | case1 s hp => rw [Search.run_of_path_nil hp, Search.run_of_path_nil hp]
  | case2 s hp e he =>
    rw [Search.run_of_path_ne_nil hp, Search.run_of_path_ne_nil hp, ← step_congr hd, he]
    rfl
  | case3 s hp t ht ih =>
    rw [Search.run_of_path_ne_nil hp, Search.run_of_path_ne_nil hp, ← step_congr hd, ht]
    exact ih

theorem findCycle_congr {g g' : Graph} (hn : g.names = g'.names) (hd : g.dependencies = g'.dependencies) :
    g.findCycle = g'.findCycle := by
  have hvisit : Search.visit g = Search.visit g' := by
    funext s name
    unfold Search.visit Search.enter
    rw [hd, run_congr hd]
  unfold findCycle search
  rw [hvisit, hn, Search.start, Search.start, hn]

/-! ## Answers -/

/-- a search in a closed graph ends with a loop, or ends and there is none -/
theorem findCycle_cases {g : Graph} (hc : g.Closed) :
    (∃ walk, g.findCycle = .ok (some walk) ∧ IsLoop g.Waits walk) ∨ g.findCycle = .ok none ∧ ¬ Cyclic g.Waits := by
  unfold findCycle
  cases hs : search g with
  | ok s => exact .inr ⟨rfl, search_ok hs⟩
  | error e =>
    have hj := search_error hs
    cases e with
    | loop walk => exact .inl ⟨walk, rfl, hj⟩
    | outside dep =>
      obtain ⟨hout, name, hname, hdep⟩ := hj
      exact absurd (hc name hname dep hdep) hout
    | astray name => exact hj.elim

theorem findCycle_build (ts : List Target) : (build ts).findCycle = .ok (build ts).cycle := by
  rw [findCycle_congr (names_build ts) (remarks_build ts).dependencies]
  unfold build
  simp only
  split
  next h => rw [h]; rfl
  next h => rw [h]
  next h =>
    rcases findCycle_cases (wired_ofTargets ts).closed with ⟨walk, hw, -⟩ | ⟨hw, -⟩ <;> rw [hw] at h <;> cases h

/-- without a loop the wired graph gets its marks -/
theorem build_of_acyclic {ts : List Target} (hac : ¬ Cyclic (Depends ts)) :
    build ts = annotate (ofWires (.ofTargets ts)) := by
  have hw := waits_ofTargets_eq ts
  rcases findCycle_cases (wired_ofTargets ts).closed with ⟨walk, -, hloop⟩ | ⟨hnone, -⟩
  · exact absurd (hw ▸ hloop.cyclic) hac
  · simp only [build, hnone]

/-- with a loop it keeps the loop and gets no marks -/
theorem build_of_cyclic {ts : List Target} (hcy : Cyclic (Depends ts)) :
    ∃ walk, build ts = { ofWires (.ofTargets ts) with cycle := some walk } := by
  have hw := waits_ofTargets_eq ts
  rcases findCycle_cases (wired_ofTargets ts).closed with ⟨walk, hloop, -⟩ | ⟨-, hac⟩
  · exact ⟨walk, by simp only [build, hloop]⟩
  · exact absurd hcy (hw ▸ hac)

/-- with a loop no node is marked -/
theorem unmarked_of_cyclic {ts : List Target} (hcy : Cyclic (Depends ts)) {n : Node} (hn : n ∈ (build ts).nodes) :
    n.order = 0 ∧ n.critical = false := by
  rw [(wired_build ts).nodes_eq] at hn
  obtain ⟨walk, hbuild⟩ := build_of_cyclic hcy
  rw [hbuild] at hn
  exact unmarked_ofTargets ts hn

/-- a name that waits for itself -/
def ring : List Target := [{ name := "a", dependencies := ["a"] }]

theorem cyclic_ring : Cyclic (Depends ring) := ⟨"a", .single ⟨_, rfl, List.mem_singleton_self "a"⟩⟩

/-- **The search answers, and finds a loop exactly when there is one.** -/
theorem isSome_findCycle_iff :
    (∀ g : Graph, g.Closed → ∃ answer, g.findCycle = .ok answer ∧ (answer.isSome ↔ Cyclic g.Waits)) ∧
      ∀ ts : List Target, (build ts).findCycle = .ok (build ts).cycle ∧
      ((build ts).cycle.isSome ↔ Cyclic (Depends ts)) := by
  have hclosed : ∀ g : Graph, g.Closed → ∃ answer, g.findCycle = .ok answer ∧ (answer.isSome ↔ Cyclic g.Waits) := by
    intro g hc
    rcases findCycle_cases hc with ⟨walk, hw, hloop⟩ | ⟨hw, hac⟩
    · exact ⟨some walk, hw, iff_of_true rfl hloop.cyclic⟩
    · exact ⟨none, hw, iff_of_false (by simp) hac⟩
  refine ⟨hclosed, fun ts => ⟨findCycle_build ts, ?_⟩⟩
  obtain ⟨answer, ha, hiff⟩ := hclosed (build ts) (wired_build ts).closed
  rw [findCycle_build] at ha
  cases ha
  rw [hiff, waits_build]

/-- `d` is left for good below `b` and met again from `c`; then `e` leads back to `c` -/
def tangle : Graph where
  store :=
    [{ name := "a", dependencies := ["b", "c"] }, { name := "b", dependencies := ["d"] },
      { name := "c", dependencies := ["d", "e"] }, { name := "d" }, { name := "e", dependencies := ["c"] }]
  names := ["a", "b", "c", "d", "e"]

theorem isSome_findCycle_tangle :
    tangle.Closed ∧ ∃ answer, tangle.findCycle = .ok answer ∧ (answer.isSome ↔ Cyclic tangle.Waits) :=
  ⟨by decide, isSome_findCycle_iff.1 tangle (by decide)⟩

/-- **A loop in an answer is real and simple.** It begins where it ends, goes along edges, and meets no name twice
before it closes. The links that it is read back along are never missing and always lead to its beginning. -/
theorem isLoop_findCycle :
    (∀ g : Graph, g.Closed →
      (∀ name, search g ≠ .error (.astray name)) ∧ ∀ walk, g.findCycle = .ok (some walk) → IsLoop g.Waits walk) ∧
      ∀ (ts : List Target) (walk : List String), (build ts).cycle = some walk → IsLoop (Depends ts) walk := by
  have hclosed : ∀ g : Graph, g.Closed → ∀ walk, g.findCycle = .ok (some walk) → IsLoop g.Waits walk := by
    intro g hc walk hw
    rcases findCycle_cases hc with ⟨walk', hw', hloop⟩ | ⟨hw', -⟩
    · rw [hw] at hw'
      cases hw'
      exact hloop
    · rw [hw] at hw'
      cases hw'
  refine ⟨fun g hc => ⟨fun name hs => search_error hs, hclosed g hc⟩, fun ts walk hw => ?_⟩
  rw [← waits_build]
  exact hclosed (build ts) (wired_build ts).closed walk (by rw [findCycle_build, hw])

theorem cycle_ring : (build ring).cycle = some ["a", "a"] := by
  have hwired : ofWires (.ofTargets ring) =
      { store := [{ name := "a", dependencies := ["a"], dependents := ["a"] }], names := ["a"] } := by rfl
  have hclimb : climb [] "a" "a" = some [] := climb_path [] (by simp) (by decide) rfl
  have hf : (ofWires (.ofTargets ring)).findCycle = .ok (some ["a", "a"]) := by
    unfold findCycle search
    simp +decide [hwired, Search.start, Search.visit, Search.enter, Search.run_of_path_ne_nil, Search.step, Entries.put,
      Entries.value?_cons, Graph.dependencies, dependenciesIn, lookup, Except.bind, hclimb, closedWalk]
  simp only [build, hf]

theorem isLoop_findCycle_tangle :
    (tangle.Closed ∧ tangle.findCycle = .ok (some ["c", "e", "c"]) ∧ IsLoop tangle.Waits ["c", "e", "c"]) ∧
      (build ring).cycle = some ["a", "a"] ∧ IsLoop (Depends ring) ["a", "a"] := by
  have hclimb : climb [("b", "a"), ("d", "b"), ("c", "a"), ("e", "c")] "c" "e" = some ["e"] :=
    climb_path ["e"] (by simp [Entries.value?_cons]) (by decide) rfl
  have hf : tangle.findCycle = .ok (some ["c", "e", "c"]) := by
    unfold findCycle search
    simp +decide [tangle, Search.start, Search.visit, Search.enter, Search.run_of_path_ne_nil, Search.step, Entries.put,
      Entries.value?_cons, Graph.dependencies, dependenciesIn, lookup, Except.bind, hclimb, closedWalk]
  exact ⟨⟨by decide, hf, (isLoop_findCycle.1 tangle (by decide)).2 _ hf⟩, cycle_ring,
    isLoop_findCycle.2 ring _ cycle_ring⟩

end MakeAtlas.Graph
