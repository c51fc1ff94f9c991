/-
The search for a loop in a part. Edges may lead out of a part, and the search stops at the first of them that it looks
at, unless it meets a loop before.
- `IsLoop.inside`: a loop never leaves the graph.
- `Answers`, `answers_findCycle`: what each answer of the search says, on every graph.
- `findCycle_eq_none_iff`, `findCycle_error_iff`: when it comes to its end, and, where there is no loop, when it stops
  at an edge.
- `answers_part`: the same of the parts of a built graph.
Witness: `answers_part_crossing`.
-/
import MakeAtlas.Proofs.Graph.Refocus

namespace MakeAtlas.Graph

open Relation
open Makefile (Target)

/-- an edge out of the graph -/
def Leaves (g : Graph) (a b : String) : Prop := g.Waits a b ∧ b ∉ g.names

theorem closed_iff_not_leaves {g : Graph} : g.Closed ↔ ∀ a b, ¬ g.Leaves a b := by
  constructor
  · intro hc a b hleaves
    exact hleaves.2 (hc a hleaves.1.1 b hleaves.1.2)
  · intro hnone a ha b hb
    by_contra hout
    exact hnone a b ⟨⟨ha, hb⟩, hout⟩

/-! ## Loops stay inside -/

/-- on a chain, every name but the last has an edge -/
theorem exists_edge_of_isChain {r : String → String → Prop} {l : List String} (hl : l.IsChain r) :
    ∀ a ∈ l.dropLast, ∃ b, r a b := by
  induction l with
  | nil => simp
  | cons a l ih =>
    cases l with
    | nil => simp
    | cons b l =>
      rw [List.isChain_cons_cons] at hl
      intro c hc
      rcases List.mem_cons.1 hc with rfl | hc
      · exact ⟨b, hl.1⟩
      · exact ih hl.2 c hc

/-- every name on a loop has an edge: the last is the first, and every other is not the last -/
theorem IsLoop.exists_edge {r : String → String → Prop} {walk : List String} (h : IsLoop r walk) :
    ∀ a ∈ walk, ∃ b, r a b := by
  obtain ⟨first, next, rest, rfl, hfirst, hchain, hlast⟩ := h.exists_cons
  have hrest : ∀ a ∈ next :: rest, ∃ b, r a b := by
    intro a ha
    rw [← List.dropLast_append_getLast (List.cons_ne_nil next rest), hlast] at ha
    rcases List.mem_append.1 ha with ha | ha
    · exact exists_edge_of_isChain hchain a ha
    · exact List.mem_singleton.1 ha ▸ ⟨next, hfirst⟩
  intro a ha
  rcases List.mem_cons.1 ha with rfl | ha
  · exact ⟨next, hfirst⟩
  · exact hrest a ha

/-- **A loop never leaves the graph.** -/
theorem IsLoop.inside {g : Graph} {walk : List String} (h : IsLoop g.Waits walk) : IsLoop g.Inside walk := by
  refine { h with edges := List.IsChain.imp_of_mem_imp (fun a b _ hb hab => ⟨hab, ?_⟩) h.edges }
  obtain ⟨c, hbc⟩ := h.exists_edge b hb
  exact hbc.1

/-! ## Answers -/

/-- what an answer of the search says: the name that it stopped at lies behind an edge out of the graph, or there is
this loop inside the graph, or no edge leaves the graph and it has no loop -/
def Answers (g : Graph) : Except String (Option (List String)) → Prop
  | .error b => ∃ a, g.Leaves a b
  | .ok (some walk) => IsLoop g.Inside walk
  | .ok none => (∀ a b, ¬ g.Leaves a b) ∧ ¬ Cyclic g.Inside

/-- **The search is right about every graph.** -/
theorem answers_findCycle (g : Graph) : g.Answers g.findCycle := by
  unfold findCycle
  cases hs : search g with
  | ok s =>
    have hac : ¬ Cyclic g.Inside := fun hcy => search_ok hs (hcy.mono fun _ _ h => h.1)
    exact ⟨closed_iff_not_leaves.1 (closed_of_search_ok hs), hac⟩
  | error e =>
    have hjustified := search_error hs
    cases e with
    | loop walk => exact hjustified.inside
    | outside b =>
      obtain ⟨hout, a, hwaits⟩ := hjustified
      exact ⟨a, hwaits, hout⟩
    | astray name => exact hjustified.elim

variable {g : Graph}

/-- the search comes to its end when no edge leaves the graph and there is no loop -/
theorem findCycle_eq_none_iff : g.findCycle = .ok none ↔ (∀ a b, ¬ g.Leaves a b) ∧ ¬ Cyclic g.Inside := by
  have hanswers := answers_findCycle g
  constructor
  · intro hnone
    rw [hnone] at hanswers
    exact hanswers
  · intro hboth
    obtain ⟨hclosed, hac⟩ := hboth
    cases hfound : g.findCycle with
    | error b =>
      rw [hfound] at hanswers
      obtain ⟨a, hleaves⟩ := hanswers
      exact absurd hleaves (hclosed a b)
    | ok answer =>
      cases answer with
      | none => rfl
      | some walk =>
        rw [hfound] at hanswers
        exact absurd hanswers.cyclic hac

/-- where there is no loop, the search stops at an edge out of the graph exactly when there is one -/
theorem findCycle_error_iff (hac : ¬ Cyclic g.Inside) : (∃ b, g.findCycle = .error b) ↔ ∃ a b, g.Leaves a b := by
  have hanswers := answers_findCycle g
  constructor
  · intro hstops
    obtain ⟨b, hb⟩ := hstops
    rw [hb] at hanswers
    obtain ⟨a, hleaves⟩ := hanswers
    exact ⟨a, b, hleaves⟩
  · intro hleaves
    obtain ⟨a, b, hab⟩ := hleaves
    have hunfinished : g.findCycle ≠ .ok none := fun hnone => (findCycle_eq_none_iff.1 hnone).1 a b hab
    cases hfound : g.findCycle with
    | error c => exact ⟨c, rfl⟩
    | ok answer =>
      cases answer with
      | none => exact absurd hfound hunfinished
      | some walk =>
        rw [hfound] at hanswers
        exact absurd hanswers.cyclic hac

/-- **The search in a part.** It stops at an edge that leaves the part, or it gives back a loop inside the part, or it
comes to its end, and then no edge leaves the part and the part has no loop. When the whole graph has no loop, it stops
exactly when some edge leaves the part. -/
theorem answers_part {ts : List Target} (hg : PartOf ts g) :
    g.Answers g.findCycle ∧ (g.findCycle = .ok none ↔ (∀ a b, ¬ g.Leaves a b) ∧ ¬ Cyclic g.Inside) ∧
      (¬ Cyclic (Depends ts) → ((∃ b, g.findCycle = .error b) ↔ ∃ a b, g.Leaves a b)) := by
  refine ⟨answers_findCycle g, findCycle_eq_none_iff, fun hac => findCycle_error_iff fun hcy => ?_⟩
  exact (hg.rooted hac).acyclic (hcy.mono fun _ _ h => h.1.2)

/-- to a depth of 1, where `build` waits for `deps` outside, and to the end -/
theorem answers_part_crossing :
    (PartOf crossing ((build crossing).focus "all" 1) ∧ ¬ Cyclic (Depends crossing) ∧
      ((build crossing).focus "all" 1).Leaves "build" "deps" ∧
      ∃ b, ((build crossing).focus "all" 1).findCycle = .error b) ∧
      PartOf crossing ((build crossing).focus "all" (-1)) ∧
      ((build crossing).focus "all" (-1)).findCycle = .ok none := by
  have hbuild := build_of_acyclic not_cyclic_crossing
  have hnear : PartOf crossing ((build crossing).focus "all" 1) := ⟨[("all", 1)], rfl⟩
  have hfar : PartOf crossing ((build crossing).focus "all" (-1)) := ⟨[("all", -1)], rfl⟩
  have hleaves : ((build crossing).focus "all" 1).Leaves "build" "deps" := by
    rw [hbuild]
    exact ⟨⟨by decide +kernel, by decide +kernel⟩, by decide +kernel⟩
  have hclosed : ((build crossing).focus "all" (-1)).Closed := by
    rw [hbuild]
    decide +kernel
  have hac : ¬ Cyclic ((build crossing).focus "all" (-1)).Inside := fun hcy =>
    (hfar.rooted not_cyclic_crossing).acyclic (hcy.mono fun _ _ h => h.1.2)
  exact ⟨⟨hnear, not_cyclic_crossing, hleaves, ((answers_part hnear).2.2 not_cyclic_crossing).2 ⟨_, _, hleaves⟩⟩, hfar,
    (answers_part hfar).2.1.2 ⟨closed_iff_not_leaves.1 hclosed, hac⟩⟩

end MakeAtlas.Graph
