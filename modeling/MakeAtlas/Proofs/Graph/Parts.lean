/-
Parts of a graph: a built graph, and what is left of it by one focus after the other. Without a loop, a part hangs
together below its roots.
- `reached_focus`: what a focus keeps is reached from its root without leaving the part.
- `Rooted`: every name of the graph is below a root, and no name of it waits for a root.
- `rooted_build`, `Rooted.focus`, `rooted_focusAll`: a graph built without a loop is such, a focus keeps it, and so do
  all.
-/
import MakeAtlas.Proofs.Graph.Faithful
import MakeAtlas.Proofs.Graph.Focus
import MakeAtlas.Proofs.Graph.Loops

namespace MakeAtlas.Graph

open Relation
open Makefile (Target)

/-- one focus after the other -/
def focusAll (g : Graph) (steps : List (String × Int)) : Graph := steps.foldl (fun g step => g.focus step.1 step.2) g

/-- the graph of these targets, or what is left of it by one focus after the other -/
def PartOf (ts : List Target) (g : Graph) : Prop := ∃ steps, g = (build ts).focusAll steps

/-- what the node of this name waits for inside the graph -/
def children (g : Graph) (name : String) : List String := (g.dependencies name).filter g.has

/-- an edge with both ends in the graph -/
def Inside (g : Graph) (a b : String) : Prop := g.Waits a b ∧ b ∈ g.names

/-- every name of the graph is below a root, and no name of it waits for a root -/
structure Rooted (g : Graph) : Prop where
  nodup_dependencies : ∀ a, (g.dependencies a).Nodup
  /-- no edges close a loop, inside the graph or outside -/
  acyclic : ¬ Cyclic fun a b => b ∈ g.dependencies a
  nodup : g.names.Nodup
  nodup_roots : g.roots.Nodup
  roots_subset : ∀ r ∈ g.roots, r ∈ g.names
  free : ∀ r ∈ g.roots, ∀ a ∈ g.names, r ∉ g.dependencies a
  below : ∀ a ∈ g.names, ∃ r ∈ g.roots, ReflTransGen g.Inside r a

theorem mem_children {g : Graph} {a b : String} : b ∈ g.children a ↔ b ∈ g.dependencies a ∧ b ∈ g.names := by
  rw [children, List.mem_filter, has, List.contains_iff_mem]

theorem inside_iff {g : Graph} {a b : String} : g.Inside a b ↔ a ∈ g.names ∧ b ∈ g.children a := by
  rw [Inside, Waits, mem_children, and_assoc]

/-! ## Parts without a loop -/

theorem mem_names_focus {g : Graph} {name : String} (h : g.has name = true) (depth : Int) :
    name ∈ (g.focus name depth).names :=
  ((nearest_focus h depth).mem_iff name).2 ⟨0, Nat.zero_le _, hasDistance_self _ _⟩

theorem rooted_empty : Rooted {} := by
  refine ⟨fun a => List.nodup_nil, ?_, List.nodup_nil, List.nodup_nil, ?_, ?_, ?_⟩
  · intro hsome
    obtain ⟨a, ha⟩ := hsome
    obtain ⟨b, hab, -⟩ := TransGen.head'_iff.1 ha
    cases hab
  all_goals
    intro a ha
    cases ha

/-- what a focus keeps is reached from its root without leaving the part -/
theorem reached_focus {g : Graph} {name : String} (h : g.has name = true) (depth : Int) {a : String}
    (ha : a ∈ (g.focus name depth).names) : ReflTransGen (fun x y => y ∈ g.dependencies x ∧
      x ∈ (g.focus name depth).names ∧ y ∈ (g.focus name depth).names) name a := by
  have hmem := (nearest_focus h depth).mem_iff
  obtain ⟨k, hk, hdist⟩ := (hmem a).1 ha
  refine (hdist.reaches_within hk).lift id fun x y hxy => ?_
  obtain ⟨hstep, hx, hy⟩ := hxy
  exact ⟨hstep, (hmem x).2 hx, (hmem y).2 hy⟩

/-- **A focus keeps a part together.** -/
theorem Rooted.focus {g : Graph} (h : Rooted g) (name : String) (depth : Int) : Rooted (g.focus name depth) := by
  by_cases hhas : g.has name = true
  · have hroots : (g.focus name depth).roots = [name] := by rw [focus_of_has hhas]
    have hdeps : (g.focus name depth).dependencies = g.dependencies := by rw [focus_of_has hhas]; rfl
    refine ⟨hdeps ▸ h.nodup_dependencies, hdeps ▸ h.acyclic, (nearest_focus hhas depth).nodup, ?_, ?_, ?_, ?_⟩
    · rw [hroots]
      exact List.nodup_singleton _
    · intro r hr
      rw [hroots, List.mem_singleton] at hr
      exact hr ▸ mem_names_focus hhas depth
    · intro r hr a ha hdep
      rw [hroots, List.mem_singleton] at hr
      rw [hdeps, hr] at hdep
      have hpath : ReflTransGen (fun x y => y ∈ g.dependencies x) name a :=
        (reached_focus hhas depth ha).lift id fun x y hxy => hxy.1
      exact h.acyclic ⟨name, TransGen.tail' hpath hdep⟩
    · intro a ha
      refine ⟨name, by rw [hroots]; exact List.mem_singleton_self name,
        (reached_focus hhas depth ha).lift id fun x y hxy => ?_⟩
      obtain ⟨hstep, hx, hy⟩ := hxy
      exact ⟨⟨hx, hdeps ▸ hstep⟩, hy⟩
  · rw [Graph.focus, if_neg hhas]
    exact rooted_empty

/-- without a loop, going up the edges ends at a root -/
theorem Wired.exists_root {g : Graph} (hg : Wired g) (hac : ¬ Cyclic g.Waits) {a : String} (ha : a ∈ g.names) :
    ∃ r ∈ g.names, g.dependents r = [] ∧ ReflTransGen g.Inside r a := by
  have hrev : ¬ Cyclic (flip g.Waits) := by
    intro hsome
    obtain ⟨b, hb⟩ := hsome
    exact hac ⟨b, transGen_swap.1 hb⟩
  have hwf : WellFounded g.Waits :=
    wellFounded_of_acyclic g.names (fun b c hcb => ⟨hg.closed c hcb.1 b hcb.2, hcb.1⟩) hrev
  induction a using hwf.induction with
  | _ a ih =>
    cases hup : g.dependents a with
    | nil => exact ⟨a, ha, hup, .refl⟩
    | cons b bs =>
      have hedge : g.Waits b a := (hg.mem_dependents b a).1 (by rw [hup]; exact List.mem_cons_self)
      obtain ⟨r, hr, hfree, hpath⟩ := ih b hedge hedge.1
      exact ⟨r, hr, hfree, hpath.tail ⟨hedge, ha⟩⟩

/-- the roots of a built graph are the names that nothing waits for -/
theorem mem_roots_build (ts : List Target) {r : String} :
    r ∈ (build ts).roots ↔ r ∈ (build ts).names ∧ (build ts).dependents r = [] := by
  have hg := wired_ofTargets ts
  rw [roots_build, names_build, (remarks_build ts).dependents]
  have hown : ∀ n ∈ (ofWires (.ofTargets ts)).store, (ofWires (.ofTargets ts)).dependents n.name = n.dependents :=
    fun n hn => hg.dependents_name (hg.nodes_eq ▸ hn)
  constructor
  · intro hr
    obtain ⟨n, hmem, rfl⟩ := List.mem_map.1 hr
    rw [List.mem_filter, List.isEmpty_iff] at hmem
    exact ⟨List.mem_map_of_mem hmem.1, (hown n hmem.1).trans hmem.2⟩
  · intro hboth
    obtain ⟨hname, hfree⟩ := hboth
    obtain ⟨n, hmem, rfl⟩ := List.mem_map.1 hname
    rw [hown n hmem] at hfree
    exact List.mem_map_of_mem (List.mem_filter.2 ⟨hmem, List.isEmpty_iff.2 hfree⟩)

/-- **A graph built without a loop hangs together below its roots.** -/
theorem rooted_build {ts : List Target} (hac : ¬ Cyclic (Depends ts)) : Rooted (build ts) := by
  have hg := wired_build ts
  have hwaits : ¬ Cyclic (build ts).Waits := waits_build ts ▸ hac
  have hedge : (fun a b => b ∈ (build ts).dependencies a) = (build ts).Waits := by
    funext a b
    exact propext ⟨hg.waits_of_mem, fun h => h.2⟩
  refine ⟨hg.nodup_dependencies, hedge ▸ hwaits, hg.nodup, ?_, fun r hr => ((mem_roots_build ts).1 hr).1, ?_, ?_⟩
  · rw [roots_build]
    exact ((List.filter_sublist).map _).nodup (wired_ofTargets ts).nodup
  · intro r hr a ha hdep
    have := (hg.mem_dependents a r).2 ⟨ha, hdep⟩
    rw [((mem_roots_build ts).1 hr).2] at this
    cases this
  · intro a ha
    obtain ⟨r, hr, hfree, hpath⟩ := hg.exists_root hwaits ha
    exact ⟨r, (mem_roots_build ts).2 ⟨hr, hfree⟩, hpath⟩

theorem rooted_focusAll {g : Graph} (h : Rooted g) (steps : List (String × Int)) : Rooted (g.focusAll steps) := by
  induction steps generalizing g with
  | nil => exact h
  | cons step steps ih => exact ih (h.focus step.1 step.2)

theorem PartOf.rooted {ts : List Target} {g : Graph} (hg : PartOf ts g) (hac : ¬ Cyclic (Depends ts)) : Rooted g := by
  obtain ⟨steps, rfl⟩ := hg
  exact rooted_focusAll (rooted_build hac) steps

theorem cycle_focusAll {g : Graph} (h : g.cycle = none) (steps : List (String × Int)) :
    (g.focusAll steps).cycle = none := by
  induction steps generalizing g with
  | nil => exact h
  | cons step steps ih =>
    have hstep : (g.focus step.1 step.2).cycle = none := by
      rw [focus]
      split
      · exact h
      · rfl
    exact ih hstep

theorem cycle_build_of_acyclic {ts : List Target} (hac : ¬ Cyclic (Depends ts)) : (build ts).cycle = none := by
  rw [build_of_acyclic hac]
  rfl

theorem PartOf.cycle {ts : List Target} {g : Graph} (hg : PartOf ts g) (hac : ¬ Cyclic (Depends ts)) :
    g.cycle = none := by
  obtain ⟨steps, rfl⟩ := hg
  exact cycle_focusAll (cycle_build_of_acyclic hac) steps

end MakeAtlas.Graph
