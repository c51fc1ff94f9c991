/-
Nodes side by side. Two nodes of one order have one depth, and the depth falls along every way down the edges, so
neither waits for the other, however far apart they are.
- `Apart`, `apart_of_hasDepth`: names of one depth do not reach each other.
- `parallel_build_iff_node`: what the marking says of a node, in terms of other nodes and of chains.
- `alongside_build`: on every built graph, whatever shares an order that was given, and so whatever is marked at one
  order, is apart.
Witness: `alongside_build_siblings`. Counterexample `unordered_not_apart`: with a loop no order is given, and all nodes
share the 0.
-/
import MakeAtlas.Proofs.Graph.Reordering

namespace MakeAtlas.Graph

open Relation
open Makefile (Target)

/-- neither of the two is reached from the other -/
def Apart (r : String → String → Prop) (a b : String) : Prop := ¬ ReflTransGen r a b ∧ ¬ ReflTransGen r b a

/-- names of one depth are apart -/
theorem apart_of_hasDepth {r : String → String → Prop} {a b : String} {d : ℕ} (hne : a ≠ b) (ha : HasDepth r a d)
    (hb : HasDepth r b d) : Apart r a b := by
  constructor
  · intro hab
    rcases reflTransGen_iff_eq_or_transGen.1 hab with heq | hab
    · exact hne heq.symm
    · exact lt_irrefl d (ha.lt_of_transGen hab hb)
  · intro hba
    rcases reflTransGen_iff_eq_or_transGen.1 hba with heq | hba
    · exact hne heq
    · exact lt_irrefl d (hb.lt_of_transGen hba ha)

section Nodes

variable {ts : List Target} {n m : Node} (hn : n ∈ (build ts).nodes) (hm : m ∈ (build ts).nodes)

include hn in
/-- **Marks.** A node is parallel when there is no loop, and it and another node wait for something and have the same
depth. -/
theorem parallel_build_iff_node : n.parallel = true ↔ ¬ Cyclic (Depends ts) ∧ n.dependencies ≠ [] ∧
    ∃ m ∈ (build ts).nodes, m ≠ n ∧ m.dependencies ≠ [] ∧
      ∃ d, HasDepth (Depends ts) n.name d ∧ HasDepth (Depends ts) m.name d := by
  rw [parallel_iff_depth hn, waiting_build_iff hn]
  refine and_congr_right fun _ => and_congr_right fun _ => ⟨fun hsome => ?_, fun hsome => ?_⟩
  · obtain ⟨c, hne, hwaits, hdepth⟩ := hsome
    obtain ⟨b, hcb⟩ := hwaits
    have hedge : (build ts).Waits c b := waits_build ts ▸ hcb
    obtain ⟨m, hm, rfl⟩ := (wired_build ts).exists_node hedge.1
    exact ⟨m, hm, fun heq => hne (heq ▸ rfl), (waiting_build_iff hm).2 ⟨b, hcb⟩, hdepth⟩
  · obtain ⟨m, hm, hne, hwaits, hdepth⟩ := hsome
    exact ⟨m.name, fun hname => hne ((wired_build ts).eq_of_name hn hm hname), (waiting_build_iff hm).1 hwaits, hdepth⟩

include hn in
/-- an order is given only where there is no loop -/
theorem not_cyclic_of_order (horder : 0 < n.order) : ¬ Cyclic (Depends ts) := by
  intro hcy
  rw [(unmarked_of_cyclic hcy hn).1] at horder
  exact lt_irrefl 0 horder

include hn hm in
/-- **One order.** Two nodes that were given one order are apart. -/
theorem apart_of_order_eq (hne : m ≠ n) (hsame : m.order = n.order) (horder : 0 < n.order) :
    Apart (Depends ts) n.name m.name := by
  have hac := not_cyclic_of_order hn horder
  obtain ⟨d, hd, hdorder⟩ := order_build hn hac
  obtain ⟨e, he, heorder⟩ := order_build hm hac
  obtain rfl : d = e := by omega
  exact apart_of_hasDepth (fun hname => hne ((wired_build ts).eq_of_name hn hm hname.symm)) hd he

include hn in
theorem order_pos_of_parallel (hmark : n.parallel = true) : 0 < n.order := by
  obtain ⟨d, -, horder⟩ := order_build hn ((parallel_build_iff_node hn).1 hmark).1
  omega

end Nodes

/-- what stands at one order can run side by side -/
structure Alongside (r : String → String → Prop) (g : Graph) : Prop where
  /-- a node is marked when there is no loop, and it and another node wait for something and have longest chains of one
  length -/
  parallel : ∀ n ∈ g.nodes, n.parallel = true ↔ ¬ Cyclic r ∧ n.dependencies ≠ [] ∧
    ∃ m ∈ g.nodes, m ≠ n ∧ m.dependencies ≠ [] ∧ ∃ d, HasDepth r n.name d ∧ HasDepth r m.name d
  /-- nodes that were given one order are apart; order 0 means that none was given -/
  apart : ∀ n ∈ g.nodes, ∀ m ∈ g.nodes, m ≠ n → m.order = n.order → 0 < n.order → Apart r n.name m.name
  /-- so nodes that are marked at one order are apart -/
  marked_apart : ∀ n ∈ g.nodes, ∀ m ∈ g.nodes, m ≠ n → m.order = n.order → n.parallel = true → m.parallel = true →
    Apart r n.name m.name

/-- **Nodes at one order can run side by side.** On every built graph, with a loop or without. -/
theorem alongside_build (ts : List Target) : Alongside (Depends ts) (build ts) where
  parallel _ hn := parallel_build_iff_node hn
  apart _ hn _ hm hne hsame horder := apart_of_order_eq hn hm hne hsame horder
  marked_apart _ hn _ hm hne hsame hmark _ := apart_of_order_eq hn hm hne hsame (order_pos_of_parallel hn hmark)

/-- two names that wait for the same one, below a name that waits for both; `lint` waits for none -/
def siblings : List Target :=
  [{ name := "all", dependencies := ["build", "test"] }, { name := "build", dependencies := ["deps"] },
    { name := "test", dependencies := ["deps"] }, { name := "lint" }]

theorem not_cyclic_siblings : ¬ Cyclic (Depends siblings) :=
  not_cyclic_of_rank (["lint", "deps", "build", "test", "all"].idxOf ·) (by decide)

/-- the two are marked at one order and are apart; `lint` shares an order with `deps`, and neither is marked -/
theorem alongside_build_siblings :
    (∃ n ∈ (build siblings).nodes, ∃ m ∈ (build siblings).nodes, (n.name, n.order, n.parallel) = ("build", 2, true) ∧
      (m.name, m.order, m.parallel) = ("test", 2, true) ∧ Apart (Depends siblings) n.name m.name) ∧
      ∃ n ∈ (build siblings).nodes, ∃ m ∈ (build siblings).nodes, (n.name, n.order, n.parallel) = ("lint", 1, false) ∧
        (m.name, m.order, m.parallel) = ("deps", 1, false) ∧ Apart (Depends siblings) n.name m.name := by
  have hbuild := build_of_acyclic not_cyclic_siblings
  have hmarked : ∃ n ∈ (build siblings).nodes, ∃ m ∈ (build siblings).nodes, (n.name, n.order, n.parallel) =
    ("build", 2, true) ∧
      (m.name, m.order, m.parallel) = ("test", 2, true) := by
    rw [hbuild]
    decide +kernel
  have hplain : ∃ n ∈ (build siblings).nodes, ∃ m ∈ (build siblings).nodes, (n.name, n.order, n.parallel) =
    ("lint", 1, false) ∧
      (m.name, m.order, m.parallel) = ("deps", 1, false) := by
    rw [hbuild]
    decide +kernel
  obtain ⟨n, hn, m, hm, hbuild, htest⟩ := hmarked
  obtain ⟨k, hk, l, hl, hlint, hdeps⟩ := hplain
  simp only [Prod.mk.injEq] at hbuild htest hlint hdeps
  refine ⟨⟨n, hn, m, hm, by simp only [hbuild], by simp only [htest], ?_⟩, k, hk, l,
    hl, by simp only [hlint], by simp only [hdeps], ?_⟩
  · apply (alongside_build siblings).marked_apart n hn m hm _ (htest.2.1.trans hbuild.2.1.symm) hbuild.2.2 htest.2.2
    rintro rfl
    exact absurd (hbuild.1.symm.trans htest.1) (by decide)
  · apply (alongside_build siblings).apart k hk l hl _ (hdeps.2.1.trans hlint.2.1.symm) (hlint.2.1.symm ▸ Nat.one_pos)
    rintro rfl
    exact absurd (hlint.1.symm.trans hdeps.1) (by decide)

/-- one name that waits for another, and a loop elsewhere -/
def ringElsewhere : List Target :=
  [{ name := "a", dependencies := ["b"] }, { name := "b" }, { name := "c", dependencies := ["c"] }]

/-- **Without an order nothing is apart.** The loop keeps `a` and `b` at order 0, and `a` waits for `b`. -/
theorem unordered_not_apart :
    ¬ ∀ (ts : List Target), ∀ n ∈ (build ts).nodes, ∀ m ∈ (build ts).nodes, m ≠ n → m.order = n.order →
      Apart (Depends ts) n.name m.name := by
  intro h
  have hcy : Cyclic (Depends ringElsewhere) := ⟨"c", .single ⟨_, rfl, List.mem_singleton_self "c"⟩⟩
  have hmem : ∀ name ∈ ringElsewhere.map (·.name), name ∈ (build ringElsewhere).names :=
    fun name hname => List.contains_iff_mem.1 (has_build hname)
  obtain ⟨n, hn, ha⟩ := (wired_build ringElsewhere).exists_node (hmem "a" (by decide))
  obtain ⟨m, hm, hb⟩ := (wired_build ringElsewhere).exists_node (hmem "b" (by decide))
  have hne : m ≠ n := by
    rintro rfl
    exact absurd (ha.symm.trans hb) (by decide)
  have hsame : m.order = n.order := (unmarked_of_cyclic hcy hm).1.trans (unmarked_of_cyclic hcy hn).1.symm
  have hedge : Depends ringElsewhere n.name m.name := by
    rw [ha, hb]
    exact ⟨_, rfl, List.mem_singleton_self "b"⟩
  exact (h ringElsewhere n hn m hm hne hsame).1 (.single hedge)

end MakeAtlas.Graph
