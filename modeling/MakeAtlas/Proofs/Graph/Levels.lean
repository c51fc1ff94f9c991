/-
Orders and levels. The order of a node is one more than the number of edges on the longest chain from it, and the levels
are the nodes of each order.
- `parallel_markParallel_iff`: what the marking says of one node.
- `parallel_build_iff`, `not_parallel_of_cyclic`: what a built graph says of it, without a loop and with one.
- `foldl_enroll`, `levels_eq`: the levels in closed form, for any orders that leave no gap.
- `layered`: what follows for the levels when the orders are the depths and one.
- `order_annotate`, `layered_build`: they are, on every graph built without a loop; with a loop there is neither order
  nor level.
Witnesses: `ladder`, where a name is reached over one edge and over three, and `ring`.
-/
import MakeAtlas.Proofs.Graph.Faithful
import MakeAtlas.Proofs.Graph.Loops
import MakeAtlas.Proofs.Graph.Rounds

/-! ## Parallel nodes

Which nodes are parallel: those that wait for something, with another such node at the same order. -/

namespace MakeAtlas.Graph

open Makefile (Target)

/-- a list has more than one member when some member is not this one -/
theorem one_lt_length_iff {l : List Node} (hnd : l.Nodup) {n : Node} (hn : n ∈ l) : 1 < l.length ↔ ∃ m ∈ l, m ≠ n := by
  have hlength : l.length = (l.erase n).length + 1 := (List.perm_cons_erase hn).length_eq
  rw [hlength, Nat.lt_add_left_iff_pos, List.length_pos_iff_exists_mem]
  simp only [hnd.mem_erase_iff, and_comm]

/-- **Parallel nodes.** A node is marked when it and another node wait for something and have the same order. -/
theorem parallel_markParallel_iff {g : Graph} (hnd : (g.store.map (·.name)).Nodup) {n : Node}
    (hn : n ∈ (markParallel g).store) :
    n.parallel = true ↔ n.dependencies ≠ [] ∧
      ∃ m ∈ (markParallel g).store, m.name ≠ n.name ∧ m.dependencies ≠ [] ∧ m.order = n.order := by
  simp only [markParallel, List.mem_map] at hn ⊢
  obtain ⟨n, hn, rfl⟩ := hn
  simp only [Bool.and_eq_true, Bool.not_eq_true', List.isEmpty_eq_false_iff, decide_eq_true_eq]
  refine and_congr_right fun hdeps => ?_
  have hmem : ∀ m, m ∈ (g.store.filter (!·.dependencies.isEmpty)).filter (·.order == n.order) ↔
      m ∈ g.store ∧ m.dependencies ≠ [] ∧ m.order = n.order := by
    intro m
    simp [List.mem_filter, and_comm]
  have hnodup : ((g.store.filter (!·.dependencies.isEmpty)).filter (·.order == n.order)).Nodup :=
    ((List.Nodup.of_map _ hnd).filter _).filter _
  rw [one_lt_length_iff hnodup ((hmem n).2 ⟨hn, hdeps, rfl⟩)]
  constructor
  · intro hsome
    obtain ⟨m, hm, hne⟩ := hsome
    obtain ⟨hstore, hboth⟩ := (hmem m).1 hm
    exact ⟨_, ⟨m, hstore, rfl⟩, fun hname => hne (List.inj_on_of_nodup_map hnd hstore hn hname), hboth⟩
  · intro hsome
    obtain ⟨-, ⟨m, hstore, rfl⟩, hname, hboth⟩ := hsome
    exact ⟨m, (hmem m).2 ⟨hstore, hboth⟩, fun heq => hname (heq ▸ rfl)⟩

theorem parallel_build_iff {ts : List Target} (hac : ¬ Cyclic (Depends ts)) {n : Node} (hn : n ∈ (build ts).nodes) :
    n.parallel = true ↔ n.dependencies ≠ [] ∧
      ∃ m ∈ (build ts).nodes, m.name ≠ n.name ∧ m.dependencies ≠ [] ∧ m.order = n.order := by
  have hr := (remarks_assignOrder (ofWires (.ofTargets ts))).trans (remarks_markCritical _)
  have hwired := hr.wired (wired_ofTargets ts)
  rw [(wired_build ts).nodes_eq, build_of_acyclic hac] at hn ⊢
  exact parallel_markParallel_iff (hwired.names_eq ▸ hwired.nodup) hn

/-- with a loop no node is parallel -/
theorem not_parallel_of_cyclic {ts : List Target} (hcy : Cyclic (Depends ts)) {n : Node} (hn : n ∈ (build ts).nodes) :
    n.parallel = false := by
  rw [(wired_build ts).nodes_eq] at hn
  obtain ⟨walk, hbuild⟩ := build_of_cyclic hcy
  rw [hbuild, ofWires, ofTargets_store, wired, linkedNodes] at hn
  obtain ⟨m, hm, rfl⟩ := List.mem_map.1 hn
  rcases List.mem_append.1 hm with hm | hm
  · obtain ⟨t, -, rfl⟩ := List.mem_map.1 hm
    rfl
  · obtain ⟨x, -, rfl⟩ := List.mem_map.1 hm
    rfl

end MakeAtlas.Graph

namespace MakeAtlas.Graph

open Relation
open Makefile (Target)

/-! ## Levels in closed form -/

def namesAt (ns : List Node) (k : ℕ) : List String := (ns.filter (·.order == k)).map (·.name)

/-- a name entered joins those of its order, or begins a new entry -/
theorem enroll_map {ks : List ℕ} (hnd : ks.Nodup) (f : ℕ → List String) (k : ℕ) (hf : k ∉ ks → f k = [])
    (name : String) :
    enroll k name (ks.map fun i => (i, f i)) =
      (if k ∈ ks then ks else ks ++ [k]).map fun i => (i, if i = k then f i ++ [name] else f i) := by
  induction ks with
  | nil => simp [enroll, hf]
  | cons i ks ih =>
    rw [List.nodup_cons] at hnd
    rw [List.map_cons, enroll]
    by_cases hi : i = k
    · have hrest : ∀ j ∈ ks, (j, f j) = (j, if j = k then f j ++ [name] else f j) := by
        intro j hj
        have hne : j ≠ k := fun h => hnd.1 (hi ▸ h ▸ hj)
        simp [hne]
      simpa [hi] using hrest
    · have hne : k ≠ i := fun h => hi h.symm
      have hmem : k ∈ i :: ks ↔ k ∈ ks := by simp [hne]
      rw [if_neg (by simpa using hi), ih hnd.2 fun h => hf fun hk => h (hmem.1 hk)]
      by_cases hk : k ∈ ks <;> simp [hk, hi, hne]

theorem namesAt_concat (ns : List Node) (n : Node) (k : ℕ) :
    namesAt (ns ++ [n]) k = if k = n.order then namesAt ns k ++ [n.name] else namesAt ns k := by
  by_cases hk : k = n.order
  · simp [namesAt, hk]
  · have hne : ¬ n.order = k := fun h => hk h.symm
    simp [namesAt, hk, hne]

/-- nodes entered one after the other stand under their orders, each order where it came first -/
theorem foldl_enroll (ns : List Node) :
    ns.foldl (fun levels n => enroll n.order n.name levels) [] = (ns.map (·.order)).eraseDups.map fun k =>
    (k, namesAt ns k) := by
  induction ns using List.reverseRecOn with
  | nil => rfl
  | append_singleton ns n ih =>
    have hnone : n.order ∉ (ns.map (·.order)).eraseDups → namesAt ns n.order = [] := by
      intro h
      simp only [List.mem_eraseDups, List.mem_map, not_exists, not_and] at h
      simpa [namesAt] using h
    rw [List.foldl_append, List.foldl_cons, List.foldl_nil, ih, enroll_map (nodup_eraseDups _) _ _ hnone,
      List.map_append, List.map_singleton, eraseDups_concat]
    simp only [List.mem_eraseDups, namesAt_concat]

/-- **Levels without a gap.** When the orders of the nodes are just those from 1 to `top`, perhaps with 0, so are the
levels, in this order. -/
theorem levels_eq {g : Graph} {top : ℕ} (h : ∀ k, 0 < k → ((∃ n ∈ g.nodes, n.order = k) ↔ k ≤ top)) :
    g.levels = (List.range' 1 top).map fun k => (k, namesAt g.nodes k) := by
  let ranked := g.nodes.filter (0 < ·.order)
  let ks := (ranked.map (·.order)).eraseDups
  have hks : ks.mergeSort (· ≤ ·) = List.range' 1 top := by
    have hmem : ∀ k, k ∈ ks ↔ k ∈ List.range' 1 top := by
      intro k
      rw [List.mem_eraseDups, List.mem_map, List.mem_range'_1]
      constructor
      · intro hsome
        obtain ⟨n, hn, rfl⟩ := hsome
        rw [List.mem_filter, decide_eq_true_eq] at hn
        have := (h n.order hn.2).1 ⟨n, hn.1, rfl⟩
        omega
      · intro hboth
        obtain ⟨hpos, hle⟩ := hboth
        obtain ⟨n, hn, rfl⟩ := (h k hpos).2 (by omega)
        exact ⟨n, List.mem_filter.2 ⟨hn, decide_eq_true hpos⟩, rfl⟩
    have hperm : ks.Perm (List.range' 1 top) :=
      (List.perm_ext_iff_of_nodup (nodup_eraseDups _) List.nodup_range').2 hmem
    exact ((List.mergeSort_perm _ _).trans hperm).eq_of_pairwise' (List.pairwise_mergeSort' _ ks)
      (List.pairwise_le_range' 1)
  have hnames : ∀ k ∈ List.range' 1 top, (k, namesAt ranked k) = (k, namesAt g.nodes k) := by
    intro k hk
    have hpos : 0 < k := (List.mem_range'_1.1 hk).1
    rw [namesAt, namesAt, List.filter_filter]
    congr 3
    funext n
    rw [Bool.eq_iff_iff]
    simp only [Bool.and_eq_true, beq_iff_eq, decide_eq_true_eq]
    omega
  have hsort : (ks.map fun k => (k, namesAt ranked k)).mergeSort (·.1 ≤ ·.1) =
      (ks.mergeSort (· ≤ ·)).map fun k => (k, namesAt ranked k) := by
    symm
    apply List.map_mergeSort
    intros
    rfl
  calc g.levels = (ks.map fun k => (k, namesAt ranked k)).mergeSort (·.1 ≤ ·.1) := by rw [levels, foldl_enroll]
    _ = (ks.mergeSort (· ≤ ·)).map fun k => (k, namesAt ranked k) := hsort
    _ = (List.range' 1 top).map fun k => (k, namesAt ranked k) := by rw [hks]
    _ = (List.range' 1 top).map fun k => (k, namesAt g.nodes k) := List.map_congr_left hnames

/-! ## Orders that are depths -/

/-- the levels of `g` are the names by depth along `r` -/
structure Layered (r : String → String → Prop) (g : Graph) : Prop where
  /-- there is one node for each name -/
  named : g.nodes.map (·.name) = g.names
  nodup : g.names.Nodup
  /-- the order of a node is one more than the number of edges on the longest chain from it -/
  order : ∀ n ∈ g.nodes, ∃ d, HasDepth r n.name d ∧ n.order = d + 1
  lt : ∀ n ∈ g.nodes, ∀ b, r n.name b → ∃ m ∈ g.nodes, m.name = b ∧ m.order < n.order
  /-- all levels together hold every name once -/
  once : (g.levels.flatMap (·.2)).Perm g.names
  level : ∀ l ∈ g.levels, ∀ n ∈ g.nodes, n.name ∈ l.2 ↔ n.order = l.1
  empty : g.names = [] → g.levels = []
  keys : g.names ≠ [] → ∃ d, HasHeight r g.names d ∧ g.levels.map (·.1) = List.range' 1 (d + 1)
  /-- what stands above the first level waits for a name of the level below -/
  below : ∀ l ∈ g.levels, 1 < l.1 → ∀ a ∈ l.2, ∃ l' ∈ g.levels, l'.1 + 1 = l.1 ∧ ∃ b ∈ l'.2, r a b

section Layers

variable {g : Graph} (hg : Wired g) (hac : ¬ Cyclic g.Waits)
  (ho : ∀ n ∈ g.nodes, ∃ d, HasDepth g.Waits n.name d ∧ n.order = d + 1)

include ho in
theorem order_eq_iff {n : Node} (hn : n ∈ g.nodes) {d : ℕ} : n.order = d + 1 ↔ HasDepth g.Waits n.name d := by
  obtain ⟨e, he, horder⟩ := ho n hn
  constructor
  · intro h
    obtain rfl : e = d := by omega
    exact he
  · intro h
    rw [horder, he.unique h]

include hg in
theorem mem_namesAt {n : Node} (hn : n ∈ g.nodes) {k : ℕ} : n.name ∈ namesAt g.nodes k ↔ n.order = k := by
  rw [namesAt, List.mem_map]
  constructor
  · intro hsome
    obtain ⟨m, hm, hname⟩ := hsome
    rw [List.mem_filter, beq_iff_eq] at hm
    rw [← hg.eq_of_name hn hm.1 hname]
    exact hm.2
  · exact fun h => ⟨n, List.mem_filter.2 ⟨hn, beq_iff_eq.2 h⟩, rfl⟩

include hg hac ho in
/-- the orders are those from 1 to the greatest depth and one -/
theorem exists_top : ∃ top, (∀ k, 0 < k → ((∃ n ∈ g.nodes, n.order = k) ↔ k ≤ top)) ∧ (g.names = [] → top = 0) ∧
    (g.names ≠ [] → ∃ d, HasHeight g.Waits g.names d ∧ top = d + 1) := by
  by_cases hne : g.names = []
  · refine ⟨0, fun k hk => iff_of_false ?_ (by omega), fun _ => rfl, fun h => absurd hne h⟩
    intro hsome
    obtain ⟨n, hn, -⟩ := hsome
    have := hg.name_mem hn
    rw [hne] at this
    cases this
  · obtain ⟨d, hd⟩ := exists_hasHeight (hg.exists_hasDepth hac) hne
    refine ⟨d + 1, fun k hk => ⟨?_, fun hle => ?_⟩, fun h => absurd h hne, fun _ => ⟨d, hd, rfl⟩⟩
    · intro hsome
      obtain ⟨n, hn, rfl⟩ := hsome
      obtain ⟨e, he, horder⟩ := ho n hn
      have := hd.le (hg.name_mem hn) he
      omega
    · -- every smaller depth occurs below a name of the greatest
      obtain ⟨a, ha, hdepth⟩ := hd.exists_top
      obtain ⟨b, hab, hb⟩ := hdepth.exists_of_le (e := k - 1) (by omega)
      have hbn : b ∈ g.names := by
        rcases hab.cases_tail with rfl | ⟨c, -, hcb⟩
        · exact ha
        · exact hg.closed c hcb.1 b hcb.2
      obtain ⟨n, hn, rfl⟩ := hg.exists_node hbn
      refine ⟨n, hn, ?_⟩
      rw [(order_eq_iff ho hn).2 hb]
      omega

include hg in
/-- the names at different orders, together -/
theorem flatMap_namesAt {top : ℕ} (h : ∀ n ∈ g.nodes, 0 < n.order ∧ n.order ≤ top) :
    ((List.range' 1 top).flatMap (namesAt g.nodes)).Perm g.names := by
  have hnames : ∀ a, a ∈ g.names ↔ ∃ n ∈ g.nodes, n.name = a := fun a =>
    ⟨hg.exists_node, by rintro ⟨n, hn, rfl⟩; exact hg.name_mem hn⟩
  have hnode : ∀ {a : String} {k : ℕ}, a ∈ namesAt g.nodes k → ∃ n ∈ g.nodes, n.name = a ∧ n.order = k := by
    intro a k ha
    obtain ⟨n, hn, rfl⟩ := List.mem_map.1 ha
    rw [List.mem_filter, beq_iff_eq] at hn
    exact ⟨n, hn.1, rfl, hn.2⟩
  have hnd : (g.nodes.map (·.name)).Nodup := by rw [hg.nodes_eq, ← hg.names_eq]; exact hg.nodup
  have hdisjoint : ∀ i j, i ≠ j → (namesAt g.nodes i).Disjoint (namesAt g.nodes j) := by
    intro i j hne a hi hj
    obtain ⟨n, hn, rfl, hni⟩ := hnode hi
    exact hne (hni.symm.trans ((mem_namesAt hg hn).1 hj))
  refine (List.perm_ext_iff_of_nodup ?_ hg.nodup).2 fun a => ?_
  · rw [List.nodup_flatMap]
    exact ⟨fun k _ => hnd.sublist (List.filter_sublist.map _), List.Pairwise.imp (hdisjoint _ _) List.nodup_range'⟩
  · rw [List.mem_flatMap, hnames]
    constructor
    · intro hsome
      obtain ⟨k, -, ha⟩ := hsome
      obtain ⟨n, hn, hname, -⟩ := hnode ha
      exact ⟨n, hn, hname⟩
    · intro hsome
      obtain ⟨n, hn, rfl⟩ := hsome
      refine ⟨n.order, List.mem_range'_1.2 ?_, (mem_namesAt hg hn).2 rfl⟩
      have := h n hn
      omega

include hg hac ho in
/-- **Levels by depth.** -/
theorem layered : Layered g.Waits g := by
  obtain ⟨top, htop, hzero, hheight⟩ := exists_top hg hac ho
  have hlevels := levels_eq htop
  have hpos : ∀ n ∈ g.nodes, 0 < n.order := by
    intro n hn
    obtain ⟨d, -, horder⟩ := ho n hn
    omega
  have hlevel : ∀ l ∈ g.levels, ∃ k, (0 < k ∧ k ≤ top) ∧ l = (k, namesAt g.nodes k) := by
    intro l hl
    rw [hlevels, List.mem_map] at hl
    obtain ⟨k, hk, rfl⟩ := hl
    rw [List.mem_range'_1] at hk
    exact ⟨k, by omega, rfl⟩
  have hnamed : g.nodes.map (·.name) = g.names := by rw [hg.nodes_eq, hg.names_eq]
  refine ⟨hnamed, hg.nodup, ho, fun n hn b hnb => ?_, ?_, fun l hl n hn => ?_, fun h => ?_, fun h => ?_,
    fun l hl hlt a ha => ?_⟩
  · obtain ⟨m, hm, rfl⟩ := hg.exists_node (hg.closed _ hnb.1 b hnb.2)
    obtain ⟨d, hd, hdo⟩ := ho n hn
    obtain ⟨e, he, heo⟩ := ho m hm
    have hlt : e < d := hd.lt hnb he
    exact ⟨m, hm, rfl, by omega⟩
  · rw [hlevels, List.flatMap_map]
    exact flatMap_namesAt hg fun n hn => ⟨hpos n hn, (htop _ (hpos n hn)).1 ⟨n, hn, rfl⟩⟩
  · obtain ⟨k, -, rfl⟩ := hlevel l hl
    exact mem_namesAt hg hn
  · rw [hlevels, hzero h]
    rfl
  · obtain ⟨d, hd, rfl⟩ := hheight h
    refine ⟨d, hd, ?_⟩
    rw [hlevels, List.map_map]
    exact List.map_id _
  · obtain ⟨k, hk, rfl⟩ := hlevel l hl
    obtain ⟨n, hn, rfl⟩ := List.mem_map.1 ha
    rw [List.mem_filter, beq_iff_eq] at hn
    obtain ⟨e, rfl⟩ : ∃ e, k = e + 1 + 1 := ⟨k - 2, by simp only at hlt; omega⟩
    obtain ⟨b, hnb, hb⟩ := ((order_eq_iff ho hn.1).1 hn.2).exists_below
    obtain ⟨m, hm, rfl⟩ := hg.exists_node (hg.closed _ hnb.1 b hnb.2)
    refine ⟨(e + 1, namesAt g.nodes (e + 1)), ?_, rfl, m.name, (mem_namesAt hg hm).2 ((order_eq_iff ho hm).2 hb), hnb⟩
    rw [hlevels]
    exact List.mem_map.2 ⟨e + 1, List.mem_range'_1.2 (by omega), rfl⟩

end Layers

/-! ## Built graphs -/

/-- the rounds are all that gives orders -/
theorem order_annotate {g : Graph} (hg : Wired g) (hac : ¬ Cyclic g.Waits) {n : Node} (hn : n ∈ (annotate g).store) :
    ∃ d, HasDepth g.Waits n.name d ∧ n.order = d + 1 := by
  have hdepth := hg.exists_hasDepth hac
  simp only [annotate, markParallel, markCritical, assignOrder, List.map_map, List.mem_map] at hn
  obtain ⟨m, hm, rfl⟩ := hn
  obtain ⟨d, hd⟩ := hdepth m.name
  have hname : m.name ∈ g.names := hg.names_eq ▸ List.mem_map_of_mem hm
  refine ⟨d, hd, ?_⟩
  simp [Schedule.run_orders hg hdepth (Schedule.start_roundInv hg) hname hd]

/-- **Orders are depths, and levels have no gap.** A built graph has a node for each name. Without a loop it is layered
along the dependencies; with a loop every order is 0 and there is no level. -/
theorem layered_build (ts : List Target) :
    (build ts).nodes.map (·.name) = definedNames ts ++ unknownNames ts ∧
    (¬ Cyclic (Depends ts) → Layered (Depends ts) (build ts)) ∧
      (Cyclic (Depends ts) → (∀ n ∈ (build ts).nodes, n.order = 0) ∧ (build ts).levels = []) := by
  refine ⟨map_name_build ts, ?_, ?_⟩
  · intro hac
    have hw := waits_build ts
    have hg := wired_build ts
    rw [← hw]
    refine layered hg (hw ▸ hac) fun n hn => ?_
    rw [hg.nodes_eq, build_of_acyclic hac] at hn
    rw [hw]
    have hwaits : (ofWires (.ofTargets ts)).Waits = Depends ts := by rw [← hw, (remarks_build ts).waits]
    rw [← hwaits] at hac ⊢
    exact order_annotate (wired_ofTargets ts) hac hn
  · intro hcy
    have hzero : ∀ n ∈ (build ts).nodes, n.order = 0 := fun n hn => (unmarked_of_cyclic hcy hn).1
    have hnone : ∀ k, 0 < k → ((∃ n ∈ (build ts).nodes, n.order = k) ↔ k ≤ 0) := by
      intro k hk
      refine iff_of_false ?_ (by omega)
      intro hsome
      obtain ⟨n, hn, rfl⟩ := hsome
      rw [hzero n hn] at hk
      cases hk
    exact ⟨hzero, levels_eq hnone⟩

/-- `top` waits for `low` over one edge and over three -/
def ladder : List Target :=
  [{ name := "top", dependencies := ["low", "left"] }, { name := "left", dependencies := ["right"] },
    { name := "right", dependencies := ["low"] }]

def ladderDepths : List (String × ℕ) := [("top", 3), ("left", 2), ("right", 1), ("low", 0)]

theorem hasDepth_ladder : ∀ e ∈ ladderDepths, HasDepth (Depends ladder) e.1 e.2 :=
  hasDepth_of_table (by decide) (by decide)

theorem layered_build_ladder :
    ¬ Cyclic (Depends ladder) ∧
      (build ladder).nodes.map (fun n => (n.name, n.order)) = [("top", 4), ("left", 3), ("right", 2), ("low", 1)] ∧
      (build ladder).levels.map (·.1) = [1, 2, 3, 4] ∧ (∃ l ∈ (build ladder).levels, l.1 = 4 ∧ "top" ∈ l.2) ∧
      Cyclic (Depends ring) ∧ (build ring).nodes.map (fun n => (n.name, n.order)) = [("a", 0)] ∧
      (build ring).levels = [] := by
  have hladder : ¬ Cyclic (Depends ladder) := not_cyclic_of_rank (["low", "right", "left", "top"].idxOf ·) (by decide)
  obtain ⟨hnamed, hlayered, -⟩ := layered_build ladder
  replace hlayered := hlayered hladder
  replace hnamed : (build ladder).nodes.map (·.name) = ladderDepths.map (·.1) := hnamed.trans (by decide)
  have horder : ∀ n ∈ (build ladder).nodes, n.order = (ladderDepths.lookup n.name).getD 0 + 1 := by
    intro n hn
    obtain ⟨e, he, hname⟩ := List.mem_map.1 (hnamed ▸ List.mem_map_of_mem hn)
    obtain ⟨d, hd, horder⟩ := hlayered.order n hn
    rw [← hname] at hd ⊢
    rw [horder, hd.unique (hasDepth_ladder e he)]
    exact (by decide : ∀ e ∈ ladderDepths, e.2 + 1 = (ladderDepths.lookup e.1).getD 0 + 1) e he
  have horders : (build ladder).nodes.map (fun n => (n.name, n.order)) =
      ((build ladder).nodes.map (·.name)).map fun a => (a, (ladderDepths.lookup a).getD 0 + 1) := by
    rw [List.map_map]
    exact List.map_congr_left fun n hn => Prod.ext rfl (horder n hn)
  rw [hnamed] at horders
  have hnames : (build ladder).names = ladderDepths.map (·.1) := hlayered.named.symm.trans hnamed
  obtain ⟨d, hheight, hkeys⟩ := hlayered.keys (by rw [hnames]; decide)
  rw [hnames] at hheight
  obtain rfl : d = 3 := hheight.eq_of_table hasDepth_ladder ("top", 3) (by decide)
  have hfour : 4 ∈ (build ladder).levels.map (·.1) := by rw [hkeys]; decide
  have htop : "top" ∈ (build ladder).nodes.map (·.name) := by rw [hnamed]; decide
  obtain ⟨l, hl, hfour⟩ := List.mem_map.1 hfour
  obtain ⟨n, hn, hname⟩ := List.mem_map.1 htop
  have hmem : "top" ∈ l.2 := by
    rw [← hname, hlayered.level l hl n hn, horder n hn, hname, hfour]
    rfl
  obtain ⟨hring, -, hflat⟩ := layered_build ring
  obtain ⟨hzero, hnone⟩ := hflat cyclic_ring
  have hzeros : (build ring).nodes.map (fun n => (n.name, n.order)) = ((build ring).nodes.map (·.name)).map
    fun a => (a, 0) := by
    rw [List.map_map]
    exact List.map_congr_left fun n hn => Prod.ext rfl (hzero n hn)
  rw [hring] at hzeros
  exact ⟨hladder, horders, hkeys, ⟨l, hl, hfour, hmem⟩, cyclic_ring, hzeros, hnone⟩

end MakeAtlas.Graph
