/-
The order in which targets are written. The search for a loop, the rounds of the order, the stack of the depths and the
marking all go along lists, and take other ways when these are permuted. What they answer about a name is fixed by two
things that have no order: which names are defined, and which name waits for which.
- `Node.DeterminedBy`, `DeterminedBy`: a node, a graph, as these two fix it. `DeterminedBy.agrees`: two such graphs
  agree, but for order.
- `determinedBy_build`: every built graph is such a graph, one field for each part of the analysis.
- `agrees_build_of_rearranged`: so targets may be permuted, and their dependencies permuted and repeated.
Witness: `fork`, and `forkRearranged`, where everything stands elsewhere.
-/
import MakeAtlas.Proofs.Graph.Critical
import MakeAtlas.Proofs.Graph.Faithful
import MakeAtlas.Proofs.Graph.Levels

namespace MakeAtlas.Graph

open Makefile (Target)

/-! ## Agreement but for order -/

/-- two nodes that say the same, but for the order of their edges -/
structure Node.Agrees (n m : Node) : Prop where
  kind : n.kind = m.kind
  dependencies : n.dependencies.Perm m.dependencies
  dependents : n.dependents.Perm m.dependents
  order : n.order = m.order
  critical : n.critical = m.critical
  parallel : n.parallel = m.parallel

/-- two graphs that say the same of every name, but for order; of loops only whether there is one -/
structure Agrees (g g' : Graph) : Prop where
  cycle : g.cycle.isSome = g'.cycle.isSome
  names : g.names.Perm g'.names
  node : ∀ a, Option.Rel Node.Agrees (g.node? a) (g'.node? a)
  missing : ∀ a, Option.Rel List.Perm (g.missing.value? a) (g'.missing.value? a)

/-! ## What definitions and edges fix -/

/-- the longest chain of all has `d` edges -/
def Longest (r : String → String → Prop) (d : ℕ) : Prop := IsGreatest {k | ∃ a, k ∈ chainLengths r a} d

/-- a node as the definitions and the edges of its graph fix it -/
structure Node.DeterminedBy (defined : String → Prop) (r : String → String → Prop) (n : Node) : Prop where
  kind : n.kind = .real ↔ defined n.name
  nodup_dependencies : n.dependencies.Nodup
  mem_dependencies : ∀ b, b ∈ n.dependencies ↔ r n.name b
  nodup_dependents : n.dependents.Nodup
  mem_dependents : ∀ a, a ∈ n.dependents ↔ r a n.name
  order_of_cyclic : Cyclic r → n.order = 0
  order : ¬ Cyclic r → ∃ d, HasDepth r n.name d ∧ n.order = d + 1
  critical : n.critical = true ↔ ¬ Cyclic r ∧ defined n.name ∧ ∃ d, 1 ≤ d ∧ Longest r d ∧ OnChain r d n.name
  /-- another name that waits for something has the same depth -/
  parallel : n.parallel = true ↔ ¬ Cyclic r ∧ (∃ b, r n.name b) ∧
    ∃ c, c ≠ n.name ∧ (∃ b, r c b) ∧ ∃ d, HasDepth r n.name d ∧ HasDepth r c d

structure DeterminedBy (defined : String → Prop) (r : String → String → Prop) (g : Graph) : Prop where
  nodup : g.names.Nodup
  mem_names : ∀ a, a ∈ g.names ↔ defined a ∨ ∃ b, r b a
  node : ∀ a ∈ g.names, ∃ n, g.node? a = some n ∧ n.DeterminedBy defined r
  cycle : g.cycle.isSome = true ↔ Cyclic r
  missing : ∀ a, (g.missing.value? a).isSome ↔ ∃ b, r a b ∧ ¬ defined b
  mem_missing : ∀ a names, g.missing.value? a = some names → names.Nodup ∧ ∀ b, b ∈ names ↔ r a b ∧ ¬ defined b

section Determined

variable {defined : String → Prop} {r : String → String → Prop}

theorem Node.DeterminedBy.agrees {n m : Node} (hn : n.DeterminedBy defined r) (hm : m.DeterminedBy defined r)
    (hname : n.name = m.name) : n.Agrees m := by
  refine ⟨?_, ?_, ?_, ?_, ?_, ?_⟩
  · have hreal : n.kind = .real ↔ m.kind = .real := by rw [hn.kind, hm.kind, hname]
    cases hk : m.kind with
    | real => exact hreal.2 hk
    | placeholder =>
      cases hk' : n.kind with
      | real => rw [hreal.1 hk'] at hk; cases hk
      | placeholder => rfl
  · refine (List.perm_ext_iff_of_nodup hn.nodup_dependencies hm.nodup_dependencies).2 fun b => ?_
    rw [hn.mem_dependencies, hm.mem_dependencies, hname]
  · refine (List.perm_ext_iff_of_nodup hn.nodup_dependents hm.nodup_dependents).2 fun a => ?_
    rw [hn.mem_dependents, hm.mem_dependents, hname]
  · by_cases hcy : Cyclic r
    · rw [hn.order_of_cyclic hcy, hm.order_of_cyclic hcy]
    · obtain ⟨d, hd, hnd⟩ := hn.order hcy
      obtain ⟨e, he, hme⟩ := hm.order hcy
      rw [hnd, hme, hd.unique (hname ▸ he)]
  · rw [Bool.eq_iff_iff, hn.critical, hm.critical, hname]
  · rw [Bool.eq_iff_iff, hn.parallel, hm.parallel, hname]

theorem rel_of_isSome_iff {α β : Type} {r : α → β → Prop} {x : Option α} {y : Option β} (h : x.isSome ↔ y.isSome)
    (hr : ∀ a b, x = some a → y = some b → r a b) : Option.Rel r x y := by
  cases x with
  | none =>
    cases y with
    | none => exact .none
    | some b => simp at h
  | some a =>
    cases y with
    | none => simp at h
    | some b => exact .some (hr a b rfl rfl)

/-- **The definitions and the edges fix a graph but for order.** -/
theorem DeterminedBy.agrees {g g' : Graph} (hg : g.DeterminedBy defined r) (hg' : g'.DeterminedBy defined r) :
    g.Agrees g' := by
  have hnames : ∀ a, a ∈ g.names ↔ a ∈ g'.names := fun a => by rw [hg.mem_names, hg'.mem_names]
  refine ⟨?_, (List.perm_ext_iff_of_nodup hg.nodup hg'.nodup).2 hnames, fun a => ?_, fun a => ?_⟩
  · rw [Bool.eq_iff_iff, hg.cycle, hg'.cycle]
  · by_cases ha : a ∈ g.names
    · obtain ⟨n, hn, hdet⟩ := hg.node a ha
      obtain ⟨m, hm, hdet'⟩ := hg'.node a ((hnames a).1 ha)
      rw [hn, hm]
      exact .some (hdet.agrees hdet' ((node?_eq_some_iff.1 hn).2.trans (node?_eq_some_iff.1 hm).2.symm))
    · have hnone : ∀ {g : Graph}, a ∉ g.names →
        g.node? a = none := fun h => by rw [node?, has, if_neg (by simpa using h)]
      rw [hnone ha, hnone fun h => ha ((hnames a).2 h)]
      exact .none
  · refine rel_of_isSome_iff (by rw [hg.missing, hg'.missing]) fun names names' h h' => ?_
    obtain ⟨hnd, hmem⟩ := hg.mem_missing a names h
    obtain ⟨hnd', hmem'⟩ := hg'.mem_missing a names' h'
    exact (List.perm_ext_iff_of_nodup hnd hnd').2 fun b => by rw [hmem, hmem']

end Determined

/-! ## Built graphs -/

theorem Longest.unique {r : String → String → Prop} {d e : ℕ} (hd : Longest r d) (he : Longest r e) :
    d = e := IsGreatest.unique hd he

/-- when every edge starts at one of these names, so does a longest chain -/
theorem HasHeight.longest {r : String → String → Prop} {names : List String} {d : ℕ} (h : HasHeight r names d)
    (hr : ∀ a b, r a b → a ∈ names) : Longest r d := by
  obtain ⟨a, -, ha⟩ := h.1
  refine ⟨⟨a, ha⟩, fun k hsome => ?_⟩
  obtain ⟨b, hb⟩ := hsome
  cases k with
  | zero => exact Nat.zero_le d
  | succ k =>
    obtain ⟨c, hbc, -⟩ := succ_mem_chainLengths.1 hb
    exact h.2 ⟨b, hr b c hbc, hb⟩

section Build

variable {ts : List Target}

theorem isSome_cycle_build_iff (ts : List Target) : (build ts).cycle.isSome = true ↔ Cyclic (Depends ts) := by
  by_cases hcy : Cyclic (Depends ts)
  · obtain ⟨walk, hbuild⟩ := build_of_cyclic hcy
    exact iff_of_true (by rw [hbuild]; rfl) hcy
  · refine iff_of_false ?_ hcy
    rw [build_of_acyclic hcy]
    simp [annotate, markParallel, markCritical, assignOrder, ofWires]

variable {n : Node} (hn : n ∈ (build ts).nodes)

include hn in
theorem mem_dependencies_build (b : String) : b ∈ n.dependencies ↔ Depends ts n.name b := by
  have hw := wired_build ts
  rw [← waits_build ts, Waits, hw.dependencies_name hn]
  exact (and_iff_right (hw.name_mem hn)).symm

include hn in
theorem mem_dependents_build (a : String) : a ∈ n.dependents ↔ Depends ts a n.name := by
  have hw := wired_build ts
  rw [← waits_build ts, ← hw.mem_dependents, hw.dependents_name hn]

include hn in
theorem order_build (hac : ¬ Cyclic (Depends ts)) : ∃ d, HasDepth (Depends ts) n.name d ∧ n.order = d + 1 := by
  rw [(wired_build ts).nodes_eq, build_of_acyclic hac] at hn
  rw [← waits_ofTargets_eq] at hac ⊢
  exact order_annotate (wired_ofTargets ts) hac hn

include hn in
theorem critical_build_iff : n.critical = true ↔
    ¬ Cyclic (Depends ts) ∧ n.name ∈ ts.map (·.name) ∧ ∃ d, 1 ≤ d ∧ Longest (Depends ts) d ∧
    OnChain (Depends ts) d n.name := by
  by_cases hcy : Cyclic (Depends ts)
  · refine iff_of_false ?_ fun h => h.1 hcy
    rw [(unmarked_of_cyclic hcy hn).2]
    exact Bool.false_ne_true
  · have hg := wired_ofTargets ts
    have hw := waits_ofTargets_eq ts
    have hne : (ofWires (.ofTargets ts)).names ≠ [] := by
      rw [← names_build]
      exact List.ne_nil_of_mem ((wired_build ts).name_mem hn)
    obtain ⟨d, hd⟩ := exists_hasHeight (hg.exists_hasDepth (hw ▸ hcy)) hne
    have hlongest : Longest (Depends ts) d := hw ▸ hd.longest fun _ _ h => h.1
    have hmem : n ∈ (annotate (ofWires (.ofTargets ts))).store := by
      rw [← build_of_acyclic hcy, ← (wired_build ts).nodes_eq]
      exact hn
    rw [critical_annotate hg (hw ▸ hcy) (real_of_waits_ofTargets ts) hd hmem, kind_build hn, hw]
    constructor
    · intro hboth
      obtain ⟨hpos, hdefined, hchain⟩ := hboth
      exact ⟨hcy, hdefined, d, hpos, hlongest, hchain⟩
    · intro hboth
      obtain ⟨-, hdefined, e, hpos, he, hchain⟩ := hboth
      obtain rfl : d = e := hlongest.unique he
      exact ⟨hpos, hdefined, hchain⟩

include hn in
theorem waiting_build_iff : n.dependencies ≠ [] ↔ ∃ b, Depends ts n.name b := by
  rw [← List.length_pos_iff, List.length_pos_iff_exists_mem]
  exact exists_congr (mem_dependencies_build hn)

include hn in
theorem parallel_iff_depth : n.parallel = true ↔ ¬ Cyclic (Depends ts) ∧ (∃ b, Depends ts n.name b) ∧
    ∃ c, c ≠ n.name ∧ (∃ b, Depends ts c b) ∧ ∃ d, HasDepth (Depends ts) n.name d ∧ HasDepth (Depends ts) c d := by
  by_cases hcy : Cyclic (Depends ts)
  · refine iff_of_false ?_ fun h => h.1 hcy
    rw [not_parallel_of_cyclic hcy hn]
    exact Bool.false_ne_true
  · obtain ⟨d, hd, horder⟩ := order_build hn hcy
    rw [parallel_build_iff hcy hn, waiting_build_iff hn]
    constructor
    · intro hboth
      obtain ⟨hwaits, m, hm, hne, hmwaits, hsame⟩ := hboth
      obtain ⟨e, he, hmorder⟩ := order_build hm hcy
      obtain rfl : d = e := by omega
      exact ⟨hcy, hwaits, m.name, hne, (waiting_build_iff hm).1 hmwaits, d, hd, he⟩
    · intro hboth
      obtain ⟨-, hwaits, c, hne, hcwaits, e, he, hce⟩ := hboth
      obtain rfl : d = e := hd.unique he
      obtain ⟨b, hcb⟩ := hcwaits
      rw [← waits_build] at hcb
      obtain ⟨m, hm, rfl⟩ := (wired_build ts).exists_node hcb.1
      obtain ⟨e, he', hmorder⟩ := order_build hm hcy
      obtain rfl : d = e := hce.unique he'
      exact ⟨hwaits, m, hm, hne, (waiting_build_iff hm).2 ⟨b, waits_build ts ▸ hcb⟩, hmorder.trans horder.symm⟩

end Build

section Missing

variable {ts : List Target}

/-- the stand-ins among the names of a graph are the names that are not defined -/
theorem holdsPlace_build_iff {b : String} (hb : b ∈ (build ts).names) : (build ts).holdsPlace b = true ↔
    b ∉ ts.map (·.name) := by
  have hw := wired_build ts
  obtain ⟨n, hn, rfl⟩ := hw.exists_node hb
  rw [holdsPlace, hw.lookup_of_mem_nodes hn, Option.any_some, beq_iff_eq, ← kind_build hn]
  cases n.kind <;> decide

theorem mem_filter_holdsPlace_iff {n : Node} (hn : n ∈ (build ts).nodes) (b : String) :
    b ∈ n.dependencies.filter (build ts).holdsPlace ↔ Depends ts n.name b ∧ b ∉ ts.map (·.name) := by
  rw [List.mem_filter, mem_dependencies_build hn]
  refine and_congr_right fun hdep => holdsPlace_build_iff ?_
  rw [← waits_build] at hdep
  exact (wired_build ts).closed _ hdep.1 b hdep.2

theorem mem_missing_build {a : String} {names : List String} (h : (build ts).missing.value? a = some names) :
    names ≠ [] ∧ names.Nodup ∧ ∀ b, b ∈ names ↔ Depends ts a b ∧ b ∉ ts.map (·.name) := by
  obtain ⟨n, hnode, rfl, hne⟩ := (listsMissing_build ts a names).1 h
  obtain ⟨hn, rfl⟩ := node?_eq_some_iff.1 hnode
  have hw := wired_build ts
  have hnd : n.dependencies.Nodup := hw.dependencies_name hn ▸ hw.nodup_dependencies n.name
  exact ⟨hne, hnd.filter _, mem_filter_holdsPlace_iff hn⟩

/-- a name has an entry when it waits for a name that is not defined -/
theorem isSome_missing_build_iff (a : String) :
    ((build ts).missing.value? a).isSome ↔ ∃ b, Depends ts a b ∧ b ∉ ts.map (·.name) := by
  rw [Option.isSome_iff_exists]
  constructor
  · intro hsome
    obtain ⟨names, hnames⟩ := hsome
    obtain ⟨hne, -, hmem⟩ := mem_missing_build hnames
    obtain ⟨b, hb⟩ := List.exists_mem_of_ne_nil _ hne
    exact ⟨b, (hmem b).1 hb⟩
  · intro hsome
    obtain ⟨b, hboth⟩ := hsome
    have hwaits : (build ts).Waits a b := waits_build ts ▸ hboth.1
    obtain ⟨n, hn, rfl⟩ := (wired_build ts).exists_node hwaits.1
    have hne := List.ne_nil_of_mem ((mem_filter_holdsPlace_iff hn b).2 hboth)
    exact ⟨_, (listsMissing_build ts n.name _).2 ⟨n, node?_eq_some_iff.2 ⟨hn, rfl⟩, rfl, hne⟩⟩

end Missing

/-- **The definitions and the edges fix a built graph.** -/
theorem determinedBy_build (ts : List Target) : (build ts).DeterminedBy (· ∈ ts.map (·.name)) (Depends ts) := by
  have hw := wired_build ts
  refine ⟨hw.nodup, fun a => ?_, fun a ha => ?_, isSome_cycle_build_iff ts, isSome_missing_build_iff,
    fun a names h => (mem_missing_build h).2⟩
  · rw [names_build, mem_names_ofTargets]
  · obtain ⟨n, hn, rfl⟩ := hw.exists_node ha
    refine ⟨n, node?_eq_some_iff.2 ⟨hn, rfl⟩, ?_⟩
    exact
      { kind := kind_build hn
        nodup_dependencies := hw.dependencies_name hn ▸ hw.nodup_dependencies n.name
        mem_dependencies := mem_dependencies_build hn
        nodup_dependents := hw.dependents_name hn ▸ hw.nodup_dependents n.name
        mem_dependents := mem_dependents_build hn
        order_of_cyclic := fun hcy => (unmarked_of_cyclic hcy hn).1
        order := order_build hn
        critical := critical_build_iff hn
        parallel := parallel_iff_depth hn }

/-! ## Rearranged targets -/

/-- two targets of one name that wait for the same names, in whatever order and however often -/
def SameWaits (t u : Target) : Prop := t.name = u.name ∧ ∀ b, b ∈ t.dependencies ↔ b ∈ u.dependencies

/-- the targets are permuted, and in each target the dependencies are permuted and repeated -/
def Rearranged (ts us : List Target) : Prop := ∃ vs, ts.Perm vs ∧ List.Forall₂ SameWaits vs us

/-- with distinct names each definition counts -/
theorem depends_iff_of_nodup {ts : List Target} (hnd : (ts.map (·.name)).Nodup) {a b : String} :
    Depends ts a b ↔ ∃ t ∈ ts, t.name = a ∧ b ∈ t.dependencies := by
  constructor
  · intro hsome
    obtain ⟨t, ht, hb⟩ := hsome
    exact ⟨t, List.mem_reverse.1 (List.mem_of_find?_eq_some ht), by simpa using List.find?_some ht, hb⟩
  · intro hsome
    obtain ⟨t, ht, rfl, hb⟩ := hsome
    have hdefined : (lastDefinition ts t.name).isSome := by
      rw [isSome_lastDefinition, names_definitions, List.mem_eraseDups]
      exact List.mem_map_of_mem ht
    obtain ⟨u, hu⟩ := Option.isSome_iff_exists.1 hdefined
    have hname : u.name = t.name := by simpa using List.find?_some hu
    have huts : u ∈ ts := List.mem_reverse.1 (List.mem_of_find?_eq_some hu)
    obtain rfl : u = t := List.inj_on_of_nodup_map hnd huts ht hname
    exact ⟨u, hu, hb⟩

theorem Rearranged.perm_names {ts us : List Target} (h : Rearranged ts us) :
    (ts.map (·.name)).Perm (us.map (·.name)) := by
  obtain ⟨vs, hperm, hsame⟩ := h
  have hnames : vs.map (·.name) = us.map (·.name) := by
    rw [← List.forall₂_eq_eq_eq, List.forall₂_map_left_iff, List.forall₂_map_right_iff]
    exact hsame.imp fun _ _ h => h.1
  exact hnames ▸ hperm.map _

theorem exists_waits_iff {ts us : List Target} (h : List.Forall₂ SameWaits ts us) (a b : String) :
    (∃ t ∈ ts, t.name = a ∧ b ∈ t.dependencies) ↔ ∃ u ∈ us, u.name = a ∧ b ∈ u.dependencies := by
  induction h with
  | nil => simp
  | cons hsame _ ih => simp only [List.exists_mem_cons_iff, ih, hsame.1, hsame.2]

theorem Rearranged.depends_eq {ts us : List Target} (h : Rearranged ts us) (hnd : (ts.map (·.name)).Nodup) :
    Depends ts = Depends us := by
  have hnd' : (us.map (·.name)).Nodup := h.perm_names.nodup_iff.1 hnd
  obtain ⟨vs, hperm, hsame⟩ := h
  funext a b
  rw [depends_iff_of_nodup hnd, depends_iff_of_nodup hnd', ← exists_waits_iff hsame]
  simp only [hperm.mem_iff]

/-- **The order of writing does not matter.** When the names are distinct, targets may be permuted, and in each target
the dependencies permuted and repeated: the graph says the same of every name, and has a loop just the same. -/
theorem agrees_build_of_rearranged {ts us : List Target} (hnd : (ts.map (·.name)).Nodup) (h : Rearranged ts us) :
    (build ts).Agrees (build us) := by
  have hdefined : (· ∈ ts.map (·.name)) = (· ∈ us.map (·.name)) := by
    funext a
    exact propext h.perm_names.mem_iff
  have hts := determinedBy_build ts
  rw [hdefined, h.depends_eq hnd] at hts
  exact hts.agrees (determinedBy_build us)

/-- `fork` from the last target to the first, with dependencies that are permuted and repeated -/
def forkRearranged : List Target :=
  [{ name := "near" }, { name := "low" }, { name := "right", dependencies := ["file", "file"] },
    { name := "left", dependencies := ["low"] }, { name := "top", dependencies := ["near", "right", "left", "near"] }]

theorem agrees_build_fork :
    (fork.map (·.name)).Nodup ∧ Rearranged fork forkRearranged ∧ (build fork).Agrees (build forkRearranged) := by
  have hnodup : (fork.map (·.name)).Nodup := by decide
  have hsame : List.Forall₂ SameWaits fork.reverse forkRearranged := by
    simp [fork, forkRearranged, SameWaits, or_comm, or_left_comm]
  have hrearranged : Rearranged fork forkRearranged := ⟨fork.reverse, (List.reverse_perm fork).symm, hsame⟩
  exact ⟨hnodup, hrearranged, agrees_build_of_rearranged hnodup hrearranged⟩

end MakeAtlas.Graph
