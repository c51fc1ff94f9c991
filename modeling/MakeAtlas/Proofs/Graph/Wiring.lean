/-
Wiring, in closed form. The nodes and edges that wiring leaves behind are written down from the links alone, a link
being a target's name and a name that it waits for, and linking one pair after the other is shown to give just that.
- `link_store`, `ofTargets_store`: one link keeps the closed form, so does the whole wiring.
- `wired_ofTargets`: a wired graph owns all that its nodes wait for, has each edge once, and has it in both directions.
- `waits_ofTargets`: its edges are the dependencies of the last definition of each name.
- `mem_names_ofTargets`, `kind_ofTargets`: it has the names that are defined or waited for, and tells them apart.
- `remarks_build`, `names_build`, `kind_build`, `waits_build`: the analysis changes no name, no kind and no edge.
-/
import MakeAtlas.Graph.Build
import MakeAtlas.Proofs.FirstOccurrence
import MakeAtlas.Proofs.Graph.Edges

namespace MakeAtlas.Graph

open Makefile (Target)

/-! ## Nodes under their names -/

theorem lookup_isSome {store : List Node} {name : String} : (lookup store name).isSome ↔ name ∈ store.map (·.name) := by
  simp [lookup, List.find?_isSome]

theorem lookup_map {f : Node → Node} (hf : ∀ n, (f n).name = n.name) (store : List Node) (name : String) :
    lookup (store.map f) name = (lookup store name).map f := by
  unfold lookup
  rw [List.find?_map]
  congr 2
  funext n
  simp [hf]

theorem lookup_name {store : List Node} {name : String} {n : Node} (h : lookup store name = some n) :
    n.name = name := by
  simpa using List.find?_some h

/-- a node is found under its name when no two have the same -/
theorem lookup_of_mem {store : List Node} (hnd : (store.map (·.name)).Nodup) {n : Node} (hn : n ∈ store) :
    lookup store n.name = some n := by
  cases hf : lookup store n.name with
  | none => exact absurd (List.find?_eq_none.1 hf n hn) (by simp)
  | some m => rw [List.inj_on_of_nodup_map hnd (List.mem_of_find?_eq_some hf) hn (lookup_name hf)]

/-- the nodes of a graph are those found under its names -/
theorem node?_eq_some_iff {g : Graph} {a : String} {n : Node} : g.node? a = some n ↔ n ∈ g.nodes ∧ n.name = a := by
  rw [node?, Option.ite_none_right_eq_some, has, List.contains_iff_mem, nodes, List.mem_filterMap]
  constructor
  · intro hboth
    obtain ⟨ha, hn⟩ := hboth
    exact ⟨⟨a, ha, hn⟩, lookup_name hn⟩
  · intro hboth
    obtain ⟨⟨b, hb, hn⟩, rfl⟩ := hboth
    have hname : n.name = b := lookup_name hn
    exact ⟨hname ▸ hb, hname ▸ hn⟩

/-! ## The definitions that count -/

/-- the last definition of a name -/
def lastDefinition (ts : List Target) (name : String) : Option Target := ts.reverse.find? (·.name == name)

/-- the last definition of `a` waits for `b` -/
def Depends (ts : List Target) (a b : String) : Prop := ∃ t, lastDefinition ts a = some t ∧ b ∈ t.dependencies

/-- dependencies that go down in rank close no loop -/
theorem not_cyclic_of_rank {ts : List Target} (rank : String → ℕ)
    (h : ∀ t ∈ ts, ∀ b ∈ t.dependencies, rank b < rank t.name) : ¬ Cyclic (Depends ts) := by
  have hedge : ∀ {a b : String}, Depends ts a b → rank b < rank a := by
    intro a b hsome
    obtain ⟨t, ht, hb⟩ := hsome
    have hname : t.name = a := by simpa using List.find?_some ht
    rw [← hname]
    exact h t (List.mem_reverse.1 (List.mem_of_find?_eq_some ht)) b hb
  have hlt : ∀ {a b : String}, Relation.TransGen (Depends ts) a b → rank b < rank a := by
    intro a b hab
    induction hab with
    | single hab => exact hedge hab
    | tail _ hbc ih => exact (hedge hbc).trans ih
  intro hsome
  obtain ⟨a, ha⟩ := hsome
  exact lt_irrefl _ (hlt ha)

theorem names_define (t : Target) (ds : List Target) :
    (define t ds).map (·.name) = if t.name ∈ ds.map (·.name) then ds.map (·.name) else ds.map (·.name) ++ [t.name] := by
  induction ds with
  | nil => simp [define]
  | cons u us ih =>
    by_cases h : u.name = t.name
    · simp [define, h]
    · rw [define, if_neg (by simpa using h), List.map_cons, ih, List.map_cons]
      have hmem : t.name ∈ u.name :: us.map (·.name) ↔ t.name ∈ us.map (·.name) := by simp [Ne.symm h]
      by_cases hm : t.name ∈ us.map (·.name)
      · rw [if_pos hm, if_pos (hmem.2 hm)]
      · rw [if_neg hm, if_neg (fun hm' => hm (hmem.1 hm')), List.cons_append]

theorem mem_define {t u : Target} {ds : List Target} (hnd : (ds.map (·.name)).Nodup) :
    u ∈ define t ds ↔ u = t ∨ u ∈ ds ∧ u.name ≠ t.name := by
  induction ds with
  | nil => simp [define]
  | cons v vs ih =>
    rw [List.map_cons, List.nodup_cons] at hnd
    by_cases h : v.name = t.name
    · rw [define, if_pos (by simpa using h), List.mem_cons, List.mem_cons]
      constructor
      · intro hcase
        rcases hcase with hu | hu
        · exact .inl hu
        · refine .inr ⟨.inr hu, fun e => hnd.1 ?_⟩
          rw [h, ← e]
          exact List.mem_map_of_mem hu
      · intro hcase
        rcases hcase with hu | ⟨rfl | hu, hne⟩
        · exact .inl hu
        · exact absurd h hne
        · exact .inr hu
    · rw [define, if_neg (by simpa using h), List.mem_cons, ih hnd.2, List.mem_cons]
      constructor
      · intro hcase
        rcases hcase with rfl | hu | hu
        · exact .inr ⟨.inl rfl, h⟩
        · exact .inl hu
        · exact .inr ⟨.inr hu.1, hu.2⟩
      · intro hcase
        rcases hcase with hu | ⟨rfl | hu, hne⟩
        · exact .inr (.inl hu)
        · exact .inl rfl
        · exact .inr (.inr ⟨hu, hne⟩)

theorem definitions_concat (ts : List Target) (t : Target) : definitions (ts ++ [t]) = define t (definitions ts) := by
  simp [definitions]

/-- each name stands where it was first defined -/
theorem names_definitions (ts : List Target) : (definitions ts).map (·.name) = (ts.map (·.name)).eraseDups := by
  induction ts using List.reverseRecOn with
  | nil => rfl
  | append_singleton ts t ih =>
    rw [definitions_concat, names_define, ih, List.map_append, List.map_singleton, eraseDups_concat]
    simp only [List.mem_eraseDups]

theorem nodup_definitions (ts : List Target) : ((definitions ts).map (·.name)).Nodup := by
  rw [names_definitions]
  exact nodup_eraseDups _

/-- the definitions that count are the last ones -/
theorem mem_definitions {ts : List Target} {t : Target} : t ∈ definitions ts ↔ lastDefinition ts t.name = some t := by
  induction ts using List.reverseRecOn with
  | nil => simp [definitions, lastDefinition]
  | append_singleton ts u ih =>
    rw [definitions_concat, mem_define (nodup_definitions ts), ih]
    unfold lastDefinition
    rw [List.reverse_append, List.reverse_singleton, List.singleton_append, List.find?_cons]
    by_cases h : u.name = t.name
    · simp [h, eq_comm]
    · simp [beq_false_of_ne h, Ne.symm h]
      rintro rfl
      exact absurd rfl h

/-! ## Links -/

/-- each target's name with each name that it waits for -/
def links (ts : List Target) : List (String × String) :=
  (definitions ts).flatMap fun t => t.dependencies.map (t.name, ·)

theorem mem_links {ts : List Target} {a b : String} : (a, b) ∈ links ts ↔ Depends ts a b := by
  simp only [links, List.mem_flatMap, List.mem_map, Prod.mk.injEq, Depends]
  constructor
  · intro hsome
    obtain ⟨t, ht, c, hc, rfl, rfl⟩ := hsome
    exact ⟨t, mem_definitions.1 ht, hc⟩
  · intro hsome
    obtain ⟨t, ht, hb⟩ := hsome
    have hname : t.name = a := by simpa using List.find?_some ht
    exact ⟨t, mem_definitions.2 (hname ▸ ht), b, hb, hname, rfl⟩

def linkedFrom (ls : List (String × String)) (a : String) : List String := ((ls.filter (·.1 == a)).map (·.2)).eraseDups

def linkedTo (ls : List (String × String)) (b : String) : List String := ((ls.filter (·.2 == b)).map (·.1)).eraseDups

theorem mem_linkedFrom {ls : List (String × String)} {a b : String} : b ∈ linkedFrom ls a ↔ (a, b) ∈ ls := by
  simp [linkedFrom]

theorem mem_linkedTo {ls : List (String × String)} {a b : String} : a ∈ linkedTo ls b ↔ (a, b) ∈ ls := by
  simp [linkedTo]

theorem linkedFrom_concat (ls : List (String × String)) (a b name : String) :
    linkedFrom (ls ++ [(a, b)]) name =
      if name = a ∧ (a, b) ∉ ls then linkedFrom ls name ++ [b] else linkedFrom ls name := by
  unfold linkedFrom
  rw [List.filter_append, List.map_append]
  by_cases ha : name = a
  · subst ha
    simp [eraseDups_concat]
  · simp [ha, Ne.symm ha]

theorem linkedTo_concat (ls : List (String × String)) (a b name : String) :
    linkedTo (ls ++ [(a, b)]) name = if name = b ∧ (a, b) ∉ ls then linkedTo ls name ++ [a] else linkedTo ls name := by
  unfold linkedTo
  rw [List.filter_append, List.map_append]
  by_cases hb : name = b
  · subst hb
    simp [eraseDups_concat]
  · simp [hb, Ne.symm hb]

/-- the names that are linked to and not defined -/
def strangers (ds : List Target) (ls : List (String × String)) : List String :=
  ((ls.map (·.2)).filter fun b => !(ds.map (·.name)).contains b).eraseDups

theorem strangers_concat (ds : List Target) (ls : List (String × String)) (a b : String) :
    strangers ds (ls ++ [(a, b)]) =
      if b ∈ ds.map (·.name) ++ strangers ds ls then strangers ds ls else strangers ds ls ++ [b] := by
  unfold strangers
  rw [List.map_append, List.map_singleton, List.filter_append]
  by_cases hb : b ∈ ds.map (·.name)
  · rw [List.filter_cons_of_neg (by simpa using hb), List.filter_nil, List.append_nil,
      if_pos (List.mem_append_left _ hb)]
  · rw [List.filter_cons_of_pos (by simpa using hb), List.filter_nil, eraseDups_concat]
    simp only [List.mem_append, hb, false_or, List.mem_eraseDups]

def linkedNode (ls : List (String × String)) (n : Node) : Node :=
  { n with dependencies := linkedFrom ls n.name, dependents := linkedTo ls n.name }

/-- the nodes of these definitions and the stand-ins for these names, with their edges -/
def linkedNodes (ds : List Target) (xs : List String) (ls : List (String × String)) : List Node :=
  (ds.map Node.ofTarget ++ xs.map Node.standIn).map (linkedNode ls)

theorem names_linkedNodes (ds : List Target) (xs : List String) (ls : List (String × String)) :
    (linkedNodes ds xs ls).map (·.name) = ds.map (·.name) ++ xs := by
  simp [linkedNodes, linkedNode, Node.ofTarget, Node.standIn, Function.comp_def]

theorem lookup_linkedNodes (ds : List Target) (xs : List String) (ls : List (String × String)) (name : String) :
    lookup (linkedNodes ds xs ls) name = (lookup (ds.map Node.ofTarget ++ xs.map Node.standIn) name).map
      (linkedNode ls) :=
  lookup_map (f := linkedNode ls) (fun _ => rfl) _ name

/-- each of these names has a node with the edges of that name -/
theorem exists_linkedNode {ds : List Target} {xs : List String} (ls : List (String × String)) {name : String}
    (h : name ∈ ds.map (·.name) ++ xs) : ∃ n, lookup (linkedNodes ds xs ls) name = some (linkedNode ls n) ∧
    n.name = name := by
  rw [← names_linkedNodes ds xs ls, ← lookup_isSome, Option.isSome_iff_exists] at h
  obtain ⟨n, hn⟩ := h
  have hname : n.name = name := lookup_name hn
  rw [lookup_linkedNodes, Option.map_eq_some_iff] at hn
  obtain ⟨m, hm, rfl⟩ := hn
  exact ⟨m, by rw [lookup_linkedNodes, hm, Option.map_some], hname⟩

theorem dependenciesIn_linkedNodes {ds : List Target} {xs : List String} {ls : List (String × String)} {name : String}
    (h : name ∈ ds.map (·.name) ++ xs) : dependenciesIn (linkedNodes ds xs ls) name = linkedFrom ls name := by
  obtain ⟨n, hn, rfl⟩ := exists_linkedNode ls h
  rw [dependenciesIn, hn]
  rfl

theorem dependentsIn_linkedNodes {ds : List Target} {xs : List String} {ls : List (String × String)} {name : String}
    (h : name ∈ ds.map (·.name) ++ xs) : dependentsIn (linkedNodes ds xs ls) name = linkedTo ls name := by
  obtain ⟨n, hn, rfl⟩ := exists_linkedNode ls h
  rw [dependentsIn, hn]
  rfl

/-- a node comes from a definition of its name, or stands in for a name that has none -/
theorem linkedNode_cases {ds : List Target} {xs : List String} {ls : List (String × String)} {name : String} {n : Node}
    (h : lookup (linkedNodes ds xs ls) name = some n) :
    (∃ t ∈ ds, t.name = name ∧ n = linkedNode ls (.ofTarget t)) ∨
      name ∉ ds.map (·.name) ∧ n = linkedNode ls (.standIn name) := by
  rw [lookup_linkedNodes, Option.map_eq_some_iff] at h
  obtain ⟨m, hm, rfl⟩ := h
  have hname : m.name = name := lookup_name hm
  rw [lookup, List.find?_append, Option.or_eq_some_iff] at hm
  rcases hm with hm | ⟨hnone, hm⟩
  · obtain ⟨t, ht, rfl⟩ := List.mem_map.1 (List.mem_of_find?_eq_some hm)
    exact .inl ⟨t, ht, hname, rfl⟩
  · obtain ⟨x, -, rfl⟩ := List.mem_map.1 (List.mem_of_find?_eq_some hm)
    refine .inr ⟨fun hdefined => ?_, by rw [← hname]; rfl⟩
    obtain ⟨t, ht, htname⟩ := List.mem_map.1 hdefined
    exact absurd (beq_iff_eq.2 htname) (List.find?_eq_none.1 hnone (.ofTarget t) (List.mem_map_of_mem ht))

/-- a link that is there already changes nothing -/
theorem linkedNodes_concat_of_mem {ds : List Target} {xs : List String} {ls : List (String × String)} {a b : String}
    (h : (a, b) ∈ ls) : linkedNodes ds xs (ls ++ [(a, b)]) = linkedNodes ds xs ls := by
  unfold linkedNodes
  congr 1
  funext n
  simp [linkedNode, linkedFrom_concat, linkedTo_concat, h]

/-- a new link is one edge more, known at both ends -/
theorem linkedNodes_concat_of_not_mem {ds : List Target} {xs : List String} {ls : List (String × String)} {a b : String}
    (h : (a, b) ∉ ls) :
    linkedNodes ds xs (ls ++ [(a, b)]) =
      update b (fun n => { n with dependents := n.dependents ++ [a] })
        (update a (fun n => { n with dependencies := n.dependencies ++ [b] }) (linkedNodes ds xs ls)) := by
  unfold linkedNodes update
  rw [List.map_map, List.map_map]
  congr 1
  funext n
  simp only [Function.comp, linkedNode, linkedFrom_concat, linkedTo_concat, h, not_false_eq_true, and_true, beq_iff_eq]
  split_ifs <;> rfl

/-- the nodes of these definitions after these links -/
def wired (ds : List Target) (ls : List (String × String)) : List Node := linkedNodes ds (strangers ds ls) ls

/-! ## One link, all links -/

section Links

variable {ds : List Target} {ls : List (String × String)} {a b : String}

/-- a name that no link names has no edges -/
theorem linkedNode_standIn (hls : ∀ e ∈ ls, e.1 ∈ ds.map (·.name)) (hb : b ∉ ds.map (·.name) ++ strangers ds ls) :
    linkedNode ls (.standIn b) = .standIn b := by
  have hfrom : linkedFrom ls b = [] := by
    refine List.eq_nil_iff_forall_not_mem.2 fun c hc => hb (List.mem_append_left _ ?_)
    exact hls _ (mem_linkedFrom.1 hc)
  have hto : linkedTo ls b = [] := by
    refine List.eq_nil_iff_forall_not_mem.2 fun c hc => hb ?_
    by_cases hd : b ∈ ds.map (·.name)
    · exact List.mem_append_left _ hd
    · refine List.mem_append_right _ (List.mem_eraseDups.2 (List.mem_filter.2 ⟨?_, by simpa using hd⟩))
      exact List.mem_map.2 ⟨(c, b), mem_linkedTo.1 hc, rfl⟩
  simp [linkedNode, Node.standIn, hfrom, hto]

theorem ensure_wired (hls : ∀ e ∈ ls, e.1 ∈ ds.map (·.name)) :
    Wires.ensure b (wired ds ls) = linkedNodes ds (strangers ds (ls ++ [(a, b)])) ls := by
  have hsome : (lookup (wired ds ls) b).isSome ↔ b ∈ ds.map (·.name) ++ strangers ds ls := by
    rw [lookup_isSome, wired, names_linkedNodes]
  rw [Wires.ensure, strangers_concat]
  by_cases hb : b ∈ ds.map (·.name) ++ strangers ds ls
  · rw [if_pos (hsome.2 hb), if_pos hb, wired]
  · rw [if_neg (fun h => hb (hsome.1 h)), if_neg hb]
    simp [wired, linkedNodes, linkedNode_standIn hls hb]

/-- **One link keeps the closed form.** -/
theorem link_store (hls : ∀ e ∈ ls, e.1 ∈ ds.map (·.name)) (ha : a ∈ ds.map (·.name))
    (missing : Entries (List String)) :
    (Wires.link ⟨wired ds ls, missing⟩ a b).store = wired ds (ls ++ [(a, b)]) := by
  have hdeps : dependenciesIn (linkedNodes ds (strangers ds (ls ++ [(a, b)])) ls) a = linkedFrom ls a :=
    dependenciesIn_linkedNodes (List.mem_append_left _ ha)
  unfold Wires.link
  simp only [ensure_wired (a := a) hls, hdeps]
  by_cases hmem : (a, b) ∈ ls
  · rw [if_pos (by simpa using mem_linkedFrom.2 hmem), wired, linkedNodes_concat_of_mem hmem]
  · rw [if_neg (by simpa using fun h => hmem (mem_linkedFrom.1 h)), wired, linkedNodes_concat_of_not_mem hmem]

theorem foldl_link_store (new : List (String × String)) (w : Wires) (hw : w.store = wired ds ls)
    (hls : ∀ e ∈ ls ++ new, e.1 ∈ ds.map (·.name)) :
    (new.foldl (fun w e => w.link e.1 e.2) w).store = wired ds (ls ++ new) := by
  induction new generalizing ls w with
  | nil => simpa using hw
  | cons e new ih =>
    have hlink : (w.link e.1 e.2).store = wired ds (ls ++ [e]) := by
      have := link_store (b := e.2) (fun x hx => hls x (List.mem_append_left _ hx)) (hls e (by simp)) w.missing
      rw [← hw] at this
      exact this
    rw [List.foldl_cons, ih _ hlink (by simpa using hls)]
    simp

end Links

theorem wired_nil (ds : List Target) : wired ds [] = ds.map Node.ofTarget := by
  simp [wired, strangers, linkedNodes, linkedNode, linkedFrom, linkedTo, Node.ofTarget, Function.comp_def]

/-- wiring goes through the links one after the other -/
theorem ofTargets_eq_foldl (ts : List Target) :
    Wires.ofTargets ts = (links ts).foldl (fun w e => w.link e.1 e.2) { store := wired (definitions ts) [] } := by
  rw [wired_nil]
  simp only [Wires.ofTargets, links, List.foldl_flatMap, List.foldl_map]
  rfl

/-- links begin at defined names -/
theorem defined_of_mem_links {ts : List Target} : ∀ e ∈ links ts, e.1 ∈ (definitions ts).map (·.name) := by
  intro e he
  simp only [links, List.mem_flatMap, List.mem_map] at he
  obtain ⟨t, ht, d, -, rfl⟩ := he
  exact List.mem_map_of_mem ht

/-- **Wiring gives the closed form.** -/
theorem ofTargets_store (ts : List Target) : (Wires.ofTargets ts).store = wired (definitions ts) (links ts) := by
  have hstart : ({ store := wired (definitions ts) [] } : Wires).store = wired (definitions ts) [] := rfl
  rw [ofTargets_eq_foldl, foldl_link_store _ _ hstart (by simpa using defined_of_mem_links), List.nil_append]

/-! ## Wired graphs -/

/-- a graph that owns all its nodes and all that they wait for, with each edge once and in both directions -/
structure Wired (g : Graph) : Prop where
  names_eq : g.names = g.store.map (·.name)
  nodup : g.names.Nodup
  closed : g.Closed
  nodup_dependencies : ∀ a, (g.dependencies a).Nodup
  nodup_dependents : ∀ b, (g.dependents b).Nodup
  mem_dependents : ∀ a b, a ∈ g.dependents b ↔ g.Waits a b

theorem Wired.nodes_eq {g : Graph} (hg : Wired g) : g.nodes = g.store := by
  have hnd : (g.store.map (·.name)).Nodup := hg.names_eq ▸ hg.nodup
  rw [nodes, hg.names_eq, List.filterMap_map]
  exact (List.filterMap_congr fun n hn => lookup_of_mem hnd hn).trans List.filterMap_some

/-- a wired graph has a node for each of its names -/
theorem Wired.exists_node {g : Graph} (hg : Wired g) {a : String} (ha : a ∈ g.names) : ∃ n ∈ g.nodes, n.name = a := by
  rw [hg.names_eq] at ha
  rw [hg.nodes_eq]
  exact List.mem_map.1 ha

theorem Wired.name_mem {g : Graph} (hg : Wired g) {n : Node} (hn : n ∈ g.nodes) : n.name ∈ g.names := by
  rw [hg.nodes_eq] at hn
  rw [hg.names_eq]
  exact List.mem_map_of_mem hn

/-- and only one for each -/
theorem Wired.eq_of_name {g : Graph} (hg : Wired g) {n m : Node} (hn : n ∈ g.nodes) (hm : m ∈ g.nodes)
    (hname : m.name = n.name) :
    m = n := by
  rw [hg.nodes_eq] at hn hm
  exact List.inj_on_of_nodup_map (hg.names_eq ▸ hg.nodup) hm hn hname

theorem Wired.lookup_of_mem_nodes {g : Graph} (hg : Wired g) {n : Node} (hn : n ∈ g.nodes) :
    lookup g.store n.name = some n := by
  rw [hg.nodes_eq] at hn
  exact lookup_of_mem (hg.names_eq ▸ hg.nodup) hn

theorem Wired.dependencies_name {g : Graph} (hg : Wired g) {n : Node} (hn : n ∈ g.nodes) :
    g.dependencies n.name = n.dependencies := by
  rw [dependencies, dependenciesIn, hg.lookup_of_mem_nodes hn]
  rfl

theorem Wired.dependents_name {g : Graph} (hg : Wired g) {n : Node} (hn : n ∈ g.nodes) :
    g.dependents n.name = n.dependents := by
  rw [dependents, dependentsIn, hg.lookup_of_mem_nodes hn]
  rfl

/-- without a loop every name of a wired graph has a depth -/
theorem Wired.exists_hasDepth {g : Graph} (hg : Wired g) (hac : ¬ Cyclic g.Waits) (a : String) :
    ∃ d, HasDepth g.Waits a d :=
  Graph.exists_hasDepth (fun a b h => hg.closed a h.1 b h.2) hac a

section OfTargets

variable (ts : List Target)

theorem names_ofTargets : (ofWires (.ofTargets ts)).names =
    (definitions ts).map (·.name) ++ strangers (definitions ts) (links ts) := by
  rw [← names_linkedNodes _ _ (links ts), ← wired, ← ofTargets_store]
  rfl

theorem mem_names_of_depends {a b : String} (h : Depends ts a b) :
    a ∈ (ofWires (.ofTargets ts)).names ∧ b ∈ (ofWires (.ofTargets ts)).names := by
  rw [names_ofTargets, List.mem_append, List.mem_append]
  obtain ⟨t, ht, hb⟩ := h
  have hname : t.name = a := by simpa using List.find?_some ht
  refine ⟨.inl (hname ▸ List.mem_map_of_mem (mem_definitions.2 (hname ▸ ht))), ?_⟩
  by_cases hd : b ∈ (definitions ts).map (·.name)
  · exact .inl hd
  · refine .inr (List.mem_eraseDups.2 (List.mem_filter.2 ⟨?_, by simpa using hd⟩))
    exact List.mem_map.2 ⟨(a, b), mem_links.2 ⟨t, ht, hb⟩, rfl⟩

/-- the names of a wired graph are those that are defined or waited for -/
theorem mem_names_ofTargets {a : String} :
    a ∈ (ofWires (.ofTargets ts)).names ↔ a ∈ ts.map (·.name) ∨ ∃ b, Depends ts b a := by
  constructor
  · intro ha
    rw [names_ofTargets, List.mem_append] at ha
    rcases ha with hdefined | hstranger
    · rw [names_definitions, List.mem_eraseDups] at hdefined
      exact .inl hdefined
    · rw [strangers, List.mem_eraseDups, List.mem_filter, List.mem_map] at hstranger
      obtain ⟨⟨e, he, rfl⟩, -⟩ := hstranger
      exact .inr ⟨e.1, mem_links.1 he⟩
  · intro hcase
    rcases hcase with hdefined | hsome
    · rw [names_ofTargets, names_definitions, List.mem_append, List.mem_eraseDups]
      exact .inl hdefined
    · obtain ⟨b, hb⟩ := hsome
      exact (mem_names_of_depends ts hb).2

theorem lookup_ofTargets_eq_none {a : String} (ha : a ∉ (ofWires (.ofTargets ts)).names) :
    lookup (ofWires (.ofTargets ts)).store a = none := by
  rw [← Option.not_isSome_iff_eq_none, lookup_isSome]
  exact ha

theorem dependencies_ofTargets (a : String) : (ofWires (.ofTargets ts)).dependencies a = linkedFrom (links ts) a := by
  by_cases ha : a ∈ (ofWires (.ofTargets ts)).names
  · rw [dependencies, ofWires, ofTargets_store]
    exact dependenciesIn_linkedNodes (names_ofTargets ts ▸ ha)
  · rw [dependencies, dependenciesIn, lookup_ofTargets_eq_none ts ha]
    refine (List.eq_nil_iff_forall_not_mem.2 fun b hb => ha ?_).symm
    exact (mem_names_of_depends ts (mem_links.1 (mem_linkedFrom.1 hb))).1

theorem dependents_ofTargets (b : String) : (ofWires (.ofTargets ts)).dependents b = linkedTo (links ts) b := by
  by_cases hb : b ∈ (ofWires (.ofTargets ts)).names
  · rw [dependents, ofWires, ofTargets_store]
    exact dependentsIn_linkedNodes (names_ofTargets ts ▸ hb)
  · rw [dependents, dependentsIn, lookup_ofTargets_eq_none ts hb]
    refine (List.eq_nil_iff_forall_not_mem.2 fun a ha => hb ?_).symm
    exact (mem_names_of_depends ts (mem_links.1 (mem_linkedTo.1 ha))).2

/-- the edges of a wired graph are the dependencies of the definitions that count -/
theorem waits_ofTargets {a b : String} : (ofWires (.ofTargets ts)).Waits a b ↔ Depends ts a b := by
  rw [Waits, dependencies_ofTargets, mem_linkedFrom, mem_links]
  exact and_iff_right_of_imp fun h => (mem_names_of_depends ts h).1

theorem waits_ofTargets_eq :
    (ofWires (.ofTargets ts)).Waits = Depends ts := funext₂ fun _ _ => propext (waits_ofTargets ts)

theorem wired_ofTargets : Wired (ofWires (.ofTargets ts)) := by
  refine ⟨rfl, ?_, fun a ha b hb => ?_, fun a => ?_, fun b => ?_, fun a b => ?_⟩
  · rw [names_ofTargets, List.nodup_append]
    refine ⟨nodup_definitions ts, nodup_eraseDups _, ?_⟩
    rintro a ha b hb rfl
    simp [strangers] at hb
    obtain ⟨u, hu, rfl⟩ := List.mem_map.1 ha
    exact hb.2 u hu rfl
  · exact (mem_names_of_depends ts ((waits_ofTargets ts).1 ⟨ha, hb⟩)).2
  · rw [dependencies_ofTargets]
    exact nodup_eraseDups _
  · rw [dependents_ofTargets]
    exact nodup_eraseDups _
  · rw [dependents_ofTargets, mem_linkedTo, waits_ofTargets, mem_links]

theorem isSome_lastDefinition {ts : List Target} {a : String} :
    (lastDefinition ts a).isSome ↔ a ∈ (definitions ts).map (·.name) := by
  rw [names_definitions, List.mem_eraseDups]
  simp [lastDefinition, List.find?_isSome]

/-- a node stands for a target exactly when its name is defined -/
theorem kind_ofTargets {a : String} {n : Node} (h : lookup (ofWires (.ofTargets ts)).store a = some n) :
    n.kind = .real ↔ (lastDefinition ts a).isSome := by
  rw [ofWires, ofTargets_store, wired] at h
  rw [isSome_lastDefinition]
  rcases linkedNode_cases h with ⟨t, ht, rfl, rfl⟩ | ⟨hno, rfl⟩
  · exact iff_of_true rfl (List.mem_map_of_mem ht)
  · exact iff_of_false (by simp [linkedNode, Node.standIn]) hno

/-- wiring gives no marks -/
theorem unmarked_ofTargets {n : Node} (h : n ∈ (ofWires (.ofTargets ts)).store) : n.order = 0 ∧ n.critical = false := by
  rw [ofWires, ofTargets_store, wired, linkedNodes] at h
  obtain ⟨m, hm, rfl⟩ := List.mem_map.1 h
  rcases List.mem_append.1 hm with hm | hm
  · obtain ⟨t, -, rfl⟩ := List.mem_map.1 hm
    exact ⟨rfl, rfl⟩
  · obtain ⟨x, -, rfl⟩ := List.mem_map.1 hm
    exact ⟨rfl, rfl⟩

end OfTargets

/-! ## Marks change no edge -/

/-- a change of a node that leaves its name, its kind, its description and its edges -/
structure Keeps (f : Node → Node) : Prop where
  name : ∀ n, (f n).name = n.name
  kind : ∀ n, (f n).kind = n.kind
  description : ∀ n, (f n).description = n.description
  dependencies : ∀ n, (f n).dependencies = n.dependencies
  dependents : ∀ n, (f n).dependents = n.dependents

/-- the same graph with other marks on its nodes -/
def Remarks (g g' : Graph) : Prop := ∃ f, Keeps f ∧ g'.store = g.store.map f ∧ g'.names = g.names

theorem Remarks.refl (g : Graph) : Remarks g g :=
  ⟨id, ⟨fun _ => rfl, fun _ => rfl, fun _ => rfl, fun _ => rfl, fun _ => rfl⟩, by simp, rfl⟩

theorem Remarks.trans {g₁ g₂ g₃ : Graph} (h₁ : Remarks g₁ g₂) (h₂ : Remarks g₂ g₃) : Remarks g₁ g₃ := by
  obtain ⟨f, hf, hs, hn⟩ := h₁
  obtain ⟨f', hf', hs', hn'⟩ := h₂
  refine ⟨f' ∘ f, ⟨?_, ?_, ?_, ?_, ?_⟩, by rw [hs', hs, List.map_map], hn'.trans hn⟩
  · exact fun n => (hf'.name _).trans (hf.name n)
  · exact fun n => (hf'.kind _).trans (hf.kind n)
  · exact fun n => (hf'.description _).trans (hf.description n)
  · exact fun n => (hf'.dependencies _).trans (hf.dependencies n)
  · exact fun n => (hf'.dependents _).trans (hf.dependents n)

theorem remarks_assignOrder (g : Graph) : Remarks g (assignOrder g) := by
  refine ⟨_, ?_, rfl, rfl⟩
  exact ⟨fun _ => rfl, fun _ => rfl, fun _ => rfl, fun _ => rfl, fun _ => rfl⟩

theorem remarks_markCritical (g : Graph) : Remarks g (markCritical g) := by
  refine ⟨_, ?_, rfl, rfl⟩
  exact ⟨fun _ => rfl, fun _ => rfl, fun _ => rfl, fun _ => rfl, fun _ => rfl⟩

theorem remarks_markParallel (g : Graph) : Remarks g (markParallel g) := by
  refine ⟨_, ?_, rfl, rfl⟩
  exact ⟨fun _ => rfl, fun _ => rfl, fun _ => rfl, fun _ => rfl, fun _ => rfl⟩

theorem remarks_annotate (g : Graph) : Remarks g (annotate g) :=
  (remarks_assignOrder g).trans ((remarks_markCritical _).trans (remarks_markParallel _))

/-- what is found under a name differs in its marks only -/
theorem Remarks.lookup {g g' : Graph} (h : Remarks g g') :
    ∃ f, Keeps f ∧ ∀ a, Graph.lookup g'.store a = (Graph.lookup g.store a).map f := by
  obtain ⟨f, hf, hs, -⟩ := h
  refine ⟨f, hf, fun a => ?_⟩
  rw [hs, lookup_map hf.name]

theorem Remarks.dependencies {g g' : Graph} (h : Remarks g g') : g'.dependencies = g.dependencies := by
  obtain ⟨f, hf, hlookup⟩ := h.lookup
  funext a
  rw [Graph.dependencies, Graph.dependencies, dependenciesIn, dependenciesIn, hlookup]
  cases Graph.lookup g.store a with
  | none => rfl
  | some n => exact hf.dependencies n

theorem Remarks.dependents {g g' : Graph} (h : Remarks g g') : g'.dependents = g.dependents := by
  obtain ⟨f, hf, hlookup⟩ := h.lookup
  funext a
  rw [Graph.dependents, Graph.dependents, dependentsIn, dependentsIn, hlookup]
  cases Graph.lookup g.store a with
  | none => rfl
  | some n => exact hf.dependents n

theorem Remarks.waits {g g' : Graph} (h : Remarks g g') : g'.Waits = g.Waits := by
  funext a b
  obtain ⟨f, -, -, hn⟩ := id h
  rw [Waits, Waits, h.dependencies, hn]

theorem Remarks.wired {g g' : Graph} (h : Remarks g g') (hw : Wired g) : Wired g' := by
  obtain ⟨f, hf, hs, hn⟩ := id h
  refine ⟨?_, hn ▸ hw.nodup, fun a ha b hb => ?_, fun a => ?_, fun b => ?_, fun a b => ?_⟩
  · rw [hn, hw.names_eq, hs, List.map_map]
    exact List.map_congr_left fun n _ => (hf.name n).symm
  · rw [hn] at ha ⊢
    rw [h.dependencies] at hb
    exact hw.closed a ha b hb
  · rw [h.dependencies]; exact hw.nodup_dependencies a
  · rw [h.dependents]; exact hw.nodup_dependents b
  · rw [h.dependents, h.waits]; exact hw.mem_dependents a b

/-- **The analysis changes marks only.** -/
theorem remarks_build (ts : List Target) : Remarks (ofWires (.ofTargets ts)) (build ts) := by
  unfold build
  simp only
  split
  · exact remarks_annotate _
  · exact Remarks.refl _
  · exact Remarks.refl _

theorem wired_build (ts : List Target) : Wired (build ts) := (remarks_build ts).wired (wired_ofTargets ts)

theorem names_build (ts : List Target) : (build ts).names = (ofWires (.ofTargets ts)).names := by
  obtain ⟨-, -, -, hnames⟩ := remarks_build ts
  exact hnames

/-- a graph has every target that it was built from -/
theorem has_build {ts : List Target} {a : String} (ha : a ∈ ts.map (·.name)) : (build ts).has a = true := by
  rw [has, List.contains_iff_mem, names_build, mem_names_ofTargets]
  exact .inl ha

/-- a node of a built graph stands for a target exactly when its name is defined -/
theorem kind_build {ts : List Target} {n : Node} (hn : n ∈ (build ts).nodes) :
    n.kind = .real ↔ n.name ∈ ts.map (·.name) := by
  obtain ⟨f, hf, hlookup⟩ := (remarks_build ts).lookup
  have hsome := (wired_build ts).lookup_of_mem_nodes hn
  rw [hlookup, Option.map_eq_some_iff] at hsome
  obtain ⟨m, hm, rfl⟩ := hsome
  rw [hf.kind, kind_ofTargets ts hm, isSome_lastDefinition, names_definitions, List.mem_eraseDups]

/-- the edges of a built graph are the dependencies of the definitions that count -/
theorem waits_build (ts : List Target) : (build ts).Waits = Depends ts := by
  rw [(remarks_build ts).waits, waits_ofTargets_eq]

end MakeAtlas.Graph
