/-
What a built graph says about its targets: all of it, and nothing else. Nodes and edges come from the closed form of
wiring; the entries of missing names get one of their own here.
- `linkedFrom_links`, `sources_links`: the edges of the closed form, read off the definitions that count.
- `link_missing`, `ofTargets_missing`: one link keeps the closed form of the missing names, so does the whole wiring.
- `faithful_build`: names, kinds, descriptions, both directions of the edges, missing names and roots of a built graph,
  each in its order and from the targets alone.
- `listsMissing_build`: its entries of missing names, node by node.
-/
import MakeAtlas.Proofs.Graph.Wiring

namespace MakeAtlas.Graph

open Makefile (Target)

/-! ## What the targets say -/

def definedNames (ts : List Target) : List String := (ts.map (·.name)).eraseDups

/-- what the last definition of a name waits for, as it is written -/
def writtenDependencies (ts : List Target) (a : String) : List String :=
  ((lastDefinition ts a).map (·.dependencies)).getD []

/-- the names that are waited for and not defined, in the order of first reference -/
def unknownNames (ts : List Target) : List String :=
  (((definedNames ts).flatMap (writtenDependencies ts)).filter fun b => !(definedNames ts).contains b).eraseDups

/-- the node of this name holds the place of an unknown name -/
def holdsPlace (g : Graph) (name : String) : Bool := (lookup g.store name).any (·.kind == .placeholder)

/-- the graph is what these targets say -/
structure Faithful (ts : List Target) (g : Graph) : Prop where
  /-- defined names come first, then unknown ones -/
  names : g.names = definedNames ts ++ unknownNames ts
  nodup : g.names.Nodup
  /-- there is one node for each name -/
  named : g.nodes.map (·.name) = g.names
  /-- a defined name has the node of its last definition, with its dependencies where they are first written -/
  real : ∀ n ∈ g.nodes, ∀ t, lastDefinition ts n.name = some t →
    n.kind = .real ∧ n.description = t.description ∧ n.dependencies = t.dependencies.eraseDups
  /-- any other name has a stand-in that waits for nothing -/
  standIn : ∀ n ∈ g.nodes, lastDefinition ts n.name = none →
    n.kind = .placeholder ∧ n.description = placeholderDescription ∧ n.dependencies = []
  /-- the dependents of a node are the nodes that wait for it, in the order of the nodes -/
  dependents : ∀ n ∈ g.nodes, n.dependents = (g.nodes.filter (·.dependencies.contains n.name)).map (·.name)
  /-- the nodes that wait for stand-ins have an entry, which holds just these -/
  missing : g.missing =
    (g.nodes.filter (·.dependencies.any g.holdsPlace)).map fun n => (n.name, n.dependencies.filter g.holdsPlace)
  roots : g.roots = (g.nodes.filter (·.dependents.isEmpty)).map (·.name)

/-! ## Edges, read off the definitions -/

theorem lastDefinition_of_mem {ts : List Target} {t : Target} (ht : t ∈ definitions ts) :
    lastDefinition ts t.name = some t :=
  mem_definitions.1 ht

theorem writtenDependencies_of_mem {ts : List Target} {t : Target} (ht : t ∈ definitions ts) :
    writtenDependencies ts t.name = t.dependencies := by
  rw [writtenDependencies, lastDefinition_of_mem ht]
  rfl

theorem depends_of_mem_writtenDependencies {ts : List Target} {a b : String} (hb : b ∈ writtenDependencies ts a) :
    Depends ts a b := by
  rw [writtenDependencies] at hb
  cases ht : lastDefinition ts a with
  | none => simp [ht] at hb
  | some t => exact ⟨t, ht, by simpa [ht] using hb⟩

theorem mem_writtenDependencies_of_depends {ts : List Target} {a b : String} (h : Depends ts a b) :
    b ∈ writtenDependencies ts a := by
  obtain ⟨t, ht, hb⟩ := h
  rw [writtenDependencies, ht]
  exact hb

/-- a table of depths, in which every name but those of depth 0 waits for one whose depth is one less -/
theorem hasDepth_of_table {ts : List Target} {table : List (String × ℕ)}
    (hbelow : ∀ e ∈ table, ∀ b ∈ writtenDependencies ts e.1, ∃ d < e.2, (b, d) ∈ table)
    (hnext : ∀ e ∈ table, e.2 ≠ 0 → ∃ b ∈ writtenDependencies ts e.1, (b, e.2 - 1) ∈ table) :
    ∀ e ∈ table, HasDepth (Depends ts) e.1 e.2 := by
  rintro ⟨a, d⟩ hmem
  induction d using Nat.strong_induction_on generalizing a with
  | _ d ih =>
    cases d with
    | zero =>
      refine hasDepth_zero fun b hab => ?_
      obtain ⟨d, hd, -⟩ := hbelow _ hmem b (mem_writtenDependencies_of_depends hab)
      exact absurd hd (Nat.not_lt_zero d)
    | succ d =>
      refine hasDepth_of_below (fun b hab => ?_) ?_
      · obtain ⟨e, he, hb⟩ := hbelow _ hmem b (mem_writtenDependencies_of_depends hab)
        exact ⟨e, Nat.le_of_lt_succ he, ih e he b hb⟩
      · obtain ⟨b, hwritten, hb⟩ := hnext _ hmem (Nat.succ_ne_zero d)
        exact ⟨b, depends_of_mem_writtenDependencies hwritten, ih d (Nat.lt_succ_self d) b hb⟩

/-- the height among the names of a table of depths -/
theorem HasHeight.eq_of_table {r : String → String → Prop} {table : List (String × ℕ)}
    (hdepth : ∀ e ∈ table, HasDepth r e.1 e.2) {d : ℕ} (h : HasHeight r (table.map (·.1)) d) (top : String × ℕ)
    (htop : top ∈ table ∧ ∀ e ∈ table, e.2 ≤ top.2) :
    d = top.2 := by
  obtain ⟨a, ha, hd⟩ := h.exists_top
  obtain ⟨e, he, rfl⟩ := List.mem_map.1 ha
  obtain rfl := hd.unique (hdepth e he)
  exact le_antisymm (htop.2 e he) (h.le (List.mem_map_of_mem htop.1) (hdepth top htop.1))

theorem unknownNames_eq (ts : List Target) : unknownNames ts = strangers (definitions ts) (links ts) := by
  have hnames : definedNames ts = (definitions ts).map (·.name) := (names_definitions ts).symm
  have hwritten : (definedNames ts).flatMap (writtenDependencies ts) = (links ts).map (·.2) := by
    rw [hnames, List.flatMap_map, links, List.map_flatMap]
    apply List.flatMap_congr
    intro t ht
    rw [writtenDependencies_of_mem ht, List.map_map]
    exact (List.map_id _).symm
  rw [unknownNames, hwritten, hnames, strangers]

/-- the names that link to one of these, each once -/
def sources (p : String → Bool) (ls : List (String × String)) : List String := ((ls.filter (p ·.2)).map (·.1)).eraseDups

theorem eraseDups_map_const {α : Type} (l : List α) (x : String) :
    (l.map fun _ => x).eraseDups = if l.isEmpty then [] else [x] := by
  induction l with
  | nil => rfl
  | cons y l ih =>
    rw [List.map_cons, List.eraseDups_cons, List.filter_eq_nil_iff.2 (by simp)]
    rfl

/-- when no two definitions have one name, the sources of the links are the definitions that hold them -/
theorem sources_flatMap (p : String → Bool) {ds : List Target} (hnd : (ds.map (·.name)).Nodup) :
    sources p (ds.flatMap fun t => t.dependencies.map (t.name, ·)) = (ds.filter (·.dependencies.any p)).map
      (·.name) := by
  induction ds with
  | nil => rfl
  | cons t ds ih =>
    rw [List.map_cons, List.nodup_cons] at hnd
    have hown : ((t.dependencies.map (t.name, ·)).filter (p ·.2)).map (·.1) =
        (t.dependencies.filter p).map fun _ => t.name := by
      rw [List.filter_map, List.map_map]
      rfl
    have hother : (((ds.flatMap fun t => t.dependencies.map (t.name, ·)).filter (p ·.2)).map (·.1)).removeAll
        ((t.dependencies.filter p).map fun _ => t.name) =
          ((ds.flatMap fun t => t.dependencies.map (t.name, ·)).filter (p ·.2)).map (·.1) := by
      apply List.filter_eq_self.2
      intro a ha
      simp only [List.mem_map, List.mem_filter, List.mem_flatMap] at ha
      obtain ⟨e, ⟨⟨u, hu, b, -, rfl⟩, -⟩, rfl⟩ := ha
      have hne : u.name ≠ t.name := fun h => hnd.1 (h ▸ List.mem_map_of_mem hu)
      simp [hne]
    have hany : t.dependencies.any p = !(t.dependencies.filter p).isEmpty := by
      rw [Bool.eq_iff_iff]
      simp
    rw [sources, List.flatMap_cons, List.filter_append, List.map_append, hown, List.eraseDups_append, hother,
      eraseDups_map_const, ← sources, ih hnd.2, List.filter_cons, hany]
    cases (t.dependencies.filter p).isEmpty <;> rfl

theorem sources_links (p : String → Bool) (ts : List Target) :
    sources p (links ts) = ((definitions ts).filter (·.dependencies.any p)).map (·.name) :=
  sources_flatMap p (nodup_definitions ts)

theorem linkedTo_eq_sources (ls : List (String × String)) (b : String) : linkedTo ls b = sources (· == b) ls := rfl

/-- a name that these definitions do not define begins no link -/
theorem filter_flatMap_eq_nil {ds : List Target} {a : String} (h : a ∉ ds.map (·.name)) :
    (ds.flatMap fun t => t.dependencies.map (t.name, ·)).filter (·.1 == a) = [] := by
  apply List.filter_eq_nil_iff.2
  intro e he
  simp only [List.mem_flatMap, List.mem_map] at he
  obtain ⟨t, ht, b, -, rfl⟩ := he
  have hne : t.name ≠ a := fun hname => h (hname ▸ List.mem_map_of_mem ht)
  simpa using hne

/-- the links of a definition that counts are its dependencies -/
theorem linkedFrom_links {ts : List Target} {t : Target} (ht : t ∈ definitions ts) :
    linkedFrom (links ts) t.name = t.dependencies.eraseDups := by
  obtain ⟨before, after, hsplit⟩ := List.append_of_mem ht
  have hnd := nodup_definitions ts
  rw [hsplit, List.map_append, List.map_cons, List.nodup_middle, List.nodup_cons, List.mem_append, not_or] at hnd
  have hown : (t.dependencies.map (t.name, ·)).filter (·.1 == t.name) = t.dependencies.map (t.name, ·) := by
    simp [List.filter_map, Function.comp_def]
  rw [linkedFrom, links, hsplit, List.flatMap_append, List.flatMap_cons, List.filter_append, List.filter_append,
    filter_flatMap_eq_nil hnd.1.1, filter_flatMap_eq_nil hnd.1.2, hown]
  simp [Function.comp_def]

/-- an unknown name begins no link -/
theorem linkedFrom_of_not_defined {ts : List Target} {a : String} (h : a ∉ (definitions ts).map (·.name)) :
    linkedFrom (links ts) a = [] := by
  rw [linkedFrom, links, filter_flatMap_eq_nil h]
  rfl

/-! ## Missing names -/

/-- a name that none of these targets has -/
def isUnknown (ds : List Target) (b : String) : Bool := !(ds.map (·.name)).contains b

/-- the missing names that these links leave behind -/
def missingOf (ds : List Target) (ls : List (String × String)) : Entries (List String) :=
  (sources (isUnknown ds) ls).map fun a => (a, (linkedFrom ls a).filter (isUnknown ds))

theorem mem_sources {p : String → Bool} {ls : List (String × String)} {a : String} :
    a ∈ sources p ls ↔ ∃ b, (a, b) ∈ ls ∧ p b = true := by
  simp [sources]

theorem sources_concat (p : String → Bool) (ls : List (String × String)) (a b : String) :
    sources p (ls ++ [(a, b)]) = if p b = true ∧ a ∉ sources p ls then sources p ls ++ [a] else sources p ls := by
  unfold sources
  by_cases hb : p b = true
  · have hlast : [(a, b)].filter (p ·.2) = [(a, b)] := by simp [hb]
    rw [List.filter_append, List.map_append, hlast, List.map_singleton, eraseDups_concat]
    by_cases ha : a ∈ (ls.filter (p ·.2)).map (·.1) <;> simp [ha, hb]
  · simp [hb]

section Links

variable {ds : List Target} {xs : List String} {ls : List (String × String)} {a b : String}

/-- the nodes of unknown names are stand-ins, those of definitions are not -/
theorem any_placeholder_linkedNodes (h : b ∈ ds.map (·.name) ++ xs) :
    (lookup (linkedNodes ds xs ls) b).any (·.kind == .placeholder) = isUnknown ds b := by
  obtain ⟨n, hn, -⟩ := exists_linkedNode ls h
  rw [hn, Option.any_some, isUnknown]
  rcases linkedNode_cases hn with ⟨t, ht, rfl, hfrom⟩ | ⟨hno, hfrom⟩
  · have hdefined : t.name ∈ ds.map (·.name) := List.mem_map_of_mem ht
    rw [hfrom, List.contains_iff_mem.2 hdefined]
    rfl
  · rw [hfrom]
    simpa [linkedNode, Node.standIn] using hno

theorem mem_names_of_link (ds : List Target) (ls : List (String × String)) (a b : String) :
    b ∈ ds.map (·.name) ++ strangers ds (ls ++ [(a, b)]) := by
  rw [strangers_concat]
  split_ifs with h
  · exact h
  · simp

/-- the missing names of `a` get one more, or stay as they are -/
theorem adjust_missingOf (hb : isUnknown ds b = true) (hnew : (a, b) ∉ ls) :
    (missingOf ds ls).adjust a [] (· ++ [b]) = missingOf ds (ls ++ [(a, b)]) := by
  have hold : ((missingOf ds ls).value? a).getD [] = (linkedFrom ls a).filter (isUnknown ds) := by
    rw [missingOf, Entries.value?_map]
    split_ifs with ha
    · rfl
    · refine (List.filter_eq_nil_iff.2 fun c hc hunknown => ha ?_).symm
      exact mem_sources.2 ⟨c, mem_linkedFrom.1 hc, hunknown⟩
  have hkeys : sources (isUnknown ds) (ls ++ [(a, b)]) =
      if a ∈ sources (isUnknown ds) ls then sources (isUnknown ds) ls else sources (isUnknown ds) ls ++ [a] := by
    rw [sources_concat]
    by_cases ha : a ∈ sources (isUnknown ds) ls <;> simp [ha, hb]
  have hnd : (sources (isUnknown ds) ls).Nodup := nodup_eraseDups _
  rw [Entries.adjust, hold, missingOf, Entries.put_map hnd, missingOf, hkeys]
  apply List.map_congr_left
  intro k _
  rw [linkedFrom_concat]
  by_cases hk : k = a
  · subst hk
    simp [hnew, hb]
  · simp [hk]

/-- a link that is there already, or leads to a defined name, adds no missing name -/
theorem missingOf_concat_of_not (h : (a, b) ∈ ls ∨ isUnknown ds b = false) :
    missingOf ds (ls ++ [(a, b)]) = missingOf ds ls := by
  have hkeys : sources (isUnknown ds) (ls ++ [(a, b)]) = sources (isUnknown ds) ls := by
    rw [sources_concat, if_neg]
    rintro ⟨hb, ha⟩
    rcases h with hmem | hknown
    · exact ha (mem_sources.2 ⟨b, hmem, hb⟩)
    · rw [hknown] at hb
      cases hb
  rw [missingOf, missingOf, hkeys]
  apply List.map_congr_left
  intro k _
  rw [linkedFrom_concat]
  split_ifs with hk
  · rcases h with hmem | hknown
    · exact absurd hmem hk.2
    · simp [hknown]
  · rfl

/-- **One link keeps the closed form of the missing names.** -/
theorem link_missing (hls : ∀ e ∈ ls, e.1 ∈ ds.map (·.name)) (ha : a ∈ ds.map (·.name)) :
    (Wires.link ⟨wired ds ls, missingOf ds ls⟩ a b).missing = missingOf ds (ls ++ [(a, b)]) := by
  have hdeps : dependenciesIn (linkedNodes ds (strangers ds (ls ++ [(a, b)])) ls) a = linkedFrom ls a :=
    dependenciesIn_linkedNodes (List.mem_append_left _ ha)
  unfold Wires.link
  simp only [ensure_wired (a := a) hls, hdeps, any_placeholder_linkedNodes (mem_names_of_link ds ls a b)]
  by_cases hmem : (a, b) ∈ ls
  · rw [if_pos (by simpa using mem_linkedFrom.2 hmem), missingOf_concat_of_not (.inl hmem)]
  · rw [if_neg (by simpa using fun h => hmem (mem_linkedFrom.1 h))]
    cases hb : isUnknown ds b with
    | true => exact adjust_missingOf hb hmem
    | false => exact (missingOf_concat_of_not (.inr hb)).symm

theorem foldl_link_missing (new : List (String × String)) (w : Wires) (hw : w = ⟨wired ds ls, missingOf ds ls⟩)
    (hls : ∀ e ∈ ls ++ new, e.1 ∈ ds.map (·.name)) :
    (new.foldl (fun w e => w.link e.1 e.2) w).missing = missingOf ds (ls ++ new) := by
  induction new generalizing ls w with
  | nil => simp [hw]
  | cons e new ih =>
    have hold : ∀ x ∈ ls, x.1 ∈ ds.map (·.name) := fun x hx => hls x (List.mem_append_left _ hx)
    have hlink : w.link e.1 e.2 = ⟨wired ds (ls ++ [e]), missingOf ds (ls ++ [e])⟩ := by
      rw [hw, ← link_store hold (hls e (by simp)) (missingOf ds ls), ← link_missing hold (hls e (by simp))]
    rw [List.foldl_cons, ih _ hlink (by simpa using hls), List.append_assoc, List.singleton_append]

end Links

theorem ofTargets_missing (ts : List Target) :
    (Wires.ofTargets ts).missing = missingOf (definitions ts) (links ts) := by
  have hstart : ({ store := wired (definitions ts) [] } : Wires) =
      ⟨wired (definitions ts) [], missingOf (definitions ts) []⟩ := rfl
  rw [ofTargets_eq_foldl, foldl_link_missing _ _ hstart (by simpa using defined_of_mem_links), List.nil_append]

/-! ## Wired graphs -/

section OfTargets

variable (ts : List Target)

theorem store_ofTargets : (ofWires (.ofTargets ts)).store =
    linkedNodes (definitions ts) (strangers (definitions ts) (links ts)) (links ts) := ofTargets_store ts

/-- a wired node comes from a definition that counts, or stands in for a name that has none -/
theorem ofTargets_cases {n : Node} (hn : n ∈ (ofWires (.ofTargets ts)).store) :
    (∃ t ∈ definitions ts, t.name = n.name ∧ n = linkedNode (links ts) (.ofTarget t)) ∨
      n.name ∉ (definitions ts).map (·.name) ∧ n = linkedNode (links ts) (.standIn n.name) := by
  have hlookup : lookup (ofWires (.ofTargets ts)).store n.name = some n := lookup_of_mem (wired_ofTargets ts).nodup hn
  rw [store_ofTargets] at hlookup
  exact linkedNode_cases hlookup

theorem dependencies_of_mem {n : Node} (hn : n ∈ (ofWires (.ofTargets ts)).store) :
    n.dependencies = linkedFrom (links ts) n.name := by
  rcases ofTargets_cases ts hn with ⟨t, -, -, hfrom⟩ | ⟨-, hfrom⟩ <;> rw [hfrom] <;> rfl

theorem dependents_of_mem {n : Node} (hn : n ∈ (ofWires (.ofTargets ts)).store) :
    n.dependents = linkedTo (links ts) n.name := by
  rcases ofTargets_cases ts hn with ⟨t, -, -, hfrom⟩ | ⟨-, hfrom⟩ <;> rw [hfrom] <;> rfl

/-- the nodes that wait for one of these are the sources of the links to them -/
theorem names_filter_any (p : String → Bool) :
    ((ofWires (.ofTargets ts)).store.filter (·.dependencies.any p)).map (·.name) = sources p (links ts) := by
  have hdefined : (((definitions ts).map Node.ofTarget).map (linkedNode (links ts))).filter (·.dependencies.any p) =
      ((definitions ts).filter (·.dependencies.any p)).map fun t => linkedNode (links ts) (.ofTarget t) := by
    rw [List.map_map, List.filter_map]
    congr 1
    apply List.filter_congr
    intro t ht
    have hdeps : (linkedNode (links ts) (.ofTarget t)).dependencies = t.dependencies.eraseDups := linkedFrom_links ht
    rw [Function.comp, Function.comp, hdeps, Bool.eq_iff_iff]
    simp
  have hunknown : (((strangers (definitions ts) (links ts)).map Node.standIn).map (linkedNode (links ts))).filter
      (·.dependencies.any p) = [] := by
    apply List.filter_eq_nil_iff.2
    intro n hn
    simp only [List.mem_map] at hn
    obtain ⟨-, ⟨x, hx, rfl⟩, rfl⟩ := hn
    have hno : x ∉ (definitions ts).map (·.name) := by
      simpa using (List.mem_filter.1 (List.mem_eraseDups.1 hx)).2
    have hdeps : (linkedNode (links ts) (.standIn x)).dependencies = [] := linkedFrom_of_not_defined hno
    simp [hdeps]
  rw [store_ofTargets, linkedNodes, List.map_append, List.filter_append, hdefined, hunknown,
    List.append_nil, List.map_map, sources_links]
  rfl

theorem holdsPlace_ofTargets {b : String} (hb : b ∈ (ofWires (.ofTargets ts)).names) :
    (ofWires (.ofTargets ts)).holdsPlace b = isUnknown (definitions ts) b := by
  rw [holdsPlace, store_ofTargets]
  exact any_placeholder_linkedNodes (names_ofTargets ts ▸ hb)

theorem missing_ofTargets : (ofWires (.ofTargets ts)).missing =
    ((ofWires (.ofTargets ts)).store.filter (·.dependencies.any (ofWires (.ofTargets ts)).holdsPlace)).map
      fun n => (n.name, n.dependencies.filter (ofWires (.ofTargets ts)).holdsPlace) := by
  have hkind : ∀ n ∈ (ofWires (.ofTargets ts)).store, ∀ b ∈ n.dependencies,
      (ofWires (.ofTargets ts)).holdsPlace b = isUnknown (definitions ts) b := by
    intro n hn b hb
    rw [dependencies_of_mem ts hn, mem_linkedFrom, mem_links] at hb
    exact holdsPlace_ofTargets ts (mem_names_of_depends ts hb).2
  calc (ofWires (.ofTargets ts)).missing
      = (sources (isUnknown (definitions ts)) (links ts)).map
          fun a => (a, (linkedFrom (links ts) a).filter (isUnknown (definitions ts))) := ofTargets_missing ts
    _ = ((ofWires (.ofTargets ts)).store.filter (·.dependencies.any (isUnknown (definitions ts)))).map
          fun n => (n.name, (linkedFrom (links ts) n.name).filter (isUnknown (definitions ts))) := by
        rw [← names_filter_any, List.map_map]
        rfl
    _ = ((ofWires (.ofTargets ts)).store.filter (·.dependencies.any (ofWires (.ofTargets ts)).holdsPlace)).map
          fun n => (n.name, (linkedFrom (links ts) n.name).filter (isUnknown (definitions ts))) := by
        congr 1
        apply List.filter_congr
        intro n hn
        rw [Bool.eq_iff_iff, List.any_eq_true, List.any_eq_true]
        exact exists_congr fun b => and_congr_right fun hb => by rw [hkind n hn b hb]
    _ = ((ofWires (.ofTargets ts)).store.filter (·.dependencies.any (ofWires (.ofTargets ts)).holdsPlace)).map
          fun n => (n.name, n.dependencies.filter (ofWires (.ofTargets ts)).holdsPlace) := by
        apply List.map_congr_left
        intro n hn
        have hmem := (List.mem_filter.1 hn).1
        rw [← dependencies_of_mem ts hmem]
        exact congrArg _ (List.filter_congr fun b hb => (hkind n hmem b hb).symm)

theorem faithful_ofTargets : Faithful ts (ofWires (.ofTargets ts)) := by
  have hwired := wired_ofTargets ts
  refine ⟨?_, hwired.nodup, ?_, ?_, ?_, ?_, ?_, ?_⟩
  · rw [names_ofTargets, names_definitions, unknownNames_eq]
    rfl
  · rw [hwired.nodes_eq, hwired.names_eq]
  · rw [hwired.nodes_eq]
    intro n hn t ht
    rcases ofTargets_cases ts hn with ⟨u, hu, hname, hfrom⟩ | ⟨hno, -⟩
    · rw [← hname, lastDefinition_of_mem hu, Option.some.injEq] at ht
      rw [hfrom, ← ht]
      exact ⟨rfl, rfl, linkedFrom_links hu⟩
    · exact absurd (isSome_lastDefinition.1 (by rw [ht]; rfl)) hno
  · rw [hwired.nodes_eq]
    intro n hn hnone
    rcases ofTargets_cases ts hn with ⟨u, hu, hname, -⟩ | ⟨hno, hfrom⟩
    · rw [← hname, lastDefinition_of_mem hu] at hnone
      cases hnone
    · have hdeps := dependencies_of_mem ts hn
      rw [linkedFrom_of_not_defined hno] at hdeps
      exact ⟨by rw [hfrom]; rfl, by rw [hfrom]; rfl, hdeps⟩
  · rw [hwired.nodes_eq]
    intro n hn
    rw [dependents_of_mem ts hn, linkedTo_eq_sources, ← names_filter_any]
    simp only [List.any_beq']
  · rw [hwired.nodes_eq]
    exact missing_ofTargets ts
  · rw [hwired.nodes_eq]
    rfl

end OfTargets

/-! ## Built graphs -/

/-- other marks on the nodes leave the graph faithful -/
theorem Faithful.remarks {ts : List Target} {g g' : Graph} (h : Faithful ts g) (hr : Remarks g g') (hw : Wired g)
    (hmissing : g'.missing = g.missing) (hroots : g'.roots = g.roots) : Faithful ts g' := by
  obtain ⟨f, hf, hs, hn⟩ := id hr
  have hnodes : g'.nodes = g.nodes.map f := by
    rw [(hr.wired hw).nodes_eq, hs, hw.nodes_eq]
  have hplace : g'.holdsPlace = g.holdsPlace := by
    funext b
    rw [holdsPlace, holdsPlace, hs, lookup_map hf.name, Option.any_map]
    simp only [hf.kind]
  refine ⟨hn ▸ h.names, hn ▸ h.nodup, ?_, ?_, ?_, ?_, ?_, ?_⟩
  · rw [hnodes, hn, ← h.named, List.map_map]
    exact List.map_congr_left fun n _ => hf.name n
  · rw [hnodes]
    intro n' hn' t ht
    obtain ⟨n, hmem, rfl⟩ := List.mem_map.1 hn'
    rw [hf.name] at ht
    rw [hf.kind, hf.description, hf.dependencies]
    exact h.real n hmem t ht
  · rw [hnodes]
    intro n' hn' hnone
    obtain ⟨n, hmem, rfl⟩ := List.mem_map.1 hn'
    rw [hf.name] at hnone
    rw [hf.kind, hf.description, hf.dependencies]
    exact h.standIn n hmem hnone
  · rw [hnodes]
    intro n' hn'
    obtain ⟨n, hmem, rfl⟩ := List.mem_map.1 hn'
    rw [hf.dependents, hf.name, h.dependents n hmem, List.filter_map, List.map_map]
    simp only [Function.comp_def, hf.name, hf.dependencies]
  · rw [hmissing, h.missing, hnodes, hplace, List.filter_map, List.map_map]
    simp only [Function.comp_def, hf.name, hf.dependencies]
  · rw [hroots, h.roots, hnodes, List.filter_map, List.map_map]
    simp only [Function.comp_def, hf.name, hf.dependents]

theorem missing_build (ts : List Target) : (build ts).missing = (ofWires (.ofTargets ts)).missing := by
  unfold build
  simp only
  split <;> rfl

theorem roots_build (ts : List Target) : (build ts).roots = (ofWires (.ofTargets ts)).roots := by
  unfold build
  simp only
  split <;> rfl

theorem Faithful.build (ts : List Target) : Faithful ts (Graph.build ts) :=
  (faithful_ofTargets ts).remarks (remarks_build ts) (wired_ofTargets ts) (missing_build ts) (roots_build ts)

/-- there is one node for each name, the defined names first -/
theorem map_name_build (ts : List Target) : (build ts).nodes.map (·.name) = definedNames ts ++ unknownNames ts := by
  exact (Faithful.build ts).named.trans (Faithful.build ts).names

/-- **A built graph is what its targets say.** -/
theorem faithful_build (ts : List Target) : Faithful ts (build ts) := Faithful.build ts

/-! ## Missing names, node by node -/

/-- each node of the graph that waits for stand-ins has an entry of missing names, with just these, in order, and there
is no other entry -/
def ListsMissing (g : Graph) : Prop := ∀ a missing, g.missing.value? a = some missing ↔
  ∃ n, g.node? a = some n ∧ missing = n.dependencies.filter g.holdsPlace ∧ missing ≠ []

theorem filter_holdsPlace_ne_nil_iff {g : Graph} {n : Node} :
    n.dependencies.filter g.holdsPlace ≠ [] ↔ ∃ b ∈ n.dependencies, g.holdsPlace b = true := by
  simp [List.filter_eq_nil_iff]

theorem Faithful.listsMissing {ts : List Target} {g : Graph} (h : Faithful ts g) : ListsMissing g := by
  have hkeys : g.missing.keys.Nodup := by
    have hsub : g.missing.keys.Sublist (g.nodes.map (·.name)) := by
      rw [h.missing, Entries.keys, List.map_map]
      exact List.filter_sublist.map _
    exact hsub.nodup (h.named ▸ h.nodup)
  have hmem : ∀ a missing, (a, missing) ∈ g.missing ↔
      ∃ n, g.node? a = some n ∧ missing = n.dependencies.filter g.holdsPlace ∧ missing ≠ [] := by
    intro a missing
    rw [h.missing, List.mem_map]
    constructor
    · intro hsome
      obtain ⟨n, hn, hentry⟩ := hsome
      rw [List.mem_filter, List.any_eq_true] at hn
      obtain ⟨rfl, rfl⟩ := Prod.mk.inj hentry
      exact ⟨n, node?_eq_some_iff.2 ⟨hn.1, rfl⟩, rfl, filter_holdsPlace_ne_nil_iff.2 hn.2⟩
    · intro hsome
      obtain ⟨n, hn, rfl, hne⟩ := hsome
      obtain ⟨hnode, rfl⟩ := node?_eq_some_iff.1 hn
      exact ⟨n, List.mem_filter.2 ⟨hnode, List.any_eq_true.2 (filter_holdsPlace_ne_nil_iff.1 hne)⟩, rfl⟩
  intro a missing
  rw [← hmem]
  exact ⟨Entries.mem_of_value?, Entries.value?_of_mem hkeys⟩

/-- a built graph lists what its nodes miss -/
theorem listsMissing_build (ts : List Target) : ListsMissing (build ts) := (Faithful.build ts).listsMissing

end MakeAtlas.Graph
