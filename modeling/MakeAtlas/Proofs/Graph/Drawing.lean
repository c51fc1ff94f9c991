/-
What a drawing shows. Drawing goes through a list of tasks with a set of names that are drawn already; `Draws` says what
that gives, without fuel, and every fact below is an induction over it.
- `draws_drawTasks`, `draws_drawing`: the fuel is enough, and a whole drawing draws the roots one after the other.
- `Draws.perm_names`: there is one entry for each task, and one for each edge from a name that is drawn in full.
- `Draws.drawn_eq`, `Draws.nodup`, `Draws.covers`, `Draws.closed`: the names in full are new, each is drawn once, and
  with it all that it waits for.
- `Draws.earlier`: a reference comes after its name was drawn in full.
- `shows_drawing`: so a part of a graph without a loop is shown whole, and nothing else.
Witness: `crossing`, two roots with a diamond between them, drawn whole and from one side to a depth of 1.
-/
import MakeAtlas.Graph.Tree
import MakeAtlas.Proofs.Graph.Parts

namespace MakeAtlas.Graph

open Relation
open Makefile (Target)

/-! ## Drawing without fuel -/

/-- the tasks are drawn in order, given what is drawn before and what is drawn after -/
inductive Draws (g : Graph) : List String → List Task → List Entry → List String → Prop where
  | done (drawn : List String) : Draws g drawn [] [] drawn
  | again {drawn drawn' : List String} {place : Place} {name : String} {tasks : List Task} {es : List Entry}
      (hold : name ∈ drawn) (rest : Draws g drawn tasks es drawn') :
      Draws g drawn ((place, name) :: tasks) (.reference place name :: es) drawn'
  | first {drawn drawn' : List String} {place : Place} {name : String} {tasks : List Task} {es : List Entry}
      (hnew : name ∉ drawn) (rest : Draws g (name :: drawn) (childTasks g place name ++ tasks) es drawn') :
      Draws g drawn ((place, name) :: tasks) (.full place name :: es) drawn'

theorem names_childTasks (g : Graph) (place : Place) (name : String) :
    (childTasks g place name).map (·.2) = g.children name := by
  rw [childTasks, List.map_map]
  exact List.zipIdx_map_fst 0 _

/-- children are names of the graph -/
theorem mem_names_childTasks {g : Graph} {place : Place} {name : String} {tasks : List Task}
    (htasks : ∀ t ∈ tasks, t.2 ∈ g.names) :
    ∀ t ∈ childTasks g place name ++ tasks, t.2 ∈ g.names := by
  intro t ht
  rcases List.mem_append.1 ht with ht | ht
  · have hchild : t.2 ∈ g.children name := names_childTasks g place name ▸ List.mem_map_of_mem ht
    exact (mem_children.1 hchild).2
  · exact htasks t ht

/-- how many tasks are still to come from names that are not drawn -/
def pending (g : Graph) (drawn : List String) : ℕ :=
  (g.names.map fun a => if a ∈ drawn then 0 else (g.children a).length).sum

theorem pending_cons {g : Graph} (hnd : g.names.Nodup) {drawn : List String} {name : String} (hname : name ∈ g.names)
    (hnew : name ∉ drawn) : pending g drawn = (g.children name).length + pending g (name :: drawn) := by
  obtain ⟨before, after, hsplit⟩ := List.append_of_mem hname
  rw [hsplit, List.nodup_middle, List.nodup_cons, List.mem_append, not_or] at hnd
  have hother : ∀ l : List String, name ∉ l → (l.map fun a => if a ∈ drawn then 0 else (g.children a).length) =
      l.map fun a => if a ∈ name :: drawn then 0 else (g.children a).length := by
    intro l hl
    apply List.map_congr_left
    intro a ha
    have hne : a ≠ name := fun h => hl (h ▸ ha)
    simp [hne]
  rw [pending, pending, hsplit, List.map_append, List.map_cons, List.map_append, List.map_cons, hother before hnd.1.1,
    hother after hnd.1.2, if_neg hnew, if_pos List.mem_cons_self]
  simp only [List.sum_append, List.sum_cons]
  omega

/-- **Fuel is enough.** One unit for each task, at hand or still to come, draws them all. -/
theorem draws_drawTasks {g : Graph} (hnd : g.names.Nodup) {fuel : ℕ} {drawn : List String} {tasks : List Task}
    (htasks : ∀ t ∈ tasks, t.2 ∈ g.names) (hfuel : tasks.length + pending g drawn ≤ fuel) :
    Draws g drawn tasks (drawTasks g fuel drawn tasks).1 (drawTasks g fuel drawn tasks).2 := by
  induction fuel generalizing drawn tasks with
  | zero =>
    obtain rfl : tasks = [] := List.eq_nil_of_length_eq_zero (by omega)
    exact .done drawn
  | succ fuel ih =>
    match tasks with
    | [] => exact .done drawn
    | (place, name) :: tasks =>
      rw [List.length_cons] at hfuel
      have hrest : ∀ t ∈ tasks, t.2 ∈ g.names := fun t ht => htasks t (List.mem_cons_of_mem _ ht)
      rw [drawTasks]
      split
      next hold => exact .again (List.contains_iff_mem.1 hold) (ih hrest (by omega))
      next hnew =>
        have hnew : name ∉ drawn := fun h => hnew (List.contains_iff_mem.2 h)
        have hname : name ∈ g.names := htasks _ List.mem_cons_self
        have hlen : (childTasks g place name).length = (g.children name).length := by
          rw [← names_childTasks g place name, List.length_map]
        have hpending := pending_cons hnd hname hnew
        refine .first hnew (ih (mem_names_childTasks hrest) ?_)
        rw [List.length_append]
        omega

/-! ## What is drawn -/

def Entry.name? : Entry → Option String
  | gap => none
  | full _ name => some name
  | reference _ name => some name

def Entry.full? : Entry → Option String
  | full _ name => some name
  | _ => none

def Entry.reference? : Entry → Option String
  | reference _ name => some name
  | _ => none

section Facts

variable {g : Graph} {drawn drawn' : List String} {tasks : List Task} {es : List Entry}

theorem Draws.drawn_eq (h : Draws g drawn tasks es drawn') : drawn' = (es.filterMap Entry.full?).reverse ++ drawn := by
  induction h with
  | done => rfl
  | again _ _ ih => exact ih
  | first _ _ ih => simp [ih, Entry.full?]

theorem Draws.nodup (h : Draws g drawn tasks es drawn') (hnd : drawn.Nodup) : drawn'.Nodup := by
  induction h with
  | done => exact hnd
  | again _ _ ih => exact ih hnd
  | first hnew _ ih => exact ih (List.nodup_cons.2 ⟨hnew, hnd⟩)

theorem Draws.mem_of_mem (h : Draws g drawn tasks es drawn') {a : String} (ha : a ∈ drawn) : a ∈ drawn' := by
  rw [h.drawn_eq]
  exact List.mem_append_right _ ha

/-- every task is drawn -/
theorem Draws.covers (h : Draws g drawn tasks es drawn') : ∀ t ∈ tasks, t.2 ∈ drawn' := by
  induction h with
  | done =>
    intro t ht
    cases ht
  | again hold rest ih =>
    intro t ht
    rcases List.mem_cons.1 ht with rfl | ht
    · exact rest.mem_of_mem hold
    · exact ih t ht
  | first _ rest ih =>
    intro t ht
    rcases List.mem_cons.1 ht with rfl | ht
    · exact rest.mem_of_mem List.mem_cons_self
    · exact ih t (List.mem_append_right _ ht)

/-- with a name in full, its children are drawn -/
theorem Draws.closed (h : Draws g drawn tasks es drawn') :
    ∀ a ∈ es.filterMap Entry.full?, ∀ b ∈ g.children a, b ∈ drawn' := by
  induction h with
  | done =>
    intro a ha
    cases ha
  | again _ _ ih => exact ih
  | @first _ _ place name _ _ _ rest ih =>
    intro a ha b hb
    rcases List.mem_cons.1 ha with rfl | ha
    · rw [← names_childTasks g place a] at hb
      obtain ⟨t, ht, rfl⟩ := List.mem_map.1 hb
      exact rest.covers t (List.mem_append_left _ ht)
    · exact ih a ha b hb

/-- only names of the graph are drawn -/
theorem Draws.mem_names (h : Draws g drawn tasks es drawn') (htasks : ∀ t ∈ tasks, t.2 ∈ g.names) :
    ∀ a ∈ es.filterMap Entry.full?, a ∈ g.names := by
  induction h with
  | done =>
    intro a ha
    cases ha
  | again _ _ ih => exact ih fun t ht => htasks t (List.mem_cons_of_mem _ ht)
  | first _ _ ih =>
    intro a ha
    rcases List.mem_cons.1 ha with rfl | ha
    · exact htasks _ List.mem_cons_self
    · exact ih (mem_names_childTasks fun t ht => htasks t (List.mem_cons_of_mem _ ht)) a ha

/-- **Entries.** There is one for each task, and one for each child of a name in full. -/
theorem Draws.perm_names (h : Draws g drawn tasks es drawn') :
    (es.filterMap Entry.name?).Perm (tasks.map (·.2) ++ (es.filterMap Entry.full?).flatMap g.children) := by
  induction h with
  | done => exact .refl _
  | again _ _ ih => exact ih.cons _
  | @first _ _ place name tasks es _ _ ih =>
    rw [List.map_append, names_childTasks] at ih
    have hswap : (g.children name ++ tasks.map (·.2) ++ (es.filterMap Entry.full?).flatMap g.children).Perm
        (tasks.map (·.2) ++ (g.children name ++ (es.filterMap Entry.full?).flatMap g.children)) := by
      rw [List.append_assoc]
      exact List.perm_append_comm_assoc _ _ _
    exact (ih.trans hswap).cons name

/-- **References look back.** The name of a reference was drawn before, or in full above it. -/
theorem Draws.earlier (h : Draws g drawn tasks es drawn') {above below : List Entry} {place : Place} {name : String}
    (hes : es = above ++ .reference place name :: below) : name ∈ drawn ∨ name ∈ above.filterMap Entry.full? := by
  induction h generalizing above with
  | done => simp at hes
  | again hold _ ih =>
    cases above with
    | nil =>
      cases hes
      exact .inl hold
    | cons e above =>
      rw [List.cons_append, List.cons.injEq] at hes
      rcases ih hes.2 with hdrawn | habove
      · exact .inl hdrawn
      · refine .inr ?_
        rw [← hes.1]
        exact habove
  | first _ _ ih =>
    cases above with
    | nil => cases hes
    | cons e above =>
      rw [List.cons_append, List.cons.injEq] at hes
      rw [← hes.1]
      rcases ih hes.2 with hdrawn | habove
      · rcases List.mem_cons.1 hdrawn with rfl | hdrawn
        · exact .inr List.mem_cons_self
        · exact .inl hdrawn
      · exact .inr (List.mem_cons_of_mem _ habove)

theorem Draws.not_mem_gap (h : Draws g drawn tasks es drawn') : .gap ∉ es := by
  induction h with
  | done => simp
  | again _ _ ih => simpa using ih
  | first _ _ ih => simpa using ih

theorem Draws.filter_gap (h : Draws g drawn tasks es drawn') : es.filter (· != .gap) = es := by
  apply List.filter_eq_self.2
  intro e he
  simpa using fun hgap : e = .gap => h.not_mem_gap (hgap ▸ he)

theorem Draws.append {drawn'' : List String} {tasks' : List Task} {es' : List Entry} (h : Draws g drawn tasks es drawn')
    (h' : Draws g drawn' tasks' es' drawn'') : Draws g drawn (tasks ++ tasks') (es ++ es') drawn'' := by
  induction h with
  | done => exact h'
  | again hold _ ih => exact .again hold (ih h')
  | first hnew _ ih =>
    have hrest := ih h'
    rw [List.append_assoc] at hrest
    exact .first hnew hrest

end Facts

/-! ## Whole drawings -/

theorem pending_le_pending_nil (g : Graph) (drawn : List String) : pending g drawn ≤ pending g [] := by
  apply List.sum_le_sum
  intro a _
  rw [if_neg List.not_mem_nil]
  split_ifs
  · exact Nat.zero_le _
  · exact le_rfl

theorem foldl_lookup_dependencies (store : List Node) (names : List String) (start : ℕ) :
    (names.filterMap (lookup store)).foldl (fun n node => n + node.dependencies.length) start =
      start + (names.map fun a => (dependenciesIn store a).length).sum := by
  induction names generalizing start with
  | nil => rfl
  | cons a names ih =>
    rw [List.filterMap_cons, List.map_cons, List.sum_cons, dependenciesIn]
    cases lookup store a with
    | none => simp [ih]
    | some n => simp [ih, Nat.add_assoc]

theorem pending_lt_drawFuel (g : Graph) (drawn : List String) : 1 + pending g drawn ≤ drawFuel g := by
  have hchildren : pending g [] ≤ (g.names.map fun a => (dependenciesIn g.store a).length).sum := by
    apply List.sum_le_sum
    intro a _
    rw [if_neg List.not_mem_nil]
    exact List.length_filter_le _ _
  have := pending_le_pending_nil g drawn
  rw [drawFuel, nodes, foldl_lookup_dependencies]
  omega

def rootTasks (roots : List String) : List Task := roots.map fun r => ({}, r)

/-- one root is drawn, whatever is drawn already -/
theorem draws_root {g : Graph} (hnd : g.names.Nodup) {r : String} (hr : r ∈ g.names) (drawn : List String) :
    Draws g drawn [({}, r)] (drawTasks g (drawFuel g) drawn [({}, r)]).1
      (drawTasks g (drawFuel g) drawn [({}, r)]).2 := by
  apply draws_drawTasks hnd
  · intro t ht
    rw [List.mem_singleton.1 ht]
    exact hr
  · exact pending_lt_drawFuel g drawn

/-- the roots are drawn in order, with a gap between any two -/
theorem draws_drawRoots {g : Graph} (hnd : g.names.Nodup) {roots : List String} (hroots : ∀ r ∈ roots, r ∈ g.names)
    (drawn : List String) :
    (∃ drawn', Draws g drawn (rootTasks roots) ((drawRoots g drawn roots).filter (· != .gap)) drawn') ∧
      (drawRoots g drawn roots).count .gap = roots.length - 1 := by
  induction roots generalizing drawn with
  | nil => exact ⟨⟨drawn, .done drawn⟩, rfl⟩
  | cons r roots ih =>
    have htree := draws_root hnd (hroots r List.mem_cons_self) drawn
    have hnone : (drawTasks g (drawFuel g) drawn [({}, r)]).1.count .gap = 0 := List.count_eq_zero.2 htree.not_mem_gap
    obtain ⟨⟨drawn', hrest⟩, hgaps⟩ :=
      ih (fun r' hr' => hroots r' (List.mem_cons_of_mem _ hr')) (drawTasks g (drawFuel g) drawn [({}, r)]).2
    rw [drawRoots]
    cases roots with
    | nil =>
      simp only [List.isEmpty_nil, if_true, List.append_nil]
      exact ⟨⟨_, htree.filter_gap.symm ▸ htree⟩, hnone⟩
    | cons r' roots =>
      simp only [List.isEmpty_cons, Bool.false_eq_true, if_false, List.filter_append, htree.filter_gap,
        List.count_append, hnone]
      refine ⟨⟨drawn', ?_⟩, ?_⟩
      · rw [List.filter_cons_of_neg (by simp)]
        exact htree.append hrest
      · simp only [List.length_cons] at hgaps ⊢
        rw [List.count_cons_self, hgaps]
        omega

/-- the edges with both ends in the graph, in order -/
def insideEdges (g : Graph) : List (String × String) := g.names.flatMap fun a => (g.children a).map (a, ·)

/-- the entries show the graph, and nothing else -/
structure Shows (g : Graph) (es : List Entry) : Prop where
  /-- every name of the graph is drawn in full once -/
  once : (es.filterMap Entry.full?).Perm g.names
  /-- no other name is met -/
  inside : ∀ e ∈ es, ∀ a ∈ e.name?, a ∈ g.names
  /-- every root is met once, and every edge inside the graph -/
  met : (es.filterMap Entry.name?).Perm (g.roots ++ g.insideEdges.map (·.2))
  /-- all but one of these entries are references -/
  references : ∀ a ∈ g.names, (es.filterMap Entry.reference?).count a + 1 = (g.roots ++ g.insideEdges.map (·.2)).count a
  /-- a reference comes after its name in full -/
  after : ∀ above place name below, es = above ++ .reference place name :: below → name ∈ above.filterMap Entry.full?
  length : (es.filter (· != .gap)).length = g.roots.length + g.insideEdges.length
  gaps : es.count .gap = g.roots.length - 1

section Entries

variable (es : List Entry)

theorem filterMap_filter_gap {f : Entry → Option String} (hf : f .gap = none) :
    (es.filter (· != .gap)).filterMap f = es.filterMap f := by
  rw [List.filterMap_filter]
  apply List.filterMap_congr
  intro e _
  cases e with
  | gap => exact hf.symm
  | full => rfl
  | reference => rfl

theorem length_filterMap_name? : (es.filterMap Entry.name?).length = (es.filter (· != .gap)).length := by
  induction es with
  | nil => rfl
  | cons e es ih =>
    cases e with
    | gap => exact ih
    | full => exact congrArg (· + 1) ih
    | reference => exact congrArg (· + 1) ih

theorem perm_full_reference :
    (es.filterMap Entry.name?).Perm (es.filterMap Entry.full? ++ es.filterMap Entry.reference?) := by
  induction es with
  | nil => exact .refl _
  | cons e es ih =>
    cases e with
    | gap => exact ih
    | full place name => exact ih.cons name
    | reference place name => exact (ih.cons name).trans List.perm_middle.symm

end Entries

theorem map_snd_insideEdges (g : Graph) : g.insideEdges.map (·.2) = g.names.flatMap g.children := by
  simp [insideEdges, List.map_flatMap, Function.comp_def]

theorem draws_drawing {g : Graph} (h : Rooted g) :
    ∃ drawn, Draws g [] (rootTasks g.roots) ((drawing g).filter (· != .gap)) drawn :=
  (draws_drawRoots h.nodup h.roots_subset []).1

/-- every name is drawn in full once -/
theorem perm_full_drawing {g : Graph} (h : Rooted g) : ((drawing g).filterMap Entry.full?).Perm g.names := by
  obtain ⟨drawn, hd⟩ := draws_drawing h
  have hfull := filterMap_filter_gap (drawing g) (f := Entry.full?) rfl
  have hdrawn : ∀ a, a ∈ drawn ↔ a ∈ (drawing g).filterMap Entry.full? := by
    intro a
    rw [hd.drawn_eq, hfull, List.append_nil, List.mem_reverse]
  have hnd : ((drawing g).filterMap Entry.full?).Nodup := by
    have := hd.nodup List.nodup_nil
    rwa [hd.drawn_eq, hfull, List.append_nil, List.nodup_reverse] at this
  have hroots : ∀ t ∈ rootTasks g.roots, t.2 ∈ g.names := by
    intro t ht
    obtain ⟨r, hr, rfl⟩ := List.mem_map.1 ht
    exact h.roots_subset r hr
  refine (List.perm_ext_iff_of_nodup hnd h.nodup).2 fun a => ⟨fun ha => ?_, fun ha => ?_⟩
  · exact hd.mem_names hroots a (hfull ▸ ha)
  · -- from its root down, what is drawn in full is drawn with its children
    obtain ⟨r, hr, hpath⟩ := h.below a ha
    rw [← hdrawn]
    induction hpath with
    | refl => exact hd.covers _ (List.mem_map_of_mem hr)
    | @tail b c _ hedge ih =>
      have hb : b ∈ drawn := ih hedge.1.1
      rw [hdrawn, ← hfull] at hb
      exact hd.closed b hb c (inside_iff.1 hedge).2

/-- **A part without a loop is shown whole.** -/
theorem shows_of_rooted {g : Graph} (h : Rooted g) : Shows g (drawing g) := by
  obtain ⟨drawn, hd⟩ := draws_drawing h
  have honce := perm_full_drawing h
  have hmet : ((drawing g).filterMap Entry.name?).Perm (g.roots ++ g.insideEdges.map (·.2)) := by
    have hperm := hd.perm_names
    rw [filterMap_filter_gap _ rfl, filterMap_filter_gap _ rfl, rootTasks, List.map_map] at hperm
    rw [map_snd_insideEdges]
    exact hperm.trans (.append (.of_eq (List.map_id _)) (honce.flatMap_right _))
  refine ⟨honce, ?_, hmet, ?_, ?_, ?_, ?_⟩
  · intro e he a ha
    have hmem := hmet.mem_iff.1 (List.mem_filterMap.2 ⟨e, he, ha⟩)
    rw [map_snd_insideEdges, List.mem_append, List.mem_flatMap] at hmem
    rcases hmem with hroot | ⟨b, -, hchild⟩
    · exact h.roots_subset a hroot
    · exact (mem_children.1 hchild).2
  · intro a ha
    have hfull : ((drawing g).filterMap Entry.full?).count a = 1 := by
      rw [honce.count_eq]
      exact List.count_eq_one_of_mem h.nodup ha
    rw [← hmet.count_eq, (perm_full_reference (drawing g)).count_eq, List.count_append, hfull]
    omega
  · intro above place name below hsplit
    have hentries : (drawing g).filter (· != .gap) =
        above.filter (· != .gap) ++ .reference place name :: below.filter (· != .gap) := by
      rw [hsplit, List.filter_append, List.filter_cons_of_pos (by rfl)]
    rcases hd.earlier hentries with hnone | habove
    · cases hnone
    · rwa [filterMap_filter_gap _ rfl] at habove
  · rw [← length_filterMap_name?, hmet.length_eq, List.length_append, List.length_map]
  · exact (draws_drawRoots h.nodup h.roots_subset []).2

/-- **The text of a part without a loop shows the part whole.** It has a line for each entry of a drawing with one entry
in full for each name, a reference for every further meeting, below it, and one gap between any two roots. -/
theorem shows_drawing {ts : List Target} {g : Graph} (hg : PartOf ts g) (hac : ¬ Cyclic (Depends ts))
    (hne : g.names ≠ []) (m : Marks) :
    g.render m = "\n".intercalate (g.drawing.map (Entry.text g m)) ++ "\n" ∧ Shows g g.drawing := by
  refine ⟨?_, shows_of_rooted (hg.rooted hac)⟩
  rw [render, hg.cycle hac, if_neg (by simpa using hne)]

/-- two roots that share a name, with a diamond and a shortcut below it -/
def crossing : List Target :=
  [{ name := "all", dependencies := ["build", "test"] }, { name := "build", dependencies := ["deps"] },
    { name := "test", dependencies := ["deps", "build"] }, { name := "lint", dependencies := ["test", "linter"] }]

theorem not_cyclic_crossing : ¬ Cyclic (Depends crossing) :=
  not_cyclic_of_rank (["linter", "deps", "build", "test", "lint", "all"].idxOf ·) (by decide)

theorem has_crossing : (build crossing).has "lint" = true := has_build (by decide)

/-- all of it, and what is next to one name -/
theorem shows_drawing_crossing :
    (PartOf crossing (build crossing) ∧ (build crossing).names ≠ [] ∧ Shows (build crossing) (build crossing).drawing) ∧
      PartOf crossing ((build crossing).focus "lint" 1) ∧ ((build crossing).focus "lint" 1).names ≠ [] ∧
      ¬ Cyclic (Depends crossing) ∧ Shows ((build crossing).focus "lint" 1)
        ((build crossing).focus "lint" 1).drawing := by
  have hwhole : PartOf crossing (build crossing) := ⟨[], rfl⟩
  have hpart : PartOf crossing ((build crossing).focus "lint" 1) := ⟨[("lint", 1)], rfl⟩
  have hne : (build crossing).names ≠ [] := List.ne_nil_of_mem (List.contains_iff_mem.1 has_crossing)
  have hne' : ((build crossing).focus "lint" 1).names ≠ [] := List.ne_nil_of_mem (mem_names_focus has_crossing 1)
  exact ⟨⟨hwhole, hne, (shows_drawing hwhole not_cyclic_crossing hne {}).2⟩, hpart, hne', not_cyclic_crossing,
    (shows_drawing hpart not_cyclic_crossing hne' {}).2⟩

end MakeAtlas.Graph
