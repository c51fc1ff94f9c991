/-
Drawing by recursion. A name is printed, then what it waits for inside the graph, each with what it waits for in turn; a
name that was printed before is printed as a reference, whichever root it was met below. The drawing itself goes along
one list of tasks instead, where a name may stand several times before it is drawn.
- `outline`, `outlineText`: the recursion. Its end is ensured by the names that are not printed yet.
- `Draws.unique`: what a list of tasks draws is determined.
- `draws_outline`: the tasks of siblings draw, line for line, what the recursion prints, and leave the same names drawn.
- `lines_drawRoots`, `render_eq_outlineText`: so the text of a part without a loop is what the recursion prints from its
  roots.
- `render_ne_outlineText`: the text of any other part is not.
Witness: `render_eq_outlineText_crossing`. Counterexample `not_always_outlineText`: nothing to draw, and a part of a
graph with a loop.
-/
import MakeAtlas.Proofs.Graph.Refocus
import MakeAtlas.Proofs.Graph.Reordering

namespace MakeAtlas.Graph

open Makefile (Target)

/-! ## The recursion -/

abbrev Owned (g : Graph) : Type := {name : String // name ∈ g.names}

def owned (g : Graph) (names : List String) : List g.Owned :=
  names.filterMap fun name => if h : name ∈ g.names then some ⟨name, h⟩ else none

/-- the lines printed after some names were, and all names that are printed then -/
structure Outline (before : List String) where
  lines : List String := []
  printed : List String := before
  /-- no name is forgotten -/
  grows : ∀ a ∈ before, a ∈ printed

/-- a name as it stands on the line where it is printed in full -/
def fullText (g : Graph) (m : Marks) (name : String) : String := ((lookup g.store name).map (label m)).getD name

/-- what stands on a line in front of its name -/
def branch (last : Bool) : String := if last then "└── " else "├── "

/-- what stands below a line in front of the lines of its children -/
def cell (last : Bool) : String := if last then "    " else "│   "

/-- one line more in front -/
def Outline.behind {printed : List String} (line : String) (rest : Outline printed) : Outline printed :=
  { rest with lines := line :: rest.lines }

def Outline.full {printed : List String} {name : String} (line : String) (below : Outline (name :: printed))
    (rest : Outline below.printed) : Outline printed where
  lines := line :: (below.lines ++ rest.lines)
  printed := rest.printed
  grows a ha := rest.grows a (below.grows a (List.mem_cons_of_mem _ ha))

/-- siblings, each with all below it, after the names in `printed`; `indent` stands left of each -/
def outline (g : Graph) (m : Marks) (printed : List String) (indent : String) : List g.Owned → Outline printed
  | [] => { grows := fun _ h => h }
  | name :: names =>
    if _hold : name.1 ∈ printed then
      .behind (indent ++ branch names.isEmpty ++ name.1 ++ " (see above)") (outline g m printed indent names)
    else
      let below := outline g m (name.1 :: printed) (indent ++ cell names.isEmpty) (g.owned (g.dependencies name.1))
      .full (indent ++ branch names.isEmpty ++ g.fullText m name.1) below (outline g m below.printed indent names)
termination_by names => (unseen printed g.names, names.length)
decreasing_by
  · exact Prod.Lex.right _ (Nat.lt_succ_self _)
  · exact Prod.Lex.left _ _ (unseen_lt name.2 _hold List.mem_cons_self fun a ha => List.mem_cons_of_mem _ ha)
  · have hle := unseen_le (fun a ha => below.grows a (List.mem_cons_of_mem _ ha)) g.names
    rcases Nat.lt_or_eq_of_le hle with hlt | heq
    · exact Prod.Lex.left _ _ hlt
    · rw [heq]
      exact Prod.Lex.right _ (Nat.lt_succ_self _)

/-- the roots one after the other, with an empty line between any two -/
def outlineRoots (g : Graph) (m : Marks) : List String → List g.Owned → List String
  | _, [] => []
  | printed, root :: roots =>
    let tree := outline g m printed "" [root]
    tree.lines ++ if roots.isEmpty then [] else "" :: outlineRoots g m tree.printed roots

/-- what the recursion prints from the roots -/
def outlineText (g : Graph) (m : Marks) : String := "\n".intercalate (outlineRoots g m [] (g.owned g.roots)) ++ "\n"

/-! ## Tasks of siblings -/

/-- what stands left of a line below these ancestors, each a last child or not -/
def indentBelow (above : List Bool) : String := String.join (above.map cell)

theorem indentBelow_concat (above : List Bool) (last : Bool) :
    indentBelow (above ++ [last]) = indentBelow above ++ cell last := by
  simp [indentBelow, String.join_append]

theorem text_place (above : List Bool) (last : Bool) :
    Place.text ⟨above, last⟩ = indentBelow above ++ branch last := rfl

def siblingTasks (above : List Bool) : List String → List Task
  | [] => []
  | name :: names => (⟨above, names.isEmpty⟩, name) :: siblingTasks above names

theorem zipIdx_eq_siblingTasks (above : List Bool) (names : List String) {k n : ℕ} (hn : k + names.length = n) :
    (names.zipIdx k).map (fun (name, i) => (⟨above, i + 1 == n⟩, name)) = siblingTasks above names := by
  induction names generalizing k with
  | nil => rfl
  | cons name names ih =>
    rw [List.length_cons] at hn
    have hlast : (k + 1 == n) = names.isEmpty := by
      rw [Bool.eq_iff_iff, beq_iff_eq, List.isEmpty_iff, ← List.length_eq_zero_iff]
      omega
    rw [List.zipIdx_cons, List.map_cons, ih (by omega), siblingTasks, ← hlast]

theorem childTasks_eq (g : Graph) (place : Place) (name : String) :
    childTasks g place name = siblingTasks (place.above ++ [place.last]) (g.children name) :=
  zipIdx_eq_siblingTasks _ _ (Nat.zero_add _)

/-- the owned names are those that the graph has -/
theorem map_val_owned (g : Graph) (names : List String) : (g.owned names).map (·.1) = names.filter g.has := by
  induction names with
  | nil => rfl
  | cons name names ih =>
    rw [owned] at ih ⊢
    by_cases h : name ∈ g.names
    · simp [h, has, ih]
    · simp [h, has, ih]

/-! ## Line for line -/

section Lines

variable {g : Graph}

/-- what a list of tasks draws is determined -/
theorem Draws.unique {drawn drawn₁ drawn₂ : List String} {tasks : List Task} {es₁ es₂ : List Entry}
    (h₁ : Draws g drawn tasks es₁ drawn₁) (h₂ : Draws g drawn tasks es₂ drawn₂) : es₁ = es₂ ∧ drawn₁ = drawn₂ := by
  induction h₁ generalizing es₂ with
  | done =>
    cases h₂
    exact ⟨rfl, rfl⟩
  | again hold _ ih =>
    cases h₂ with
    | again _ h₂ =>
      obtain ⟨rfl, rfl⟩ := ih h₂
      exact ⟨rfl, rfl⟩
    | first hnew _ => exact absurd hold hnew
  | first hnew _ ih =>
    cases h₂ with
    | again hold _ => exact absurd hold hnew
    | first _ h₂ =>
      obtain ⟨rfl, rfl⟩ := ih h₂
      exact ⟨rfl, rfl⟩

/-- **Siblings.** Their tasks draw, line for line, what the recursion prints, and leave the same names drawn. -/
theorem draws_outline (m : Marks) (printed : List String) (above : List Bool) (names : List g.Owned) :
    ∃ es, Draws g printed (siblingTasks above (names.map (·.1))) es
      (outline g m printed (indentBelow above) names).printed ∧
      es.map (Entry.text g m) = (outline g m printed (indentBelow above) names).lines := by
  generalize hindent : indentBelow above = indent
  fun_induction outline g m printed indent names generalizing above with
  | case1 printed indent => exact ⟨[], .done printed, rfl⟩
  | case2 printed indent name names hold ih =>
    obtain ⟨es, hdraws, hlines⟩ := ih above hindent
    rw [List.map_cons, siblingTasks, List.isEmpty_map]
    refine ⟨.reference ⟨above, names.isEmpty⟩ name.1 :: es, .again hold hdraws, ?_⟩
    rw [List.map_cons, hlines, Entry.text, text_place, hindent]
    rfl
  | case3 printed indent name names hnew below ihbelow ihrest =>
    have hinner : indentBelow (above ++ [names.isEmpty]) = indent ++ cell names.isEmpty := by
      rw [indentBelow_concat, hindent]
    obtain ⟨es, hdraws, hlines⟩ := ihbelow _ hinner
    obtain ⟨es', hdraws', hlines'⟩ := ihrest above hindent
    rw [List.map_cons, siblingTasks, List.isEmpty_map]
    refine ⟨.full ⟨above, names.isEmpty⟩ name.1 :: (es ++ es'), .first hnew ?_, ?_⟩
    · rw [childTasks_eq, children, ← map_val_owned]
      exact hdraws.append hdraws'
    · rw [List.map_cons, List.map_append, hlines, hlines', Entry.text, text_place, hindent]
      rfl

/-- the recursion prints a root as it is drawn -/
theorem drawTasks_root (hnd : g.names.Nodup) (m : Marks) (drawn : List String) (root : g.Owned) :
    (drawTasks g (drawFuel g) drawn [({}, root.1)]).1.map (Entry.text g m) = (outline g m drawn "" [root]).lines ∧
      (drawTasks g (drawFuel g) drawn [({}, root.1)]).2 = (outline g m drawn "" [root]).printed := by
  obtain ⟨es, hdraws, hlines⟩ := draws_outline m drawn [] [root]
  obtain ⟨hes, hdrawn⟩ := (draws_root hnd root.2 drawn).unique hdraws
  exact ⟨hes ▸ hlines, hdrawn⟩

/-- **Roots.** They are drawn, line for line, as the recursion prints them. -/
theorem lines_drawRoots (hnd : g.names.Nodup) (m : Marks) (drawn : List String) (roots : List g.Owned) :
    (drawRoots g drawn (roots.map (·.1))).map (Entry.text g m) = outlineRoots g m drawn roots := by
  induction roots generalizing drawn with
  | nil => rfl
  | cons root roots ih =>
    obtain ⟨hlines, hprinted⟩ := drawTasks_root hnd m drawn root
    rw [List.map_cons, drawRoots, outlineRoots, List.map_append, hlines, hprinted, List.isEmpty_map]
    cases roots with
    | nil => rfl
    | cons next roots => exact congrArg (fun ls => _ ++ "" :: ls) (ih _)

end Lines

/-! ## Texts without a drawing -/

/-- what the recursion prints begins with the branch of the first root, and is an empty line where there is none -/
theorem head?_outlineText (g : Graph) (m : Marks) :
    (g.outlineText m).toList.head? = some (if (g.owned g.roots).isEmpty then '\n' else '└') := by
  rw [outlineText]
  cases g.owned g.roots with
  | nil => simp [outlineRoots]
  | cons root roots =>
    obtain ⟨rest, hrest⟩ : ∃ rest, outlineRoots g m [] (root :: roots) = ("└── " ++ g.fullText m root.1) :: rest := by
      rw [outlineRoots, outline, dif_neg List.not_mem_nil]
      exact ⟨_, rfl⟩
    rw [hrest]
    cases rest <;> simp

/-- **No drawing.** A graph that is said to have a loop, or that has no names, has a text of its own. -/
theorem render_ne_outlineText {g : Graph} (h : g.cycle ≠ none ∨ g.names = []) (m : Marks) :
    g.render m ≠ g.outlineText m := by
  have hfirst : (g.render m).toList.head? = some '⚠' ∨ (g.render m).toList.head? = some 'N' := by
    unfold render
    split
    next walk => exact .inl (by simp)
    next hcycle =>
      rw [if_pos (List.isEmpty_iff.2 (h.resolve_left fun hne => hne hcycle))]
      exact .inr rfl
  intro hsame
  rw [hsame, head?_outlineText] at hfirst
  revert hfirst
  split <;> decide

/-! ## Parts -/

/-- a focus keeps the loop of the graph, as long as anything is left -/
theorem cycle_focusAll_of_ne_nil {g : Graph} {steps : List (String × ℤ)} (hne : (g.focusAll steps).names ≠ []) :
    (g.focusAll steps).cycle = g.cycle := by
  induction steps generalizing g with
  | nil => rfl
  | cons step steps ih =>
    rw [focusAll, List.foldl_cons] at hne ⊢
    by_cases hname : g.has step.1 = true
    · exact (ih hne).trans (by rw [focus_of_has hname])
    · rw [focus_of_not_has hname] at hne
      exact absurd (congrArg Graph.names (focusAll_empty steps)) hne

/-- a part with names and without a loop of its own was taken from a graph without a loop -/
theorem PartOf.acyclic {ts : List Target} {g : Graph} (hg : PartOf ts g) (hcycle : g.cycle = none)
    (hne : g.names ≠ []) :
    ¬ Cyclic (Depends ts) := by
  obtain ⟨steps, rfl⟩ := hg
  rw [cycle_focusAll_of_ne_nil hne] at hcycle
  rw [← isSome_cycle_build_iff, hcycle]
  exact Bool.false_ne_true

theorem owned_roots {g : Graph} (h : Rooted g) : (g.owned g.roots).map (·.1) = g.roots := by
  rw [map_val_owned]
  exact List.filter_eq_self.2 fun r hr => List.contains_iff_mem.2 (h.roots_subset r hr)

/-- **The text of a drawing is what the recursion prints.** Of every part that is not said to have a loop, unless there
is nothing to draw. -/
theorem render_eq_outlineText {ts : List Target} {g : Graph} (hg : PartOf ts g) (hcycle : g.cycle = none)
    (hne : g.names ≠ []) (m : Marks) : (g.owned g.roots).map (·.1) = g.roots ∧ g.render m = g.outlineText m := by
  have hrooted := hg.rooted (hg.acyclic hcycle hne)
  have hroots := owned_roots hrooted
  refine ⟨hroots, ?_⟩
  have hlines := lines_drawRoots hrooted.nodup m [] (g.owned g.roots)
  rw [hroots] at hlines
  rw [render, hcycle, outlineText, drawing, hlines]
  simp [hne]

/-- two roots: below the first, `test` waits for what is printed already; below the second it is printed itself -/
theorem render_eq_outlineText_crossing :
    PartOf crossing (build crossing) ∧ (build crossing).cycle = none ∧ (build crossing).names ≠ [] ∧
      (build crossing).render {} = (build crossing).outlineText {} ∧
      (build crossing).outlineText {} =
        "└── all\n    ├── build\n    │   └── deps — (external or file dependency)\n    └── test\n" ++
        "        ├── deps (see above)\n        └── build (see above)\n\n" ++
        "└── lint\n    ├── test (see above)\n    └── linter — (external or file dependency)\n" := by
  have hwhole : PartOf crossing (build crossing) := ⟨[], rfl⟩
  have hcycle : (build crossing).cycle = none := cycle_build_of_acyclic not_cyclic_crossing
  have hne : (build crossing).names ≠ [] := List.ne_nil_of_mem (List.contains_iff_mem.1 has_crossing)
  have htext := (render_eq_outlineText hwhole hcycle hne {}).2
  refine ⟨hwhole, hcycle, hne, htext, ?_⟩
  rw [← htext, build_of_acyclic not_cyclic_crossing]
  decide +kernel

/-- a name that waits for itself, beside one that waits for nothing -/
def besideRing : List Target := [{ name := "a", dependencies := ["a"] }, { name := "b" }]

/-- **Not every text is an outline.** A graph without names is not drawn, and neither is a part without a loop that was
taken from a graph with one. -/
theorem not_always_outlineText :
    (¬ ∀ (ts : List Target) (g : Graph), PartOf ts g → g.cycle = none → ∀ m, g.render m = g.outlineText m) ∧
      ¬ ∀ (ts : List Target) (g : Graph), PartOf ts g → g.names ≠ [] → ¬ Cyclic g.Waits →
        ∀ m, g.render m = g.outlineText m := by
  constructor
  · intro h
    have hac : ¬ Cyclic (Depends []) := not_cyclic_of_rank (fun _ => 0) (by simp)
    have hnames : (build []).names = [] := by
      rw [build_of_acyclic hac]
      rfl
    exact render_ne_outlineText (.inr hnames) {} (h [] (build []) ⟨[], rfl⟩ (cycle_build_of_acyclic hac) {})
  · intro h
    have hcy : Cyclic (Depends besideRing) := ⟨"a", .single ⟨_, rfl, List.mem_singleton_self "a"⟩⟩
    obtain ⟨walk, hbuild⟩ := build_of_cyclic hcy
    have hpart : (build besideRing).focus "b" 0 =
        { store := (ofWires (.ofTargets besideRing)).store, names := ["b"], roots := ["b"], cycle := some walk } := by
      rw [focus_of_has (has_build (by decide)), hbuild, mk.injEq]
      have hnames : Spread.run (ofWires (.ofTargets besideRing)).store (reachOf 0) { queue := [("b", 0)] } = ["b"] := by
        decide +kernel
      exact ⟨rfl, hnames, rfl, rfl, rfl⟩
    have hnone : (ofWires (.ofTargets besideRing)).dependencies "b" = [] := by decide
    have hac : ¬ Cyclic ((build besideRing).focus "b" 0).Waits := by
      intro hcyclic
      obtain ⟨a, ha⟩ := hcyclic
      obtain ⟨b, hab, -⟩ := Relation.TransGen.head'_iff.1 ha
      rw [hpart] at hab
      obtain ⟨hname, hb⟩ := hab
      obtain rfl : a = "b" := List.mem_singleton.1 hname
      exact List.not_mem_nil (hnone ▸ hb)
    have hmany : ((build besideRing).focus "b" 0).names ≠ [] := by simp [hpart]
    have hcycle : ((build besideRing).focus "b" 0).cycle ≠ none := by simp [hpart]
    exact render_ne_outlineText (.inl hcycle) {} (h besideRing _ ⟨[("b", 0)], rfl⟩ hmany hac {})

end MakeAtlas.Graph
