/-
Which nodes are critical: those that stand for a target and lie on a longest chain of the graph.
- `Marking.Inv`, `Marking.reach_all_inv`, `Marking.mem_run`: what is marked is reached from the deepest names along the
  edges that marking follows, and in the end all that is reached is marked.
- `follows_iff`: these are the edges along which the depth falls by one, to names of targets.
- `mem_criticalNames`: so the marked names are the targets on longest chains.
- `critical_build`: this holds of every graph built without a loop; with a loop no node is critical.
Witness: `fork`, with two longest chains that end at different names, one of them unknown, and a third chain that is
shorter.
-/
import MakeAtlas.Proofs.Graph.Depth
import MakeAtlas.Proofs.Graph.Faithful
import MakeAtlas.Proofs.Graph.Loops

namespace MakeAtlas.Graph

open Relation
open Makefile (Target)

/-! ## What marking keeps -/

namespace Marking

/-- the edges that marking follows -/
def Follows (g : Graph) (known : Depths) (a b : String) : Prop := b ∈ g.dependencies a ∧ continues g known a b = true

section Reach

variable (g : Graph) (known : Depths) (name : String) (m : Marking) (dep a : String)

variable {m dep} in
theorem reach_new (hm : dep ∉ m.marked) (hc : continues g known name dep = true) :
    m.reach g known name dep = { marked := m.marked ++ [dep], stack := dep :: m.stack } := by
  simp [reach, hm, hc]

variable {g known name m dep} in
theorem reach_old (h : ¬ (dep ∉ m.marked ∧ continues g known name dep = true)) : m.reach g known name dep = m := by
  simpa [reach] using fun hm hc => absurd ⟨hm, hc⟩ h

/-- a dependency looked at is marked when marking goes on to it -/
theorem mem_reach_marked :
    a ∈ (m.reach g known name dep).marked ↔ a ∈ m.marked ∨ a = dep ∧ continues g known name dep = true := by
  by_cases h : dep ∉ m.marked ∧ continues g known name dep = true
  · rw [reach_new g known name h.1 h.2, List.mem_append, List.mem_singleton, and_iff_left h.2]
  · rw [reach_old h]
    refine (or_iff_left_of_imp ?_).symm
    intro hboth
    obtain ⟨rfl, hc⟩ := hboth
    exact not_not.1 fun hm => h ⟨hm, hc⟩

/-- what is marked now stands on the stack -/
theorem mem_reach_stack :
    a ∈ (m.reach g known name dep).stack ↔ a ∈ m.stack ∨ a ∈ (m.reach g known name dep).marked ∧ a ∉ m.marked := by
  by_cases h : dep ∉ m.marked ∧ continues g known name dep = true
  · rw [reach_new g known name h.1 h.2, List.mem_cons, List.mem_append, List.mem_singleton]
    constructor
    · intro hcase
      rcases hcase with rfl | ha
      · exact .inr ⟨.inr rfl, h.1⟩
      · exact .inl ha
    · intro hcase
      rcases hcase with ha | ⟨ha | rfl, hnew⟩
      · exact .inr ha
      · exact absurd ha hnew
      · exact .inl rfl
  · rw [reach_old h]
    exact (or_iff_left_of_imp fun ha => absurd ha.1 ha.2).symm

end Reach

theorem mem_foldl_reach_marked (g : Graph) (known : Depths) (name : String) (deps : List String) (m : Marking)
    (a : String) :
    a ∈ (deps.foldl (reach g known name) m).marked ↔ a ∈ m.marked ∨ a ∈ deps ∧ continues g known name a = true := by
  induction deps generalizing m with
  | nil => simp
  | cons dep deps ih =>
    rw [List.foldl_cons, ih, mem_reach_marked, List.mem_cons, or_and_right, or_assoc]
    refine or_congr_right (or_congr_left (and_congr_right fun h => ?_))
    rw [h]

theorem mem_foldl_reach_stack (g : Graph) (known : Depths) (name : String) (deps : List String) (m : Marking)
    (a : String) :
    a ∈ (deps.foldl (reach g known name) m).stack ↔
      a ∈ m.stack ∨ a ∈ (deps.foldl (reach g known name) m).marked ∧ a ∉ m.marked := by
  induction deps generalizing m with
  | nil => simp
  | cons dep deps ih =>
    have hkeep : a ∈ (m.reach g known name dep).marked →
      a ∈ (deps.foldl (reach g known name) (m.reach g known name dep)).marked :=
      fun h => (mem_foldl_reach_marked g known name deps _ a).2 (.inl h)
    have hgrow : a ∈ m.marked → a ∈ (m.reach g known name dep).marked :=
      fun h => (mem_reach_marked g known name m dep a).2 (.inl h)
    rw [List.foldl_cons, ih, mem_reach_stack]
    tauto

/-- what is marked is reached from `roots`, and whatever is not on the stack any more has all that follows it marked -/
structure Inv (g : Graph) (known : Depths) (roots : List String) (m : Marking) : Prop where
  reached : ∀ a ∈ m.marked, ∃ top ∈ roots, ReflTransGen (Follows g known) top a
  roots : ∀ a ∈ roots, a ∈ m.marked
  stack : ∀ a ∈ m.stack, a ∈ m.marked
  done : ∀ a ∈ m.marked, a ∈ m.stack ∨ ∀ b, Follows g known a b → b ∈ m.marked

theorem start_inv (g : Graph) (known : Depths) (roots : List String) :
    Inv g known roots { marked := roots, stack := roots.reverse } where
  reached a ha := ⟨a, ha, .refl⟩
  roots _ ha := ha
  stack _ ha := List.mem_reverse.1 ha
  done _ ha := .inl (List.mem_reverse.2 ha)

/-- **The top of the stack looks at all its dependencies.** -/
theorem reach_all_inv {g : Graph} {known : Depths} {roots : List String} {m : Marking} {name : String}
    {stack : List String} (h : Inv g known roots m) (hs : m.stack = name :: stack) :
    Inv g known roots ((g.dependencies name).foldl (reach g known name) { m with stack }) := by
  have hmarked := mem_foldl_reach_marked g known name (g.dependencies name) { m with stack }
  have hstack := mem_foldl_reach_stack g known name (g.dependencies name) { m with stack }
  have hname : name ∈ m.marked := h.stack name (hs ▸ List.mem_cons_self)
  refine ⟨fun a ha => ?_, fun a ha => (hmarked a).2 (.inl (h.roots a ha)), fun a ha => ?_, fun a ha => ?_⟩
  · rcases (hmarked a).1 ha with ha | ⟨hdep, hc⟩
    · exact h.reached a ha
    · obtain ⟨top, htop, hreach⟩ := h.reached name hname
      exact ⟨top, htop, hreach.tail ⟨hdep, hc⟩⟩
  · rcases (hstack a).1 ha with ha | ⟨ha, -⟩
    · exact (hmarked a).2 (.inl (h.stack a (hs ▸ List.mem_cons_of_mem _ ha)))
    · exact ha
  · by_cases hold : a ∈ m.marked
    · rcases h.done a hold with hin | hall
      · rw [hs] at hin
        rcases List.mem_cons.1 hin with rfl | hin
        · exact .inr fun b hb => (hmarked b).2 (.inr hb)
        · exact .inl ((hstack a).2 (.inl hin))
      · exact .inr fun b hb => (hmarked b).2 (.inl (hall b hb))
    · exact .inl ((hstack a).2 (.inr ⟨ha, hold⟩))

/-- **All that is reached is marked, and nothing else.** -/
theorem mem_run {g : Graph} {known : Depths} {roots : List String} {m : Marking} (h : Inv g known roots m)
    (a : String) :
    a ∈ m.run g known ↔ ∃ top ∈ roots, ReflTransGen (Follows g known) top a := by
  induction m using run.induct g known with
  | case1 m hs =>
    rw [run]
    split
    next =>
      refine ⟨h.reached a, ?_⟩
      intro hsome
      obtain ⟨top, htop, hreach⟩ := hsome
      induction hreach with
      | refl => exact h.roots top htop
      | tail _ hbc ih =>
        rcases h.done _ ih with hin | hall
        · rw [hs] at hin
          cases hin
        · exact hall _ hbc
    next hcons => rw [hs] at hcons; cases hcons
  | case2 m name stack hs ih =>
    rw [run]
    split
    next hnil => rw [hs] at hnil; cases hnil
    next name' stack' hcons =>
      rw [hs] at hcons
      cases hcons
      exact ih (reach_all_inv h hs)

end Marking

/-! ## Longest chains -/

/-- a target stands behind the node of this name -/
def Real (g : Graph) (a : String) : Prop := ∃ n, lookup g.store a = some n ∧ n.kind = .real

/-- marking follows the edges along which the depth falls by one, to names of targets -/
theorem follows_iff {g : Graph} {known : Depths} (hc : g.Closed) (hm : Measured g known)
    (hall : ∀ a ∈ g.names, (known.value? a).isSome) {a b : String} (ha : a ∈ g.names) :
    Marking.Follows g known a b ↔ Falls g.Waits a b ∧ g.Real b := by
  have hreal : (lookup g.store b).any (·.kind == .real) = true ↔ g.Real b := by
    cases hb : lookup g.store b <;> simp [Real, hb]
  have hdepth : ∀ n ∈ g.names, ∀ d, known.value? n = some d ↔ HasDepth g.Waits n d := by
    intro n hn d
    refine ⟨hm.value?, fun hd => ?_⟩
    obtain ⟨e, he⟩ := Option.isSome_iff_exists.1 (hall n hn)
    rw [he, (hm.value? he).unique hd]
  unfold Marking.Follows Marking.continues
  rw [Bool.and_eq_true, hreal]
  constructor
  · intro hboth
    obtain ⟨hb, hr, hmatch⟩ := hboth
    split at hmatch
    next d e hd he =>
      rw [beq_iff_eq] at hmatch
      exact ⟨⟨⟨ha, hb⟩, d, hmatch ▸ hm.value? he, hm.value? hd⟩, hr⟩
    next => cases hmatch
  · intro hboth
    obtain ⟨⟨hab, d, hda, hdb⟩, hr⟩ := hboth
    refine ⟨hab.2, hr, ?_⟩
    rw [(hdepth b (hc a hab.1 b hab.2) d).2 hdb, (hdepth a ha (d + 1)).2 hda]
    exact beq_self_eq_true (d + 1)

/-- what marking reaches from a name of a target are the targets that falls lead to -/
theorem reaches_follows_iff {g : Graph} {known : Depths} (hc : g.Closed) (hm : Measured g known)
    (hall : ∀ a ∈ g.names, (known.value? a).isSome) (hreal : ∀ a b, g.Waits a b → g.Real a) {top a : String}
    (htop : top ∈ g.names) (hr : g.Real top) :
    ReflTransGen (Marking.Follows g known) top a ↔ g.Real a ∧ ReflTransGen (Falls g.Waits) top a := by
  constructor
  · intro h
    suffices a ∈ g.names ∧ g.Real a ∧ ReflTransGen (Falls g.Waits) top a from this.2
    induction h with
    | refl => exact ⟨htop, hr, .refl⟩
    | tail _ hbc ih =>
      obtain ⟨hfalls, hrc⟩ := (follows_iff hc hm hall ih.1).1 hbc
      exact ⟨hc _ ih.1 _ hfalls.1.2, hrc, ih.2.2.tail hfalls⟩
  · intro hboth
    obtain ⟨ha, h⟩ := hboth
    induction h with
    | refl => exact .refl
    | tail _ hbc ih =>
      -- whatever waits for another name stands for a target
      exact (ih (hreal _ _ hbc.1)).tail ((follows_iff hc hm hall hbc.1.1).2 ⟨hbc, ha⟩)

/-- the depths that were found go up to the height of the graph -/
theorem max?_depths {g : Graph} {known : Depths} (hm : Measured g known)
    (hall : ∀ a ∈ g.names, (known.value? a).isSome) {d : ℕ} (hd : HasHeight g.Waits g.names d) :
    (known.map (·.2)).max? = some d := by
  rw [List.max?_eq_some_iff]
  constructor
  · obtain ⟨a, ha, hdepth⟩ := hd.exists_top
    obtain ⟨e, he⟩ := Option.isSome_iff_exists.1 (hall a ha)
    obtain rfl : e = d := (hm.value? he).unique hdepth
    exact List.mem_map.2 ⟨(a, e), Entries.mem_of_value? he, rfl⟩
  · intro e he
    obtain ⟨entry, hentry, rfl⟩ := List.mem_map.1 he
    exact hd.le (hm entry hentry).1 (hm entry hentry).2

/-- **Marked names are the targets on longest chains.** -/
theorem mem_criticalNames {g : Graph} (hc : g.Closed) (hac : ¬ Cyclic g.Waits)
    (hreal : ∀ a b, g.Waits a b → g.Real a) {d : ℕ} (hd : HasHeight g.Waits g.names d) (a : String) :
    a ∈ criticalNames g ↔ 1 ≤ d ∧ g.Real a ∧ OnChain g.Waits d a := by
  obtain ⟨known, hknown, hm, hall⟩ := depths_eq_some hc hac
  unfold criticalNames
  rw [hknown]
  simp only [max?_depths hm hall hd, Option.getD_some]
  cases d with
  | zero => simp
  | succ d =>
    have htops : ∀ top, top ∈ (g.names.filter fun name => known.value? name == some (d + 1) &&
      !(g.dependencies name).isEmpty) ↔
        top ∈ g.names ∧ HasDepth g.Waits top (d + 1) := by
      intro top
      rw [List.mem_filter]
      refine and_congr_right fun htop => ?_
      obtain ⟨e, he⟩ := Option.isSome_iff_exists.1 (hall top htop)
      rw [he, Bool.and_eq_true, beq_iff_eq, Option.some.injEq]
      constructor
      · intro hboth
        obtain ⟨rfl, -⟩ := hboth
        exact hm.value? he
      · intro hdepth
        obtain ⟨b, hb, -⟩ := hdepth.exists_below
        refine ⟨(hm.value? he).unique hdepth, ?_⟩
        cases hdeps : g.dependencies top with
        | nil => exact absurd hb.2 (by simp [hdeps])
        | cons b deps => rfl
    have hrealTop : ∀ top, HasDepth g.Waits top (d + 1) → g.Real top := by
      intro top h
      obtain ⟨b, hb, -⟩ := h.exists_below
      exact hreal top b hb
    rw [if_neg (by simp), Marking.mem_run (Marking.start_inv g known _), onChain_iff (fun a b h => h.1) hd]
    constructor
    · intro hsome
      obtain ⟨top, htop, hreach⟩ := hsome
      obtain ⟨hname, hdepth⟩ := (htops top).1 htop
      obtain ⟨hr, hfalls⟩ := (reaches_follows_iff hc hm hall hreal hname (hrealTop top hdepth)).1 hreach
      exact ⟨Nat.succ_pos d, hr, top, hname, hdepth, hfalls⟩
    · intro hboth
      obtain ⟨-, hr, top, hname, hdepth, hfalls⟩ := hboth
      exact ⟨top, (htops top).2 ⟨hname, hdepth⟩,
        (reaches_follows_iff hc hm hall hreal hname (hrealTop top hdepth)).2 ⟨hr, hfalls⟩⟩

/-! ## Built graphs -/

theorem Remarks.real {g g' : Graph} (h : Remarks g g') : g'.Real = g.Real := by
  obtain ⟨f, hf, hlookup⟩ := h.lookup
  funext a
  rw [Real, Real, hlookup]
  cases Graph.lookup g.store a with
  | none => simp
  | some n => simp [hf.kind]

/-- only a target waits for anything -/
theorem real_of_waits_ofTargets (ts : List Target) (a b : String) (h : (ofWires (.ofTargets ts)).Waits a b) :
    (ofWires (.ofTargets ts)).Real a := by
  have hsome : (lookup (ofWires (.ofTargets ts)).store a).isSome := by
    rw [lookup_isSome, ← (wired_ofTargets ts).names_eq]
    exact h.1
  obtain ⟨n, hn⟩ := Option.isSome_iff_exists.1 hsome
  obtain ⟨t, ht, -⟩ := (waits_ofTargets ts).1 h
  refine ⟨n, hn, (kind_ofTargets ts hn).2 ?_⟩
  rw [ht]
  rfl

theorem critical_annotate {g : Graph} (hg : Wired g) (hac : ¬ Cyclic g.Waits)
    (hreal : ∀ a b, g.Waits a b → g.Real a) {d : ℕ} (hd : HasHeight g.Waits g.names d) {n : Node}
    (hn : n ∈ (annotate g).store) :
    n.critical = true ↔ 1 ≤ d ∧ n.kind = .real ∧ OnChain g.Waits d n.name := by
  have hr := remarks_assignOrder g
  have hg' : Wired (assignOrder g) := hr.wired hg
  have hcrit := mem_criticalNames hg'.closed (hr.waits ▸ hac) (by rw [hr.waits, hr.real]; exact hreal) (d := d)
    (by rw [hr.waits]; exact hd)
  simp only [annotate, markParallel, markCritical, List.map_map, List.mem_map] at hn
  obtain ⟨m, hm, rfl⟩ := hn
  have hnd : ((assignOrder g).store.map (·.name)).Nodup := hg'.names_eq ▸ hg'.nodup
  have hkind : (assignOrder g).Real m.name ↔ m.kind = .real := by
    rw [Real, lookup_of_mem hnd hm]
    simp
  rw [hr.waits] at hcrit
  simp only [Function.comp_apply, List.contains_iff_mem, hcrit, hkind]

/-- **Critical nodes are the targets on longest chains.** A built graph has a node for each name. Without a loop, a node
is critical exactly when the longest chain of the graph has an edge, the node stands for a target, and it lies on a
chain of as many edges. With a loop no node is critical. -/
theorem critical_build (ts : List Target) :
    (build ts).nodes.map (·.name) = definedNames ts ++ unknownNames ts ∧
      (¬ Cyclic (Depends ts) → (build ts).names ≠ [] → ∃ d, HasHeight (Depends ts) (build ts).names d ∧
        ∀ n ∈ (build ts).nodes, n.critical = true ↔ 1 ≤ d ∧ n.kind = .real ∧ OnChain (Depends ts) d n.name) ∧
      (Cyclic (Depends ts) → ∀ n ∈ (build ts).nodes, n.critical = false) := by
  refine ⟨map_name_build ts, fun hac hne => ?_, fun hcy n hn => (unmarked_of_cyclic hcy hn).2⟩
  have hr := remarks_build ts
  have hw : (ofWires (.ofTargets ts)).Waits = Depends ts := by rw [← waits_build ts, hr.waits]
  have hg := wired_ofTargets ts
  obtain ⟨f, -, -, hnames⟩ := id hr
  rw [hnames] at hne
  rw [← hw] at hac
  obtain ⟨d, hd⟩ := exists_hasHeight (hg.exists_hasDepth hac) hne
  refine ⟨d, by rw [hnames, ← hw]; exact hd, fun n hn => ?_⟩
  rw [(wired_build ts).nodes_eq, build_of_acyclic (hw ▸ hac)] at hn
  rw [← hw]
  exact critical_annotate hg hac (real_of_waits_ofTargets ts) hd hn

/-- two longest chains from `top`, one to `low` and one to `file`, which no target has, and a shorter one to `near` -/
def fork : List Target :=
  [{ name := "top", dependencies := ["left", "right", "near"] }, { name := "left", dependencies := ["low"] },
    { name := "right", dependencies := ["file"] }, { name := "low" }, { name := "near" }]

def forkDepths : List (String × ℕ) := [("top", 2), ("left", 1), ("right", 1), ("low", 0), ("near", 0), ("file", 0)]

/-- `low` is critical; `file` lies on a longest chain as well, and is no target -/
theorem critical_build_fork :
    ¬ Cyclic (Depends fork) ∧ (build fork).names ≠ [] ∧ HasHeight (Depends fork) (build fork).names 2 ∧
      (∀ n ∈ (build fork).nodes, n.name = "low" → n.critical = true) ∧
      (∀ n ∈ (build fork).nodes, n.name = "file" → OnChain (Depends fork) 2 n.name ∧ n.critical = false) ∧
      (build fork).nodes.map (·.name) = ["top", "left", "right", "low", "near", "file"] ∧
      Cyclic (Depends ring) ∧ ∀ n ∈ (build ring).nodes, n.critical = false := by
  have hfork : ¬ Cyclic (Depends fork) :=
    not_cyclic_of_rank (["low", "file", "near", "right", "left", "top"].idxOf ·) (by decide)
  have hdepths : ∀ e ∈ forkDepths, HasDepth (Depends fork) e.1 e.2 := hasDepth_of_table (by decide) (by decide)
  obtain ⟨hnamed, hcritical, -⟩ := critical_build fork
  replace hnamed : (build fork).nodes.map (·.name) = forkDepths.map (·.1) := hnamed.trans (by decide)
  have hnames : (build fork).names = forkDepths.map (·.1) := by
    rw [(wired_build fork).names_eq, ← (wired_build fork).nodes_eq, hnamed]
  have hne : (build fork).names ≠ [] := by rw [hnames]; decide
  obtain ⟨d, hheight, hmarks⟩ := hcritical hfork hne
  obtain rfl : d = 2 := (hnames ▸ hheight).eq_of_table hdepths ("top", 2) (by decide)
  have hchain : ∀ {b c : String}, b ∈ writtenDependencies fork "top" → c ∈ writtenDependencies fork b →
    OnChain (Depends fork) 2 c := by
    intro b c hb hc
    refine ⟨["top", b, c], ?_, rfl, by simp⟩
    simp [depends_of_mem_writtenDependencies hb, depends_of_mem_writtenDependencies hc]
  refine ⟨hfork, hne, hheight, fun n hn hname => ?_, fun n hn hname => ?_, hnamed, cyclic_ring,
    (critical_build ring).2.2 cyclic_ring⟩
  · have hreal : n.kind = .real := (kind_build hn).2 (by rw [hname]; decide)
    exact (hmarks n hn).2 ⟨by decide, hreal, hname ▸ hchain (b := "left") (by decide) (by decide)⟩
  · have hplace : n.kind ≠ .real := fun hreal => absurd ((kind_build hn).1 hreal) (by rw [hname]; decide)
    exact ⟨hname ▸ hchain (b := "right") (by decide) (by decide),
      Bool.eq_false_iff.2 fun hmark => hplace ((hmarks n hn).1 hmark).2.1⟩

end MakeAtlas.Graph
