/-
Edges, loops and chains, apart from any search. A chain is a list of names, each waiting for the next. The depth of a
name is the number of edges on the longest chain that starts there.
- `wellFounded_of_acyclic`: without a loop among finitely many names, going down the edges ends.
- `exists_hasDepth`: there, every name has a depth.
- `hasDepth_of_below`: the depth of a name is one more than the greatest depth below it.
- `HasDepth.lt`, `HasDepth.lt_of_transGen`, `HasDepth.exists_below`: along an edge the depth falls, and so along any
  number of them, and along some edge it falls by exactly one.
- `HasDepth.exists_of_le`: below a name, every smaller depth occurs.
- `onChain_iff`: a name lies on a longest chain when it is reached from one of the greatest depth, falling by one at
  each edge.
-/
import Mathlib.Data.Fintype.Card
import Mathlib.Data.List.Chain
import Mathlib.Logic.Relation
import Mathlib.Tactic
import MakeAtlas.Graph.Basic

namespace MakeAtlas.Graph

/-- a node of the graph and a name that it waits for -/
def Waits (g : Graph) (a b : String) : Prop := a ∈ g.names ∧ b ∈ g.dependencies a

/-- the graph owns all that its nodes wait for -/
def Closed (g : Graph) : Prop := ∀ a ∈ g.names, ∀ b ∈ g.dependencies a, b ∈ g.names

instance (g : Graph) : Decidable g.Closed := by unfold Closed; infer_instance

/-- some name comes back to itself over one edge or more -/
def Cyclic (r : String → String → Prop) : Prop := ∃ a, Relation.TransGen r a a

/-- the numbers of edges of the chains that start at `a` -/
def chainLengths (r : String → String → Prop) (a : String) : Set ℕ := {k | ∃ l, (a :: l).IsChain r ∧ l.length = k}

/-- the longest chain that starts at `a` has `d` edges -/
def HasDepth (r : String → String → Prop) (a : String) (d : ℕ) : Prop := IsGreatest (chainLengths r a) d

/-- the longest chain that starts at one of these names has `d` edges -/
def HasHeight (r : String → String → Prop) (names : List String) (d : ℕ) : Prop :=
  IsGreatest {k | ∃ a ∈ names, k ∈ chainLengths r a} d

/-- `a` lies on a chain of `d` edges -/
def OnChain (r : String → String → Prop) (d : ℕ) (a : String) : Prop :=
  ∃ l : List String, l.IsChain r ∧ l.length = d + 1 ∧ a ∈ l

/-- an edge along which the depth falls by exactly one -/
def Falls (r : String → String → Prop) (a b : String) : Prop := r a b ∧ ∃ d, HasDepth r a (d + 1) ∧ HasDepth r b d

variable {r : String → String → Prop} {a b : String} {d e : ℕ} {names : List String}

theorem Cyclic.mono {s : String → String → Prop} (hrs : ∀ a b, r a b → s a b) (h : Cyclic r) : Cyclic s := by
  obtain ⟨a, ha⟩ := h
  exact ⟨a, Relation.TransGen.mono hrs _ _ ha⟩

/-! ## Ends of descent -/

/-- **Descent ends.** Edges among finitely many names that close no loop can be followed down finitely often. -/
theorem wellFounded_of_acyclic (names : List String) (hr : ∀ a b, r a b → a ∈ names ∧ b ∈ names) (hac : ¬ Cyclic r) :
    WellFounded (flip r) := by
  let below (x y : {n // n ∈ names}) : Prop := Relation.TransGen r y.1 x.1
  have : IsTrans _ below := ⟨fun _ _ _ h1 h2 => h2.trans h1⟩
  have : Std.Irrefl below := ⟨fun x hx => hac ⟨x.1, hx⟩⟩
  have hwf : WellFounded below := Finite.wellFounded_of_trans_of_irrefl below
  have hacc : ∀ x : {n // n ∈ names}, Acc (flip r) x.1 := by
    intro x
    induction x using hwf.induction with
    | _ x ih => exact ⟨_, fun b hb => ih ⟨b, (hr _ _ hb).2⟩ (.single hb)⟩
  exact ⟨fun a => ⟨a, fun b hb => hacc ⟨b, (hr _ _ hb).2⟩⟩⟩

/-! ## Depths -/

theorem zero_mem_chainLengths (r : String → String → Prop) (a : String) : 0 ∈ chainLengths r a := ⟨[], by simp, rfl⟩

theorem succ_mem_chainLengths : d + 1 ∈ chainLengths r a ↔ ∃ b, r a b ∧ d ∈ chainLengths r b := by
  constructor
  · intro hsome
    obtain ⟨l, hl, hlen⟩ := hsome
    match l, hlen with
    | b :: l, hlen =>
      rw [List.isChain_cons_cons] at hl
      exact ⟨b, hl.1, l, hl.2, by simpa using hlen⟩
  · intro hsome
    obtain ⟨b, hab, l, hl, hlen⟩ := hsome
    exact ⟨b :: l, List.isChain_cons_cons.2 ⟨hab, hl⟩, by simp [hlen]⟩

theorem HasDepth.unique (h1 : HasDepth r a d) (h2 : HasDepth r a e) : d = e := IsGreatest.unique h1 h2

/-- the depth falls along an edge -/
theorem HasDepth.lt (ha : HasDepth r a d) (hab : r a b) (hb : HasDepth r b e) : e < d :=
  ha.2 (succ_mem_chainLengths.2 ⟨b, hab, hb.1⟩)

/-- what leads to a name has longer chains -/
theorem exists_mem_chainLengths (hab : Relation.TransGen r a b) (hd : d ∈ chainLengths r b) :
    ∃ e ∈ chainLengths r a, d < e := by
  induction hab using Relation.TransGen.head_induction_on with
  | single hab => exact ⟨d + 1, succ_mem_chainLengths.2 ⟨b, hab, hd⟩, Nat.lt_succ_self d⟩
  | head hac _ ih =>
    obtain ⟨e, he, hlt⟩ := ih
    exact ⟨e + 1, succ_mem_chainLengths.2 ⟨_, hac, he⟩, Nat.lt_succ_of_lt hlt⟩

/-- the depth falls along any number of edges -/
theorem HasDepth.lt_of_transGen (ha : HasDepth r a d) (hab : Relation.TransGen r a b)
    (hb : HasDepth r b e) : e < d := by
  obtain ⟨k, hk, hlt⟩ := exists_mem_chainLengths hab hb.1
  exact hlt.trans_le (ha.2 hk)

/-- the depth falls by exactly one along the first edge of a longest chain -/
theorem HasDepth.exists_below (h : HasDepth r a (d + 1)) : ∃ b, r a b ∧ HasDepth r b d := by
  obtain ⟨b, hab, hd⟩ := succ_mem_chainLengths.1 h.1
  exact ⟨b, hab, hd, fun k hk => Nat.le_of_succ_le_succ (h.2 (succ_mem_chainLengths.2 ⟨b, hab, hk⟩))⟩

/-- a name that waits for none has depth 0 -/
theorem hasDepth_zero (h : ∀ b, ¬ r a b) : HasDepth r a 0 := by
  refine ⟨zero_mem_chainLengths r a, fun k hk => ?_⟩
  cases k with
  | zero => exact le_rfl
  | succ k =>
    obtain ⟨b, hab, -⟩ := succ_mem_chainLengths.1 hk
    exact absurd hab (h b)

/-- the depth is one more than the greatest depth below -/
theorem hasDepth_of_below (hle : ∀ b, r a b → ∃ e ≤ d, HasDepth r b e) (hb : ∃ b, r a b ∧ HasDepth r b d) :
    HasDepth r a (d + 1) := by
  obtain ⟨b, hab, hd⟩ := hb
  refine ⟨succ_mem_chainLengths.2 ⟨b, hab, hd.1⟩, fun k hk => ?_⟩
  cases k with
  | zero => exact Nat.zero_le _
  | succ k =>
    obtain ⟨c, hac, hk⟩ := succ_mem_chainLengths.1 hk
    obtain ⟨e, hed, he⟩ := hle c hac
    exact Nat.succ_le_succ ((he.2 hk).trans hed)

/-- below a name, every smaller depth occurs -/
theorem HasDepth.exists_of_le (h : HasDepth r a d) (he : e ≤ d) : ∃ b, Relation.ReflTransGen r a b ∧
    HasDepth r b e := by
  induction d generalizing a with
  | zero =>
    obtain rfl : e = 0 := by omega
    exact ⟨a, .refl, h⟩
  | succ d ih =>
    rcases Nat.lt_or_eq_of_le he with hlt | rfl
    · obtain ⟨b, hab, hb⟩ := h.exists_below
      obtain ⟨c, hbc, hc⟩ := ih hb (Nat.le_of_lt_succ hlt)
      exact ⟨c, hbc.head hab, hc⟩
    · exact ⟨a, .refl, h⟩

/-- without a loop, a chain meets no name twice -/
theorem nodup_of_isChain (hac : ¬ Cyclic r) {l : List String} (hl : l.IsChain r) : l.Nodup := by
  have hpairs : l.Pairwise (Relation.TransGen r) := (hl.imp fun _ _ h => Relation.TransGen.single h).pairwise
  have hne : ∀ a b, Relation.TransGen r a b → a ≠ b := by
    rintro a b hab rfl
    exact hac ⟨a, hab⟩
  exact hpairs.imp (hne _ _)

/-- without a loop among finitely many names, every name has a depth -/
theorem exists_hasDepth (hr : ∀ a b, r a b → b ∈ names) (hac : ¬ Cyclic r) (a : String) :
    ∃ d, HasDepth r a d := by
  have hbound : ∀ k ∈ chainLengths r a, k ≤ names.length := by
    intro k hsome
    obtain ⟨l, hl, rfl⟩ := hsome
    have hnodup : l.Nodup := (List.nodup_cons.1 (nodup_of_isChain hac hl)).2
    have hsub : l ⊆ names := by
      intro b hb
      have hab : Relation.TransGen r a b := List.IsChain.rel_cons (hl.imp fun _ _ h => Relation.TransGen.single h) hb
      obtain ⟨c, -, hcb⟩ := Relation.TransGen.tail'_iff.1 hab
      exact hr c b hcb
    exact (List.subperm_of_subset hnodup hsub).length_le
  refine ⟨sSup (chainLengths r a), Nat.sSup_mem ⟨0, zero_mem_chainLengths r a⟩ ⟨names.length, hbound⟩, fun k hk => ?_⟩
  exact le_csSup ⟨names.length, hbound⟩ hk

/-! ## Longest chains of a graph -/

theorem HasHeight.le (h : HasHeight r names d) (ha : a ∈ names) (he : HasDepth r a e) : e ≤ d := h.2 ⟨a, ha, he.1⟩

/-- a name where a longest chain starts -/
theorem HasHeight.exists_top (h : HasHeight r names d) : ∃ a ∈ names, HasDepth r a d := by
  obtain ⟨a, ha, hd⟩ := h.1
  exact ⟨a, ha, hd, fun k hk => h.2 ⟨a, ha, hk⟩⟩

theorem exists_hasHeight (hdepth : ∀ a, ∃ d, HasDepth r a d) (hne : names ≠ []) : ∃ d, HasHeight r names d := by
  choose depth hdepth using hdepth
  obtain ⟨top, htop, hmax⟩ := names.toFinset.exists_max_image depth (List.toFinset_nonempty_iff names |>.2 hne)
  refine ⟨depth top, ⟨top, List.mem_toFinset.1 htop, (hdepth top).1⟩, ?_⟩
  intro k hsome
  obtain ⟨a, ha, hk⟩ := hsome
  exact ((hdepth a).2 hk).trans (hmax a (List.mem_toFinset.2 ha))

/-- the depth falls by one at every edge of a longest chain -/
theorem falls_of_longest {l : List String} (hl : (a :: l).IsChain r) (ha : HasDepth r a l.length) (hb : b ∈ a :: l) :
    Relation.ReflTransGen (Falls r) a b := by
  induction l generalizing a with
  | nil =>
    obtain rfl : b = a := by simpa using hb
    exact .refl
  | cons c l ih =>
    rw [List.isChain_cons_cons] at hl
    have hc : HasDepth r c l.length :=
      ⟨⟨l, hl.2, rfl⟩, fun k hk => Nat.le_of_succ_le_succ (ha.2 (succ_mem_chainLengths.2 ⟨c, hl.1, hk⟩))⟩
    rcases List.mem_cons.1 hb with rfl | hb
    · exact .refl
    · exact (ih hl.2 hc hb).head ⟨hl.1, l.length, ha, hc⟩

/-- a name reached by falls lies on a longest chain -/
theorem exists_longest_of_falls (ha : HasDepth r a d) (hab : Relation.ReflTransGen (Falls r) a b) :
    ∃ l, (a :: l).IsChain r ∧ l.length = d ∧ b ∈ a :: l := by
  induction hab using Relation.ReflTransGen.head_induction_on generalizing d with
  | refl =>
    obtain ⟨l, hl, hlen⟩ := ha.1
    exact ⟨l, hl, hlen, List.mem_cons_self⟩
  | head hac _ ih =>
    obtain ⟨hac, e, hd, hc⟩ := hac
    obtain rfl : d = e + 1 := ha.unique hd
    obtain ⟨l, hl, hlen, hb⟩ := ih hc
    exact ⟨_ :: l, List.isChain_cons_cons.2 ⟨hac, hl⟩, by simp [hlen], List.mem_cons_of_mem _ hb⟩

/-- **On a longest chain.** When some chain has an edge, a name lies on a longest chain exactly when it is reached by
falls from a name of the greatest depth. -/
theorem onChain_iff (hr : ∀ a b, r a b → a ∈ names) (hd : HasHeight r names (d + 1)) :
    OnChain r (d + 1) b ↔ ∃ a ∈ names, HasDepth r a (d + 1) ∧ Relation.ReflTransGen (Falls r) a b := by
  constructor
  · intro hsome
    obtain ⟨l, hl, hlen, hb⟩ := hsome
    match l, hlen with
    | a :: c :: l, hlen =>
      have ha : a ∈ names := hr a c (List.isChain_cons_cons.1 hl).1
      have hlen : (c :: l).length = d + 1 := by simpa using hlen
      have hdepth : HasDepth r a (c :: l).length := ⟨⟨c :: l, hl, rfl⟩, fun k hk => hlen ▸ hd.2 ⟨a, ha, hk⟩⟩
      exact ⟨a, ha, hlen ▸ hdepth, falls_of_longest hl hdepth hb⟩
  · intro hsome
    obtain ⟨a, -, ha, hab⟩ := hsome
    obtain ⟨l, hl, hlen, hb⟩ := exists_longest_of_falls ha hab
    exact ⟨a :: l, hl, by simp [hlen], hb⟩

end MakeAtlas.Graph
