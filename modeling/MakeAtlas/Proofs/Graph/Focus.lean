/-
What a focus finds: the names within its reach, each once, the nearer ones first.
A name may wait in the queue more than once, with different numbers of steps, since it is found only when it leaves the
queue.
- `exists_hasDistance_le`: whatever is reached over some number of edges has a distance, and it is no greater.
- `HasDistance.exists_before`, `HasDistance.exists_of_le`: the last edge of a shortest way leaves a name that is nearer
  by one, so every smaller distance occurs on the way.
- `HasDistance.lt_length`: among `n` names, distances are below `n`.
- `Spread.Inv`: what holds at any time. The queue is in order of steps and spans at most two numbers of them, and
  whatever a found name offers is found or waits.
- `Spread.Inv.exists_waiting`: a name within reach that is not found has someone waiting no further out than it is.
- `Spread.Inv.hasDistance_head`: so the first in the queue, if it is new, waits with its distance.
- `Spread.step_inv`, `Spread.nearest_run`: a step keeps this, so does a run of finitely many, which leaves the queue
  empty.
- `around_focus`: the part of a built graph around a target, with its names, their order, its nodes and its root.
Witness: `detour`, with a loop, where a name is offered over two steps before it is found over one.
-/
import MakeAtlas.Graph.Focus
import MakeAtlas.Proofs.Graph.Edges
import MakeAtlas.Proofs.Graph.Wiring

/-! ## Distances

The number of edges on a shortest way from one name to another. -/

namespace MakeAtlas.Graph

open Relation

/-- `a` leads over `k` edges to `b` -/
inductive Leads (r : String → String → Prop) (a : String) : ℕ → String → Prop
  | here : Leads r a 0 a
  | tail {k : ℕ} {b c : String} : Leads r a k b → r b c → Leads r a (k + 1) c

/-- a shortest way from `a` to `b` has `k` edges -/
def HasDistance (r : String → String → Prop) (a b : String) (k : ℕ) : Prop := IsLeast {k | Leads r a k b} k

variable {r : String → String → Prop} {a b c : String} {j k : ℕ} {names : List String}

theorem Leads.reaches (h : Leads r a k b) : ReflTransGen r a b := by
  induction h with
  | here => exact .refl
  | tail _ hbc ih => exact ih.tail hbc

theorem exists_leads (h : ReflTransGen r a b) : ∃ k, Leads r a k b := by
  induction h with
  | refl => exact ⟨0, .here⟩
  | tail _ hbc ih =>
    obtain ⟨k, hk⟩ := ih
    exact ⟨k + 1, hk.tail hbc⟩

theorem HasDistance.unique (hj : HasDistance r a b j) (hk : HasDistance r a b k) : j = k := IsLeast.unique hj hk

theorem hasDistance_self (r : String → String → Prop) (a : String) :
    HasDistance r a a 0 := ⟨.here, fun _ _ => Nat.zero_le _⟩

theorem exists_hasDistance_le (h : Leads r a k b) : ∃ j ≤ k, HasDistance r a b j := by
  refine ⟨sInf {k | Leads r a k b}, Nat.sInf_le h, Nat.sInf_mem ⟨k, h⟩, fun i hi => Nat.sInf_le hi⟩

/-- the last edge of a shortest way leaves a name that is nearer by one -/
theorem HasDistance.exists_before (h : HasDistance r a b (k + 1)) : ∃ c, HasDistance r a c k ∧ r c b := by
  obtain ⟨hleads, hleast⟩ := h
  cases hleads with
  | tail hac hcb => exact ⟨_, ⟨hac, fun i hi => Nat.le_of_succ_le_succ (hleast (hi.tail hcb))⟩, hcb⟩

/-- on a shortest way every smaller distance occurs -/
theorem HasDistance.exists_of_le (h : HasDistance r a b k) (hj : j ≤ k) : ∃ c, HasDistance r a c j ∧
    ReflTransGen r c b := by
  induction k generalizing b with
  | zero =>
    obtain rfl : j = 0 := by omega
    exact ⟨b, h, .refl⟩
  | succ k ih =>
    rcases Nat.lt_or_eq_of_le hj with hlt | rfl
    · obtain ⟨c, hc, hcb⟩ := h.exists_before
      obtain ⟨d, hd, hdc⟩ := ih hc (Nat.le_of_lt_succ hlt)
      exact ⟨d, hd, hdc.tail hcb⟩
    · exact ⟨b, h, .refl⟩

/-- the names at the distances up to this one are different names -/
theorem HasDistance.lt_length (hr : ∀ a b, r a b → b ∈ names) (ha : a ∈ names) (h : HasDistance r a b k) :
    k < names.length := by
  have hmem : ∀ {c : String} {i : ℕ}, HasDistance r a c i → c ∈ names := by
    intro c i hc
    rcases hc.1.reaches.cases_tail with rfl | ⟨d, -, hdc⟩
    · exact ha
    · exact hr d c hdc
  have hat : ∀ i ≤ k, ∃ c, HasDistance r a c i := fun i hi => (h.exists_of_le hi).imp fun _ hc => hc.1
  choose! nameAt hat using hat
  have hle : (Finset.range (k + 1)).card ≤ names.toFinset.card := by
    refine Finset.card_le_card_of_injOn nameAt (fun i hi => ?_) fun i hi j hj hij => ?_
    · rw [Finset.mem_coe, Finset.mem_range] at hi
      exact List.mem_toFinset.2 (hmem (hat i (by omega)))
    · rw [Finset.mem_coe, Finset.mem_range] at hi hj
      have hi' := hat i (by omega)
      rw [hij] at hi'
      exact hi'.unique (hat j (by omega))
  rw [Finset.card_range] at hle
  exact hle.trans names.toFinset_card_le

/-- a shortest way keeps to names that are no further out than its end -/
theorem HasDistance.reaches_within {reach : ℕ} (h : HasDistance r a b k) (hk : k ≤ reach) :
    ReflTransGen (fun x y => r x y ∧ (∃ i ≤ reach, HasDistance r a x i) ∧ ∃ i ≤ reach, HasDistance r a y i) a b := by
  induction k generalizing b with
  | zero =>
    cases h.1
    exact .refl
  | succ k ih =>
    obtain ⟨c, hc, hcb⟩ := h.exists_before
    exact (ih hc (by omega)).tail ⟨hcb, ⟨k, by omega, hc⟩, k + 1, hk, h⟩

end MakeAtlas.Graph

namespace MakeAtlas.Graph

open Relation
open Makefile (Target)

/-- an edge of the node of this name -/
def Needs (store : List Node) (a b : String) : Prop := b ∈ dependenciesIn store a

/-- what a focus on `start` finds: all within reach, each once, the nearer ones first -/
structure Nearest (r : String → String → Prop) (reach : ℕ) (start : String) (names : List String) : Prop where
  mem_iff : ∀ a, a ∈ names ↔ ∃ k ≤ reach, HasDistance r start a k
  nodup : names.Nodup
  sorted : names.Pairwise fun a b => ∀ j k, HasDistance r start a j → HasDistance r start b k → j ≤ k

namespace Spread

/-! ## What a spread keeps -/

structure Inv (store : List Node) (reach : ℕ) (start : String) (s : Spread) : Prop where
  nodup : s.found.Nodup
  near : ∀ a ∈ s.found, ∃ k ≤ reach, HasDistance (Needs store) start a k
  sorted : s.found.Pairwise fun a b => ∀ j k, HasDistance (Needs store) start a j →
    HasDistance (Needs store) start b k → j ≤ k
  /-- what is found is no further out than what waits -/
  behind : ∀ a ∈ s.found, ∀ k, HasDistance (Needs store) start a k → ∀ e ∈ s.queue, k ≤ e.2
  queued : ∀ e ∈ s.queue, e.2 ≤ reach ∧ Leads (Needs store) start e.2 e.1
  ordered : s.queue.Pairwise (·.2 ≤ ·.2)
  span : ∀ e ∈ s.queue, ∀ f ∈ s.queue, f.2 ≤ e.2 + 1
  start_mem : start ∈ s.found ∨ (start, 0) ∈ s.queue
  /-- what a found name offers is found or waits -/
  offered : ∀ a ∈ s.found, ∀ k < reach, HasDistance (Needs store) start a k → ∀ b, Needs store a b →
    b ∈ s.found ∨ (b, k + 1) ∈ s.queue

variable {store : List Node} {reach : ℕ} {start name : String} {steps : ℕ} {s : Spread} {queue : List (String × ℕ)}

theorem start_inv (store : List Node) (reach : ℕ) (start : String) :
    Inv store reach start { queue := [(start, 0)] } where
  nodup := List.nodup_nil
  near a ha := by cases ha
  sorted := .nil
  behind a ha := by cases ha
  queued e he := by
    obtain rfl := List.mem_singleton.1 he
    exact ⟨Nat.zero_le _, .here⟩
  ordered := List.pairwise_singleton _ _
  span e he f hf := by
    obtain rfl := List.mem_singleton.1 he
    obtain rfl := List.mem_singleton.1 hf
    exact Nat.le_succ _
  start_mem := .inr (List.mem_singleton_self _)
  offered a ha := by cases ha

/-- **Someone waits on every way out.** If a name within reach is not found, the first name on a way to it that is not
found waits in the queue, with no more steps than lead to it. -/
theorem Inv.exists_waiting (h : Inv store reach start s) {b : String} {k : ℕ} (hb : Leads (Needs store) start k b)
    (hk : k ≤ reach) (hnew : b ∉ s.found) : ∃ e ∈ s.queue, e.2 ≤ k := by
  induction hb with
  | here => exact ⟨_, h.start_mem.resolve_left hnew, le_rfl⟩
  | @tail k a b ha hab ih =>
    by_cases hfound : a ∈ s.found
    · obtain ⟨j, hj, hdist⟩ := exists_hasDistance_le ha
      have hwaits : (b, j + 1) ∈ s.queue := (h.offered a hfound j (by omega) hdist b hab).resolve_left hnew
      exact ⟨_, hwaits, Nat.succ_le_succ hj⟩
    · obtain ⟨e, he, hle⟩ := ih (by omega) hfound
      exact ⟨e, he, hle.trans (Nat.le_succ k)⟩

/-- **The first in the queue waits with its distance,** if it was not found before. -/
theorem Inv.hasDistance_head (h : Inv store reach start s) (hq : s.queue = (name, steps) :: queue)
    (hnew : name ∉ s.found) :
    HasDistance (Needs store) start name steps := by
  have hhead : (name, steps) ∈ s.queue := hq ▸ List.mem_cons_self
  obtain ⟨hreach, hleads⟩ := h.queued _ hhead
  refine ⟨hleads, fun j hj => ?_⟩
  by_contra hlt
  obtain ⟨e, he, hle⟩ := h.exists_waiting hj (by omega) hnew
  -- nobody in the queue waits with fewer steps than the first
  have hfirst : steps ≤ e.2 := by
    have hord := h.ordered
    rw [hq] at he hord
    rcases List.mem_cons.1 he with rfl | he
    · exact le_rfl
    · exact (List.pairwise_cons.1 hord).1 e he
  omega

theorem mem_offers {found : List String} {e : String × ℕ} :
    e ∈ offers store reach found name steps ↔ steps < reach ∧ Needs store name e.1 ∧ e.1 ∉ found ∧ e.2 = steps + 1 := by
  unfold offers Needs
  split_ifs with h
  · simp only [List.mem_map, List.mem_filter, Bool.not_eq_true', List.contains_eq_mem,
      decide_eq_false_iff_not, h, true_and]
    constructor
    · rintro ⟨b, ⟨hdep, hnew⟩, rfl⟩
      exact ⟨hdep, hnew, rfl⟩
    · rintro ⟨hdep, hnew, hsteps⟩
      exact ⟨e.1, ⟨hdep, hnew⟩, Prod.ext rfl hsteps.symm⟩
  · simp [h]

/-- a name that was found before leaves the queue -/
theorem Inv.pass (h : Inv store reach start s) (hq : s.queue = (name, steps) :: queue) (hold : name ∈ s.found) :
    Inv store reach start { s with queue } := by
  have hsub : ∀ e ∈ queue, e ∈ s.queue := fun e he => hq ▸ List.mem_cons_of_mem _ he
  have hrest : ∀ e ∈ s.queue, e.1 ∈ s.found ∨ e ∈ queue := by
    intro e he
    rw [hq] at he
    rcases List.mem_cons.1 he with rfl | he
    · exact .inl hold
    · exact .inr he
  refine ⟨h.nodup, h.near, h.sorted, fun a ha k hk e he => h.behind a ha k hk e (hsub e he),
    fun e he => h.queued e (hsub e he), ?_, fun e he f hf => h.span e (hsub e he) f (hsub f hf), ?_,
    fun a ha k hk hdist b hb => ?_⟩
  · have hord := h.ordered
    rw [hq] at hord
    exact (List.pairwise_cons.1 hord).2
  · exact h.start_mem.elim .inl (hrest _)
  · exact (h.offered a ha k hk hdist b hb).elim .inl (hrest _)

/-! ## A new name is found -/

section Found

variable (h : Inv store reach start s) (hq : s.queue = (name, steps) :: queue) (hnew : name ∉ s.found)

include h hq hnew in
/-- what is found by then is no further out than the new name -/
theorem Inv.le_of_mem_found {a : String} (ha : a ∈ s.found ++ [name]) {k : ℕ}
    (hk : HasDistance (Needs store) start a k) :
    k ≤ steps := by
  rcases List.mem_append.1 ha with ha | ha
  · exact h.behind a ha k hk (name, steps) (hq ▸ List.mem_cons_self)
  · rw [List.mem_singleton.1 ha] at hk
    exact (hk.unique (h.hasDistance_head hq hnew)).le

include h hq in
/-- whoever waits then has as many steps as the new name, or one more -/
theorem Inv.steps_of_mem_queue {found : List String} {e : String × ℕ}
    (he : e ∈ queue ++ offers store reach found name steps) :
    steps ≤ e.2 ∧ e.2 ≤ steps + 1 := by
  rcases List.mem_append.1 he with he | he
  · have hord := h.ordered
    rw [hq, List.pairwise_cons] at hord
    exact ⟨hord.1 e he, h.span (name, steps) (hq ▸ List.mem_cons_self) e (hq ▸ List.mem_cons_of_mem _ he)⟩
  · obtain ⟨-, -, -, hsteps⟩ := mem_offers.1 he
    omega

include h hq in
/-- the queue stays in order of steps: what is offered comes last, with one step more than the new name -/
theorem Inv.ordered_append_offers (found : List String) :
    (queue ++ offers store reach found name steps).Pairwise (·.2 ≤ ·.2) := by
  have hoffer : ∀ e ∈ offers store reach found name steps, e.2 = steps + 1 := fun e he => (mem_offers.1 he).2.2.2
  have hord := h.ordered
  rw [hq, List.pairwise_cons] at hord
  rw [List.pairwise_append]
  refine ⟨hord.2, List.pairwise_of_forall_mem_list fun e he f hf => ?_, fun e he f hf => ?_⟩
  · rw [hoffer e he, hoffer f hf]
  · have hmem : e ∈ queue ++ offers store reach found name steps := List.mem_append_left _ he
    rw [hoffer f hf]
    exact (h.steps_of_mem_queue hq hmem).2

include h hq hnew in
/-- a name that is new is found, and what it offers joins the queue -/
theorem Inv.find : Inv store reach start
    { found := s.found ++ [name], queue := queue ++ offers store reach (s.found ++ [name]) name steps } := by
  have hhead : (name, steps) ∈ s.queue := hq ▸ List.mem_cons_self
  have hdist : HasDistance (Needs store) start name steps := h.hasDistance_head hq hnew
  have hrest : ∀ e ∈ s.queue, e.1 ∈ s.found ++ [name] ∨
    e ∈ queue ++ offers store reach (s.found ++ [name]) name steps := by
    intro e he
    rw [hq] at he
    rcases List.mem_cons.1 he with rfl | he
    · exact .inl List.mem_concat_self
    · exact .inr (List.mem_append_left _ he)
  refine ⟨?_, ?_, ?_, ?_, ?_, h.ordered_append_offers hq _, ?_, ?_, ?_⟩
  · rw [← List.concat_eq_append, List.nodup_concat]
    exact ⟨hnew, h.nodup⟩
  · intro a ha
    rcases List.mem_append.1 ha with ha | ha
    · exact h.near a ha
    · rw [List.mem_singleton.1 ha]
      exact ⟨steps, (h.queued _ hhead).1, hdist⟩
  · rw [List.pairwise_append]
    refine ⟨h.sorted, List.pairwise_singleton _ _, fun a ha b hb j k hj hk => ?_⟩
    rw [List.mem_singleton.1 hb] at hk
    rw [hk.unique hdist]
    exact h.le_of_mem_found hq hnew (List.mem_append_left _ ha) hj
  · exact fun a ha k hk e he => (h.le_of_mem_found hq hnew ha hk).trans (h.steps_of_mem_queue hq he).1
  · intro e he
    rcases List.mem_append.1 he with he | he
    · exact h.queued e (hq ▸ List.mem_cons_of_mem _ he)
    · obtain ⟨hlt, hneeds, -, hsteps⟩ := mem_offers.1 he
      rw [hsteps]
      exact ⟨hlt, hdist.1.tail hneeds⟩
  · intro e he f hf
    have hfirst := h.steps_of_mem_queue hq he
    have hsecond := h.steps_of_mem_queue hq hf
    omega
  · exact h.start_mem.elim (fun hstart => .inl (List.mem_append_left _ hstart)) (hrest _)
  · intro a ha k hk hk' b hb
    by_cases hfound : b ∈ s.found ++ [name]
    · exact .inl hfound
    rcases List.mem_append.1 ha with ha | ha
    · rcases h.offered a ha k hk hk' b hb with hold | hwaits
      · exact absurd (List.mem_append_left _ hold) hfound
      · exact hrest _ hwaits
    · rw [List.mem_singleton.1 ha] at hk' hb
      obtain rfl : k = steps := hk'.unique hdist
      exact .inr (List.mem_append_right _ (mem_offers.2 ⟨hk, hb, hfound, rfl⟩))

end Found

/-! ## Steps and runs -/

/-- **A step keeps all this.** -/
theorem step_inv (h : Inv store reach start s) : Inv store reach start (s.step store reach) := by
  unfold step
  split
  next => exact h
  next name steps queue hq =>
    split
    next hold => exact h.pass hq (by simpa using hold)
    next hnew => exact h.find hq (by simpa using hnew)

/-- **A run is finitely many steps.** They leave no one in the queue. -/
theorem exists_iterate_step (store : List Node) (reach : ℕ) (s : Spread) :
    ∃ n, (step store reach)^[n] s = { found := s.run store reach, queue := [] } := by
  induction s using run.induct store reach with
  | case1 s hq =>
    refine ⟨0, ?_⟩
    rw [run, dif_pos hq, ← hq]
    rfl
  | case2 s hq ih =>
    obtain ⟨n, hn⟩ := ih
    refine ⟨n + 1, ?_⟩
    rw [run, dif_neg hq]
    exact hn

theorem iterate_step_inv (h : Inv store reach start s) (n : ℕ) : Inv store reach start ((step store reach)^[n] s) := by
  induction n generalizing s with
  | zero => exact h
  | succ n ih => exact ih (step_inv h)

/-- once the queue is empty, all within reach are found -/
theorem Inv.nearest (h : Inv store reach start s) (hq : s.queue = []) : Nearest (Needs store) reach start s.found := by
  refine ⟨fun a => ⟨h.near a, ?_⟩, h.nodup, h.sorted⟩
  rintro ⟨k, hk, hdist⟩
  by_contra hnew
  obtain ⟨e, he, -⟩ := h.exists_waiting hdist.1 hk hnew
  rw [hq] at he
  cases he

/-- **A run finds the names within reach, the nearer ones first.** -/
theorem nearest_run (store : List Node) (reach : ℕ) (start : String) :
    Nearest (Needs store) reach start (run store reach { queue := [(start, 0)] }) := by
  obtain ⟨n, hn⟩ := exists_iterate_step store reach { queue := [(start, 0)] }
  have hinv := iterate_step_inv (start_inv store reach start) n
  rw [hn] at hinv
  exact hinv.nearest rfl

end Spread

/-! ## Parts of built graphs -/

theorem focus_of_has {g : Graph} {name : String} (h : g.has name = true) (depth : ℤ) : g.focus name depth =
    ⟨g.store, Spread.run g.store (reachOf depth) { queue := [(name, 0)] }, [name], g.cycle, []⟩ := by
  rw [focus, if_pos h]

theorem nearest_focus {g : Graph} {name : String} (h : g.has name = true) (depth : ℤ) :
    Nearest (Needs g.store) (reachOf depth) name (g.focus name depth).names := by
  rw [focus_of_has h]
  exact Spread.nearest_run _ _ _

theorem Wired.waits_of_mem {g : Graph} (hg : Wired g) {a b : String} (h : b ∈ g.dependencies a) : g.Waits a b := by
  refine ⟨?_, h⟩
  rw [hg.names_eq, ← lookup_isSome]
  rw [dependencies, dependenciesIn] at h
  cases hl : lookup g.store a with
  | none =>
    rw [hl] at h
    cases h
  | some n => rfl

/-- the edges of a wired graph all begin at its own names -/
theorem Wired.needs_eq {g : Graph} (hg : Wired g) : Needs g.store = g.Waits := by
  funext a b
  exact propext ⟨hg.waits_of_mem, fun h => h.2⟩

/-- whatever is reached from a name of a wired graph is one of its names -/
theorem Wired.mem_names_of_reaches {g : Graph} (hg : Wired g) {a b : String} (ha : a ∈ g.names)
    (h : ReflTransGen (Needs g.store) a b) : b ∈ g.names := by
  rw [hg.needs_eq] at h
  rcases h.cases_tail with rfl | ⟨c, -, hcb⟩
  · exact ha
  · exact hg.closed c hcb.1 b hcb.2

/-- whatever is reached from a name of a wired graph is nearer than there are names -/
theorem Wired.exists_hasDistance_lt {g : Graph} (hg : Wired g) {a b : String} (ha : a ∈ g.names)
    (h : ReflTransGen g.Waits a b) :
    ∃ k < g.names.length, HasDistance g.Waits a b k := by
  obtain ⟨j, hj⟩ := exists_leads h
  obtain ⟨k, -, hdist⟩ := exists_hasDistance_le hj
  exact ⟨k, hdist.lt_length (fun c d hcd => hg.closed c hcd.1 d hcd.2) ha, hdist⟩

/-- a part of a wired graph owns names of that graph only -/
theorem Wired.names_focus_subset {g : Graph} (hg : Wired g) {name : String} (h : g.has name = true)
    (depth : ℤ) {a : String} (ha : a ∈ (g.focus name depth).names) : a ∈ g.names := by
  obtain ⟨k, -, hdist⟩ := ((nearest_focus h depth).mem_iff a).1 ha
  exact hg.mem_names_of_reaches (List.contains_iff_mem.1 h) hdist.1.reaches

/-- each of these names has its node -/
theorem map_name_filterMap_lookup {store : List Node} {names : List String} (h : ∀ a ∈ names, (lookup store a).isSome) :
    (names.filterMap (lookup store)).map (·.name) = names := by
  induction names with
  | nil => rfl
  | cons a names ih =>
    obtain ⟨n, hn⟩ := Option.isSome_iff_exists.1 (h a List.mem_cons_self)
    rw [List.filterMap_cons_some hn, List.map_cons, lookup_name hn, ih fun b hb => h b (List.mem_cons_of_mem _ hb)]

/-- `p` is the part of `g` within `reach` steps of `name` along `r` -/
structure Around (g : Graph) (r : String → String → Prop) (name : String) (reach : ℕ) (p : Graph) : Prop where
  nearest : Nearest r reach name p.names
  /-- there is one node for each name, the one that the whole graph has -/
  named : p.nodes.map (·.name) = p.names
  shared : ∀ a ∈ p.names, p.node? a = g.node? a
  roots : p.roots = [name]

/-- **A focus is the part within its reach.** On every built graph, with a loop or without, the queue of a focus gets
empty, and the part has just the names at most as far from the target as the depth says, each once and the nearer ones
first, with the nodes of the whole graph and the target as its only root. Without a depth these are all names that are
reached from the target, if there are no more than a million. -/
theorem around_focus (ts : List Target) {name : String} (h : (build ts).has name = true) (depth : ℤ) :
    (∃ n, (Spread.step (build ts).store (reachOf depth))^[n] { queue := [(name, 0)] } =
      { found := ((build ts).focus name depth).names, queue := [] }) ∧
      Around (build ts) (Depends ts) name (if depth < 0 then 999999 else depth.toNat) ((build ts).focus name depth) ∧
      (depth < 0 → (build ts).names.length ≤ 1000000 →
        ∀ a, a ∈ ((build ts).focus name depth).names ↔ ReflTransGen (Depends ts) name a) := by
  have hg : Wired (build ts) := wired_build ts
  have hneeds : Needs (build ts).store = Depends ts := hg.needs_eq.trans (waits_build ts)
  have hnearest : Nearest (Depends ts) (reachOf depth) name ((build ts).focus name depth).names :=
    hneeds ▸ nearest_focus h depth
  have hstore : ((build ts).focus name depth).store = (build ts).store := by rw [focus_of_has h]
  refine ⟨?_, ⟨hnearest, ?_, fun a ha => ?_, by rw [focus_of_has h]⟩, fun hneg hsmall a => ?_⟩
  · rw [focus_of_has h]
    exact Spread.exists_iterate_step _ _ _
  · rw [nodes, hstore]
    apply map_name_filterMap_lookup
    intro a ha
    rw [lookup_isSome, ← hg.names_eq]
    exact hg.names_focus_subset h depth ha
  · have hwhole : (build ts).has a = true := List.contains_iff_mem.2 (hg.names_focus_subset h depth ha)
    have hpart : ((build ts).focus name depth).has a = true := List.contains_iff_mem.2 ha
    rw [node?, node?, if_pos hpart, if_pos hwhole, hstore]
  · rw [hnearest.mem_iff]
    constructor
    · rintro ⟨k, -, hdist⟩
      exact hdist.1.reaches
    · intro hreach
      rw [← waits_build] at hreach
      obtain ⟨k, hlt, hdist⟩ := hg.exists_hasDistance_lt (List.contains_iff_mem.1 h) hreach
      rw [waits_build] at hdist
      refine ⟨k, ?_, hdist⟩
      rw [reachOf, if_pos hneg, unlimitedReach]
      omega

/-- `c` is offered over two steps by `b` while it waits with one step from `a`, and `d` leads back to `a` -/
def detour : List Target :=
  [{ name := "a", dependencies := ["b", "c"] }, { name := "b", dependencies := ["c"] },
    { name := "c", dependencies := ["d"] }, { name := "d", dependencies := ["a", "e"] }]

theorem around_focus_detour :
    (build detour).has "a" = true ∧
      Around (build detour) (Depends detour) "a" 2 ((build detour).focus "a" 2) ∧
      (build detour).names.length ≤ 1000000 ∧
      ∀ a, a ∈ ((build detour).focus "a" (-1)).names ↔ ReflTransGen (Depends detour) "a" a := by
  have hhas : (build detour).has "a" = true := has_build (by decide)
  have hsmall : (build detour).names.length ≤ 1000000 := by
    rw [names_build]
    decide
  exact ⟨hhas, (around_focus detour hhas 2).2.1, hsmall, (around_focus detour hhas (-1)).2.2 (by decide) hsmall⟩

end MakeAtlas.Graph
