/-
The depths that the stack finds are those of the edges: the number of edges on the longest chain from each name.
- `hasDepth_depthAbove`: a name whose dependencies have their depths gets its own.
- `Settling.settles_ready`, `Settling.settles`: from the top of the stack, a name is settled in finitely many steps, and
  what lies under it on the stack is as before.
- `depths_eq_some`: in a closed graph without a loop every name gets its depth.
-/
import MakeAtlas.Graph.Chain
import MakeAtlas.Proofs.Graph.Edges

namespace MakeAtlas.Graph

open Relation

def Measured (g : Graph) (known : Depths) : Prop := ∀ e ∈ known, e.1 ∈ g.names ∧ HasDepth g.Waits e.1 e.2

theorem Measured.value? {g : Graph} {known : Depths} (h : Measured g known) {a : String} {d : ℕ}
    (ha : Entries.value? known a = some d) : HasDepth g.Waits a d := (h (a, d) (Entries.mem_of_value? ha)).2

theorem Measured.put {g : Graph} {known : Depths} (h : Measured g known) {a : String} {d : ℕ} (ha : a ∈ g.names)
    (hd : HasDepth g.Waits a d) : Measured g (Entries.put a d known) := by
  intro e he
  rcases Entries.mem_put he with rfl | he
  · exact ⟨ha, hd⟩
  · exact h e he

/-- a name whose dependencies have their depths gets its own -/
theorem hasDepth_depthAbove {g : Graph} {known : Depths} (h : Measured g known) {a : String} (ha : a ∈ g.names)
    (hdeps : ∀ b ∈ g.dependencies a, (known.value? b).isSome) :
    HasDepth g.Waits a (depthAbove ((g.dependencies a).filterMap known.value?)) := by
  unfold depthAbove
  split
  next hnone =>
    refine hasDepth_zero fun b hab => ?_
    obtain ⟨d, hd⟩ := Option.isSome_iff_exists.1 (hdeps b hab.2)
    rw [List.max?_eq_none_iff] at hnone
    have hmem : d ∈ (g.dependencies a).filterMap known.value? := List.mem_filterMap.2 ⟨b, hab.2, hd⟩
    rw [hnone] at hmem
    cases hmem
  next d hsome =>
    obtain ⟨hmem, hmax⟩ := List.max?_eq_some_iff.1 hsome
    obtain ⟨b, hb, hd⟩ := List.mem_filterMap.1 hmem
    refine hasDepth_of_below (fun c hac => ?_) ⟨b, ⟨ha, hb⟩, h.value? hd⟩
    obtain ⟨e, he⟩ := Option.isSome_iff_exists.1 (hdeps c hac.2)
    exact ⟨e, hmax e (List.mem_filterMap.2 ⟨c, hac.2, he⟩), h.value? he⟩

namespace Settling

/-- from `s`, whose stack begins with `names`, steps lead to `s'`: these names are off the stack and have their depths,
no depth is lost, and whatever waited on the way has its depth by now -/
structure Settles (g : Graph) (names : List String) (s s' : Settling) : Prop where
  runs : s.run g = s'.run g
  stack : s.stack = names ++ s'.stack
  measured : Measured g s'.known
  keeps : ∀ a, (s.known.value? a).isSome → (s'.known.value? a).isSome
  found : ∀ a ∈ names, (s'.known.value? a).isSome
  waited : ∀ a ∈ s'.waited, a ∈ s.waited ∨ (s'.known.value? a).isSome

/-- nothing that `name` leads to is waiting -/
def Free (g : Graph) (s : Settling) (name : String) : Prop :=
  ∀ a, ReflTransGen g.Waits name a → a ∈ s.waited → (s.known.value? a).isSome

theorem Settles.free {g : Graph} {names : List String} {s s' : Settling} (h : Settles g names s s') {name : String}
    (hf : Free g s name) : Free g s' name := by
  intro a hreach ha
  rcases h.waited a ha with ha | ha
  · exact h.keeps a (hf a hreach ha)
  · exact ha

theorem Settles.append {g : Graph} {names others : List String} {s s' s'' : Settling} (h : Settles g names s s')
    (h' : Settles g others s' s'') : Settles g (names ++ others) s s'' where
  runs := h.runs.trans h'.runs
  stack := by rw [h.stack, h'.stack, List.append_assoc]
  measured := h'.measured
  keeps a ha := h'.keeps a (h.keeps a ha)
  found a ha := (List.mem_append.1 ha).elim (fun ha => h'.keeps a (h.found a ha)) (h'.found a)
  waited a ha := by
    rcases h'.waited a ha with ha | ha
    · exact (h.waited a ha).imp_right (h'.keeps a)
    · exact .inr ha

theorem run_step {g : Graph} {s s' : Settling} (hs : s.stack ≠ []) (h : s.step g = some s') : s.run g = s'.run g := by
  rw [run, dif_neg hs]
  split
  next hn => rw [h] at hn; cases hn
  next s₁ hn => rw [h] at hn; cases hn; rfl

/-- one step settles a name that has its depth, or whose dependencies have theirs -/
theorem settles_ready {g : Graph} {s : Settling} {name : String} {stack : List String} (hs : s.stack = name :: stack)
    (hm : Measured g s.known) (hname : name ∈ g.names)
    (hready : (s.known.value? name).isSome ∨ ∀ b ∈ g.dependencies name, (s.known.value? b).isSome) :
    ∃ s', Settles g [name] s s' ∧ s'.stack = stack := by
  have hne : s.stack ≠ [] := by simp [hs]
  by_cases hk : (s.known.value? name).isSome
  · have hstep : s.step g = some { s with stack } := by simp [step, hs, hk]
    refine ⟨_, ⟨run_step hne hstep, hs, hm, fun _ ha => ha, fun a ha => ?_, fun a ha => .inl ha⟩, rfl⟩
    rwa [List.mem_singleton.1 ha]
  · have hdeps := hready.resolve_left hk
    have hpending : (g.dependencies name).filter (fun dep => (s.known.value? dep).isNone) = [] := by
      rw [List.filter_eq_nil_iff]
      intro b hb
      have := hdeps b hb
      rw [Option.isSome_iff_ne_none] at this
      simpa using this
    have hstep : s.step g = some
        { s with known := s.known.put name (depthAbove ((g.dependencies name).filterMap s.known.value?)), stack } := by
      simp [step, hs, hk, hpending]
    refine ⟨_, ⟨run_step hne hstep, hs, hm.put hname (hasDepth_depthAbove hm hname hdeps), fun a ha => ?_,
      fun a ha => ?_, fun a ha => .inl ha⟩, rfl⟩
    · rw [Entries.value?_put]
      split_ifs
      · rfl
      · exact ha
    · simp [List.mem_singleton.1 ha]

/-- names that can each be settled from the top of the stack are settled one after the other -/
theorem settles_all {g : Graph} (names : List String)
    (hone : ∀ name ∈ names, ∀ (s : Settling) (stack : List String), s.stack = name :: stack → Measured g s.known →
    Free g s name →
      ∃ s', Settles g [name] s s' ∧ s'.stack = stack)
    {s : Settling} {stack : List String} (hs : s.stack = names ++ stack) (hm : Measured g s.known)
    (hf : ∀ name ∈ names, Free g s name) : ∃ s', Settles g names s s' ∧ s'.stack = stack := by
  induction names generalizing s with
  | nil => exact ⟨s, ⟨rfl, rfl, hm, fun _ ha => ha, by simp, fun a ha => .inl ha⟩, hs⟩
  | cons name names ih =>
    obtain ⟨s₁, h₁, hstack⟩ := hone name List.mem_cons_self s _ hs hm (hf name List.mem_cons_self)
    obtain ⟨s', h', hs'⟩ := ih (fun n hn => hone n (List.mem_cons_of_mem _ hn)) hstack h₁.measured
      fun n hn => h₁.free (hf n (List.mem_cons_of_mem _ hn))
    exact ⟨s', h₁.append h', hs'⟩

/-- **A name on top of the stack is settled.** The induction goes down the edges: what is pending below a name is
settled first, and none of it leads back to the name, which waits meanwhile. -/
theorem settles {g : Graph} (hc : g.Closed) (hac : ¬ Cyclic g.Waits) (name : String) (hname : name ∈ g.names)
    (s : Settling) (stack : List String) (hs : s.stack = name :: stack) (hm : Measured g s.known) (hf : Free g s name) :
    ∃ s', Settles g [name] s s' ∧ s'.stack = stack := by
  have hwf := wellFounded_of_acyclic g.names (fun a b h => ⟨h.1, hc a h.1 b h.2⟩) hac
  induction name using hwf.induction generalizing s stack with
  | _ name ih =>
    by_cases hready : (s.known.value? name).isSome ∨ ∀ b ∈ g.dependencies name, (s.known.value? b).isSome
    · exact settles_ready hs hm hname hready
    obtain ⟨hk, hdeps⟩ := not_or.1 hready
    have hpending : (g.dependencies name).filter (fun dep => (s.known.value? dep).isNone) ≠ [] := by
      intro h0
      refine hdeps fun b hb => ?_
      simpa [Option.isSome_iff_ne_none] using List.filter_eq_nil_iff.1 h0 b hb
    have hnew : name ∉ s.waited := fun hw => hk (hf name .refl hw)
    let pending := (g.dependencies name).filter fun dep => (s.known.value? dep).isNone
    let s₁ : Settling := { s with waited := name :: s.waited, stack := pending.reverse ++ s.stack }
    have hstep : s.step g = some s₁ := by
      obtain ⟨dep, deps, hcons⟩ := List.exists_cons_of_ne_nil hpending
      simp [step, hs, hk, hcons, hnew, s₁, pending]
    have hfree : ∀ dep ∈ g.dependencies name, Free g s₁ dep := by
      intro dep hdep a hreach ha
      rcases List.mem_cons.1 ha with rfl | ha
      · exact absurd ⟨a, TransGen.head' ⟨hname, hdep⟩ hreach⟩ hac
      · exact hf a (hreach.head ⟨hname, hdep⟩) ha
    have hmem : ∀ dep ∈ pending.reverse, dep ∈ g.dependencies name := fun dep hdep =>
      List.mem_of_mem_filter (List.mem_reverse.1 hdep)
    obtain ⟨s₂, h₂, hs₂⟩ := settles_all (s := s₁) pending.reverse
      (fun dep hdep => ih dep ⟨hname, hmem dep hdep⟩ (hc name hname dep (hmem dep hdep))) rfl hm
      fun dep hdep => hfree dep (hmem dep hdep)
    have hall : ∀ dep ∈ g.dependencies name, (s₂.known.value? dep).isSome := by
      intro dep hdep
      by_cases hd : (s.known.value? dep).isSome
      · exact h₂.keeps dep hd
      · refine h₂.found dep (List.mem_reverse.2 (List.mem_filter.2 ⟨hdep, ?_⟩))
        simpa using hd
    obtain ⟨s₃, h₃, hs₃⟩ := settles_ready (hs₂.trans hs) h₂.measured hname (.inr hall)
    have hruns : s.run g = s₃.run g :=
      calc s.run g = s₁.run g := run_step (by simp [hs]) hstep
        _ = s₂.run g := h₂.runs
        _ = s₃.run g := h₃.runs
    refine ⟨s₃, ⟨hruns, by rw [hs, hs₃]; rfl, h₃.measured, fun a ha => h₃.keeps a (h₂.keeps a ha), h₃.found,
      fun a ha => ?_⟩, hs₃⟩
    rcases h₃.waited a ha with ha | ha
    · rcases h₂.waited a ha with ha | ha
      · rcases List.mem_cons.1 ha with rfl | ha
        · exact .inr (h₃.found a (List.mem_singleton_self a))
        · exact .inl ha
      · exact .inr (h₃.keeps a ha)
    · exact .inr ha

end Settling

/-- the names of a list are settled, one stack after the other -/
theorem foldlM_settling {g : Graph} (hc : g.Closed) (hac : ¬ Cyclic g.Waits) (names : List String)
    (hnames : ∀ a ∈ names, a ∈ g.names) {known : Depths} (hm : Measured g known) :
    ∃ known', names.foldlM (fun known name => Settling.run g { known, stack := [name] }) known = some known' ∧
      Measured g known' ∧ (∀ a, (known.value? a).isSome → (known'.value? a).isSome) ∧
      ∀ a ∈ names, (known'.value? a).isSome := by
  induction names generalizing known with
  | nil => exact ⟨known, rfl, hm, fun _ ha => ha, by simp⟩
  | cons name names ih =>
    obtain ⟨s', h, hs'⟩ := Settling.settles hc hac name (hnames name List.mem_cons_self)
      { known, stack := [name] } [] rfl hm
      fun a _ ha => absurd ha List.not_mem_nil
    have hrun : Settling.run g { known, stack := [name] } = some s'.known := by rw [h.runs, Settling.run, dif_pos hs']
    obtain ⟨known', hfold, hm', hkeeps, hfound⟩ := ih (fun a ha => hnames a (List.mem_cons_of_mem _ ha)) h.measured
    refine ⟨known', ?_, hm', fun a ha => hkeeps a (h.keeps a ha), fun a ha => ?_⟩
    · rw [List.foldlM_cons, hrun]
      exact hfold
    · rcases List.mem_cons.1 ha with rfl | ha
      · exact hkeeps a (h.found a (List.mem_singleton_self a))
      · exact hfound a ha

/-- **Every name gets its depth.** In a closed graph without a loop the stacks get empty, and what is found is the
number of edges on the longest chain from each name. -/
theorem depths_eq_some {g : Graph} (hc : g.Closed) (hac : ¬ Cyclic g.Waits) :
    ∃ known, depths g = some known ∧ Measured g known ∧ ∀ a ∈ g.names, (known.value? a).isSome := by
  have hnone : Measured g [] := fun e he => absurd he List.not_mem_nil
  obtain ⟨known, hknown, hm, -, hfound⟩ := foldlM_settling hc hac g.names (fun _ ha => ha) hnone
  exact ⟨known, hknown, hm, hfound⟩

end MakeAtlas.Graph
