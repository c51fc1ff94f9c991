/-
The active rules of a policy, and what it skips. Selecting and reading go hand in hand, over the catalog and then over
the custom rules; what comes out is said here rule by rule.
- `Policy.choice`: the rules with a property among those that a policy selects.
- `choice_eq`: these are what the checker goes through.
- `forall₂_filterMap`, `forall₂_readable`: a rule that can be read is read pattern by pattern, and each other rule
  leaves one record.
- `activates_build`: the checker of a policy in which every pattern can be read or is badly written has just the rules
  that can be read, and one record, with the first bad pattern, for each of the others.
Witness: `mixed` over `teamRules`, with a good and a bad rule from the catalog, one that the policy does not name, and
custom rules of both kinds.
-/
import Mathlib.Tactic
import MakeAtlas.Proofs.Safety.Building

namespace MakeAtlas.Safety

/-! ## Selected rules -/

/-- the rules with a property that a policy selects: if checks are on, those of the catalog with an id that the policy
names, or all where it names none; and then the custom rules, whether checks are on or not -/
def Policy.choice (p : Policy) (catalog : List Rule) (Q : Rule → Prop) [DecidablePred Q] : List Rule :=
  (if p.enabled = true then catalog.filter fun r => (p.enabledRules = [] ∨ r.id ∈ p.enabledRules) ∧ Q r else []) ++
    p.customRules.filter Q

theorem Policy.choice_eq (p : Policy) (catalog : List Rule) (Q : Rule → Prop) [DecidablePred Q] :
    p.choice catalog Q = (p.selected catalog).filter Q := by
  have hnamed : ∀ r : Rule, (p.enabledRules.isEmpty || p.enabledRules.contains r.id) =
      decide (p.enabledRules = [] ∨ r.id ∈ p.enabledRules) := by
    intro r
    rw [Bool.eq_iff_iff]
    simp
  rw [choice, selected, List.filter_append]
  cases p.enabled with
  | false => rfl
  | true => simp only [if_true, List.filter_filter, hnamed, ← Bool.decide_and, and_comm]

/-- the members with a value, beside their values -/
theorem forall₂_filterMap {α β : Type} {R : α → β → Prop} {f : α → Option β} {l : List α}
    (h : ∀ a ∈ l, ∀ b, f a = some b → R a b) : List.Forall₂ R (l.filter fun a => (f a).isSome) (l.filterMap f) := by
  induction l with
  | nil => exact .nil
  | cons a l ih =>
    obtain ⟨ha, hl⟩ := List.forall_mem_cons.1 h
    cases hfa : f a with
    | none => simpa [hfa] using ih hl
    | some b => simpa [hfa] using ⟨ha b hfa, ih hl⟩

namespace Rule

/-! ## One rule -/

variable [Pattern.Dialect]

/-- each pattern of the rule can be read or is badly written; none is too much for the reader -/
def Foreseen (r : Rule) : Prop :=
  ∀ p ∈ r.patterns, (Pattern.compile p).toOption.isSome = true ∨ Pattern.compile p = .error .malformed

instance : DecidablePred Foreseen := fun r => List.decidableBAll
  (fun p => (Pattern.compile p).toOption.isSome = true ∨ Pattern.compile p = .error .malformed) r.patterns

/-- the record of a skipped rule names the rule and the first of its patterns that is badly written -/
structure SkippedAs (r : Rule) (bad : BadPattern) : Prop where
  rule : bad.rule = r.id
  malformed : Pattern.compile bad.pattern = .error .malformed
  first : ∃ before after, r.patterns = before ++ bad.pattern :: after ∧
    ∀ p ∈ before, (Pattern.compile p).toOption.isSome = true

variable {r : Rule} {bad : BadPattern}

theorem Foreseen.malformed (h : r.Foreseen) (hbad : r.bad? = some bad) : bad.fault = .malformed := by
  obtain ⟨-, hread, before, after, hsplit, -⟩ := bad?_eq_some_iff.1 hbad
  have hmem : bad.pattern ∈ r.patterns := by simp [hsplit]
  have hcases := h bad.pattern hmem
  rw [hread] at hcases
  rcases hcases with hgood | hbad
  · cases hgood
  · exact Except.error.inj hbad

theorem Foreseen.skippedAs (h : r.Foreseen) (hbad : r.bad? = some bad) : r.SkippedAs bad := by
  obtain ⟨hrule, hread, hfirst⟩ := bad?_eq_some_iff.1 hbad
  rw [h.malformed hbad] at hread
  exact ⟨hrule, hread, hfirst⟩

theorem forall₂_readable {ps : List String} (h : ∀ p ∈ ps, (Pattern.compile p).toOption.isSome = true) :
    List.Forall₂ (fun p n => Pattern.compile p = .ok n) ps (ps.filterMap fun p => (Pattern.compile p).toOption) := by
  have hread : ∀ p ∈ ps, ∀ n, (Pattern.compile p).toOption = some n → Pattern.compile p = .ok n := by
    intro p _ n hn
    cases hp : Pattern.compile p with
    | error fault =>
      rw [hp] at hn
      cases hn
    | ok m =>
      rw [hp] at hn
      exact congrArg Except.ok (Option.some.inj hn)
  have hbeside := forall₂_filterMap hread
  rwa [List.filter_eq_self.2 h] at hbeside

end Rule

namespace Checker

/-! ## All rules -/

section

variable [Pattern.Dialect]

/-- the active rules of a policy, each read as a whole, and a record for each rule that is skipped -/
structure Activates (p : Policy) (catalog : List Rule) (c : Checker) : Prop where
  policy : c.policy = p
  rules : c.rules = p.choice catalog Rule.Readable
  nodes : ∀ k ∈ c.active, List.Forall₂ (fun p n => Pattern.compile p = .ok n) k.rule.patterns k.nodes
  skipped : List.Forall₂ Rule.SkippedAs (p.choice catalog fun r => ¬ r.Readable) c.skipped

variable {p : Policy} {catalog rs : List Rule}

theorem foreseen_of_mem_selected (h : ∀ r ∈ catalog ++ p.customRules, r.Foreseen) :
    ∀ r ∈ p.selected catalog, r.Foreseen := by
  intro r hr
  rcases Policy.mem_selected_iff.1 hr with hcatalog | hcustom
  · exact h r (List.mem_append_left _ hcatalog.2.1)
  · exact h r (List.mem_append_right _ hcustom)

/-- a rule that is badly written at worst never stops the checker -/
theorem fatal?_of_foreseen (h : ∀ r ∈ rs, r.Foreseen) : fatal? rs = none := by
  refine fatal?_eq_none_iff.2 fun r hr bad hbad => ?_
  rw [BadPattern.fatal, (h r hr).malformed hbad]
  rfl

theorem build_of_foreseen (h : ∀ r ∈ catalog ++ p.customRules, r.Foreseen) :
    build p catalog = .ok (takeIn { policy := p } (p.selected catalog)) :=
  build_of_fatal? (fatal?_of_foreseen (foreseen_of_mem_selected h))

theorem rules_takeIn_policy (p : Policy) (catalog : List Rule) :
    (takeIn { policy := p } (p.selected catalog)).rules = p.choice catalog Rule.Readable := by
  have hgood : ∀ r ∈ p.selected catalog, r.bad?.isNone = decide r.Readable := by
    intro r _
    rw [Bool.eq_iff_iff, Option.isNone_iff_eq_none, Rule.bad?_eq_none_iff, decide_eq_true_iff]
  rw [rules_takeIn, Policy.choice_eq, List.filter_congr hgood]
  rfl

theorem nodes_takeIn_policy (p : Policy) (rs : List Rule) : ∀ k ∈ (takeIn { policy := p } rs).active,
    List.Forall₂ (fun p n => Pattern.compile p = .ok n) k.rule.patterns k.nodes := by
  intro k hk
  obtain ⟨r, hr, rfl⟩ := List.mem_map.1 hk
  have hnone : r.bad? = none := by simpa using (List.mem_filter.1 hr).2
  exact Rule.forall₂_readable (Rule.bad?_eq_none_iff.1 hnone)

theorem skipped_takeIn_policy (h : ∀ r ∈ p.selected catalog, r.Foreseen) : List.Forall₂ Rule.SkippedAs
    (p.choice catalog fun r => ¬ r.Readable) (takeIn { policy := p } (p.selected catalog)).skipped := by
  have hbad : ∀ r ∈ p.selected catalog, decide (¬ r.Readable) = r.bad?.isSome := by
    intro r _
    rw [Bool.eq_iff_iff, decide_eq_true_iff, ← Rule.bad?_eq_none_iff, Option.isSome_iff_ne_none]
  rw [Policy.choice_eq, List.filter_congr hbad]
  exact forall₂_filterMap fun r hr bad hfirst => (h r hr).skippedAs hfirst

/-- **The active rules.** A rule is active when the policy selects it and all its patterns can be read; each other
selected rule leaves one record, with its first bad pattern, and does nothing to the rules around it. -/
theorem activates_build (p : Policy) (catalog : List Rule) (h : ∀ r ∈ catalog ++ p.customRules, r.Foreseen) :
    ∃ c, build p catalog = .ok c ∧ Activates p catalog c := by
  refine ⟨_, build_of_foreseen h, rfl, rules_takeIn_policy p catalog, nodes_takeIn_policy p _, ?_⟩
  exact skipped_takeIn_policy (foreseen_of_mem_selected h)

end

/-- a good rule, one with two bad patterns behind a good one, and one more good rule -/
def teamRules : List Rule := [
  { id := "push", patterns := ["push\\s+-f"] },
  { id := "drop", patterns := ["drop", "(table", "["] },
  { id := "wipe", patterns := ["wipe"] }]

/-- two of these are named, the last one first; of the custom rules one is bad and one has no pattern at all -/
def mixed : Policy :=
  { enabledRules := ["drop", "push"],
    customRules := [{ id := "count", patterns := ["a\x7b2,1\x7d"] }, { id := "none" }] }

/-- the named good rule is active and so is the custom one; each of the others leaves its record -/
theorem activates_build_mixed : (∀ r ∈ teamRules ++ mixed.customRules, r.Foreseen) ∧
    ∃ c, build mixed teamRules = .ok c ∧ Activates mixed teamRules c ∧ c.rules.map (·.id) = ["push", "none"] ∧
      c.skipped.map (fun bad => (bad.rule, bad.pattern)) = [("drop", "(table"), ("count", "a\x7b2,1\x7d")] := by
  have hforeseen : ∀ r ∈ teamRules ++ mixed.customRules, r.Foreseen := by decide +kernel
  obtain ⟨c, hc, hactive⟩ := activates_build mixed teamRules hforeseen
  have hskipped : (build mixed teamRules).toOption.map (fun c => c.skipped.map fun bad => (bad.rule, bad.pattern)) =
      some [("drop", "(table"), ("count", "a\x7b2,1\x7d")] := by decide +kernel
  rw [hc] at hskipped
  refine ⟨hforeseen, c, hc, hactive, ?_, Option.some.inj hskipped⟩
  rw [hactive.rules]
  decide +kernel

end Checker

end MakeAtlas.Safety
