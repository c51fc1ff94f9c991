/-
More rules never report less. A policy is widened by further custom rules, put in anywhere, and by naming more rules of
the catalog or none at all. Each rule judges a target by itself, so what was found is found again, in the same order,
between what the new rules find.
- `Policy.Widens`, `selected_sublist`: a wider policy selects the same rules among others.
- `active_sublist`: and so its checker has the same active rules among others.
- `findings_sublist`, `worst_mono`: a checker with more active rules finds the same and more, and nothing less severe.
- `check_of_sublist`: it reports each target that the other reports.
- `reports_of_widens`: so does the checker of a wider policy.
Witness: `narrow` names one rule of `houseRules`; `wide` names none and adds two rules of its own, one of them badly
written.
-/
import MakeAtlas.Proofs.Safety.Activation

namespace MakeAtlas.Safety

open Makefile (Target)

/-! ## Wider policies -/

/-- `q` is `p` with further custom rules anywhere in the list, and with the same rules of the catalog, or more of them,
or all -/
structure Policy.Widens (p q : Policy) : Prop where
  enabled : q.enabled = p.enabled
  excludedTargets : q.excludedTargets = p.excludedTargets
  enabledRules : q.enabledRules = p.enabledRules ∨ p.enabledRules ≠ [] ∧
    (q.enabledRules = [] ∨ p.enabledRules ⊆ q.enabledRules)
  customRules : p.customRules.Sublist q.customRules

variable {p q : Policy} {catalog : List Rule}

/-- an id that the narrow policy enables is enabled by the wide one -/
theorem Policy.Widens.enables (h : p.Widens q) {id : String} (hid : p.enabledRules = [] ∨ id ∈ p.enabledRules) :
    q.enabledRules = [] ∨ id ∈ q.enabledRules := by
  rcases h.enabledRules with hsame | ⟨hne, hall | hmore⟩
  · rwa [hsame]
  · exact .inl hall
  · rcases hid with hnone | hnamed
    · exact absurd hnone hne
    · exact .inr (hmore hnamed)

theorem selected_sublist (h : p.Widens q) (catalog : List Rule) :
    (p.selected catalog).Sublist (q.selected catalog) := by
  rw [Policy.selected, Policy.selected, h.enabled]
  refine List.Sublist.append ?_ h.customRules
  split
  · apply List.monotone_filter_right
    intro r hr
    have hnamed : p.enabledRules = [] ∨ r.id ∈ p.enabledRules := by simpa using hr
    simpa using h.enables hnamed
  · exact List.Sublist.refl _

namespace Checker

variable {c d : Checker} {t : Target} {v : Verdict} {fs gs : List Finding}

variable [Pattern.Dialect] in
theorem active_sublist (h : p.Widens q) (hc : build p catalog = .ok c) (hd : build q catalog = .ok d) :
    c.active.Sublist d.active := by
  rw [(build_eq_ok hc).2, (build_eq_ok hd).2]
  exact (selected_sublist h catalog).filterMap _

/-! ## More active rules -/

theorem findings_sublist (h : c.active.Sublist d.active) (t : Target) :
    (c.findings t).Sublist (d.findings t) := h.filterMap _

theorem worst_mono (h : fs.Sublist gs) : worst fs ≤ worst gs := worst_le_iff.2 fun _ hf => le_worst (h.subset hf)

/-- **More active rules.** With the same targets excluded, a target that is reported is reported again, with all that
was found. -/
theorem check_of_sublist (henabled : d.policy.enabled = c.policy.enabled)
    (hexcluded : d.policy.excludedTargets = c.policy.excludedTargets) (hactive : c.active.Sublist d.active)
    (hv : c.check t = some v) :
    ∃ w, d.check t = some w ∧ v.level ≤ w.level ∧ v.findings.Sublist w.findings := by
  obtain ⟨hon, hin, hne, rfl⟩ := check_eq_some_iff.1 hv
  have hfound : (c.findings t).Sublist (d.findings t) := findings_sublist hactive t
  have hne' : d.findings t ≠ [] := by
    intro hnil
    rw [hnil] at hfound
    exact hne (List.sublist_nil.1 hfound)
  exact ⟨_, check_eq_some_iff.2 ⟨henabled ▸ hon, hexcluded ▸ hin, hne', rfl⟩, worst_mono hfound, hfound⟩

variable [Pattern.Dialect] in
/-- **More rules never report less.** The checkers of a policy and of a wider one both exist, and what the first reports
the second reports too, at no lower level and with the same findings, in the same order, among its own. -/
theorem reports_of_widens (p q : Policy) (catalog : List Rule) (hforeseen : ∀ r ∈ catalog ++ q.customRules, r.Foreseen)
    (hwidens : p.Widens q) : ∃ c d, build p catalog = .ok c ∧ build q catalog = .ok d ∧ ∀ (t : Target) (v : Verdict),
      c.check t = some v → ∃ w, d.check t = some w ∧ v.level ≤ w.level ∧ v.findings.Sublist w.findings := by
  have hcustom : ∀ r ∈ catalog ++ p.customRules, r.Foreseen := by
    intro r hr
    rcases List.mem_append.1 hr with hcatalog | hcustom
    · exact hforeseen r (List.mem_append_left _ hcatalog)
    · exact hforeseen r (List.mem_append_right _ (hwidens.customRules.subset hcustom))
  have hc := build_of_foreseen hcustom
  have hd := build_of_foreseen hforeseen
  refine ⟨_, _, hc, hd, ?_⟩
  intro t v hv
  refine check_of_sublist ?_ ?_ (active_sublist hwidens hc hd) hv
  · exact hwidens.enabled
  · exact hwidens.excludedTargets

/-- one rule of the list, and one of its own -/
def narrow : Policy := { enabledRules := ["root"], customRules := [{ id := "srv", patterns := ["/srv"] }] }

/-- all rules of the list, with a bad one and a good one around the custom rule -/
def wide : Policy :=
  { customRules := [{ id := "open", patterns := ["("] }, { id := "srv", patterns := ["/srv"] },
      { id := "echo", patterns := ["^echo$"] }] }

theorem widens_narrow : narrow.Widens wide where
  enabled := rfl
  excludedTargets := rfl
  enabledRules := .inr ⟨by decide, .inl rfl⟩
  customRules := by decide

theorem found_narrow : ((build narrow houseRules).toOption.bind (·.check tidy)).map
    (fun v => (v.findings.map (·.rule.id), v.level)) = some (["root", "srv"], .warning) := by decide +kernel

/-- what the narrow policy finds in three lines is found again, between and before what the other rules find -/
theorem reports_of_widens_narrow : (∀ r ∈ houseRules ++ wide.customRules, r.Foreseen) ∧ narrow.Widens wide ∧
    ∃ c d v w, build narrow houseRules = .ok c ∧ build wide houseRules = .ok d ∧ c.check tidy = some v ∧
      v.findings.map (·.rule.id) = ["root", "srv"] ∧ d.check tidy = some w ∧ v.level ≤ w.level ∧
      v.findings.Sublist w.findings := by
  have hforeseen : ∀ r ∈ houseRules ++ wide.customRules, r.Foreseen := by decide +kernel
  obtain ⟨c, d, hc, hd, hreports⟩ := reports_of_widens narrow wide houseRules hforeseen widens_narrow
  have hfound := found_narrow
  rw [hc] at hfound
  obtain ⟨v, hv, hids⟩ := Option.map_eq_some_iff.1 hfound
  rw [Prod.mk.injEq] at hids
  obtain ⟨w, hw, hle, hsub⟩ := hreports tidy v hv
  exact ⟨hforeseen, widens_narrow, c, d, v, w, hc, hd, hv, hids.1, hw, hle, hsub⟩

end Checker

end MakeAtlas.Safety
