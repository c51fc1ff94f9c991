/-
The rules that are active under two layers of settings. The lists of enabled rules of both layers become one list. An
empty list enables all rules where it stands alone, and adds no name to another list; so a layer that names rules
narrows down one that names none.
- `enabledRules_onto`, `customRules_onto`: what two layers enable together.
- `mem_selected_merge_iff`: a rule is selected when one of the layers selects it and it is not left out.
- `mem_rules_merge_iff`: the checker of both layers exists when those of the layers do, and its rules are theirs but
  those left out.
Counterexample `naming_narrows`: a project that names one rule switches off all others of the user.
-/
import MakeAtlas.Proofs.Safety.Removal
import MakeAtlas.Settings.Basic

namespace MakeAtlas.Settings

open MakeAtlas.Safety (Checker Policy Rule catalog removal)

section

variable {user project : Settings} {rules : List Rule} {r : Rule}

/-! ## Two layers -/

theorem enabled_onto (huser : user.policy.enabled = true) (hproject : project.policy.enabled = true) :
    (project.onto user).policy.enabled = true := by
  change project.checks.enabled.getD user.policy.enabled = true
  rw [huser]
  exact hproject

theorem enabledRules_onto (user project : Settings) :
    (project.onto user).policy.enabledRules = union user.policy.enabledRules project.policy.enabledRules := rfl

theorem customRules_onto (user project : Settings) :
    (project.onto user).policy.customRules = user.policy.customRules ++ project.policy.customRules := List.map_append

theorem mem_union_iff {xs ys : List String} {x : String} : x ∈ union xs ys ↔ x ∈ xs ∨ x ∈ ys := by
  rw [union, List.mem_eraseDups, List.mem_append]

theorem union_eq_nil_iff {xs ys : List String} : union xs ys = [] ↔ xs = [] ∧ ys = [] := by
  simp only [List.eq_nil_iff_forall_not_mem, mem_union_iff, not_or, forall_and]

/-! ## Rules that are left out -/

/-- one layer names rules, the other names none, and the rule with this id is not among the named ones -/
def LeftOut (user project : Settings) (id : String) : Prop :=
  (user.policy.enabledRules = [] ↔ project.policy.enabledRules ≠ []) ∧
    id ∉ user.policy.enabledRules ∧ id ∉ project.policy.enabledRules

/-- the joined list enables what one of the lists does, unless it is left out -/
theorem enables_union_iff (user project : Settings) (id : String) :
    (union user.policy.enabledRules project.policy.enabledRules = [] ∨
        id ∈ union user.policy.enabledRules project.policy.enabledRules) ↔
      ((user.policy.enabledRules = [] ∨ id ∈ user.policy.enabledRules) ∨
        (project.policy.enabledRules = [] ∨ id ∈ project.policy.enabledRules)) ∧ ¬ LeftOut user project id := by
  rw [union_eq_nil_iff, mem_union_iff, LeftOut]
  by_cases huser : user.policy.enabledRules = [] <;> by_cases hproject : project.policy.enabledRules = [] <;>
    simp [huser, hproject]

theorem mem_selected_merge_iff (huser : user.policy.enabled = true) (hproject : project.policy.enabled = true) :
    r ∈ (merge (some user) (some project)).policy.selected rules ↔
      (r ∈ user.policy.selected rules ∨ r ∈ project.policy.selected rules) ∧
        (¬ LeftOut user project r.id ∨ r ∈ user.policy.customRules ++ project.policy.customRules) := by
  simp only [merge, Policy.mem_selected_iff, enabledRules_onto, customRules_onto, enables_union_iff,
    enabled_onto huser hproject, huser, hproject, true_and, List.mem_append]
  tauto

/-! ## Rules that are active -/

/-- **Two layers narrow, and never lose a rule otherwise.** When both layers have a checker and check, so do the two
together; and a rule is active in it exactly when it is active in one of the layers, and is not left out or is a custom
rule. -/
theorem mem_rules_merge_iff [Pattern.Dialect] {below above : Checker}
    (hbelow : Checker.build user.policy rules = .ok below) (habove : Checker.build project.policy rules = .ok above)
    (huser : user.policy.enabled = true) (hproject : project.policy.enabled = true) :
    (merge (some user) (some project)).policy.enabled = true ∧
      ∃ c, Checker.build (merge (some user) (some project)).policy rules = .ok c ∧
        ∀ r, r ∈ c.rules ↔ (r ∈ below.rules ∨ r ∈ above.rules) ∧
          (¬ LeftOut user project r.id ∨ r ∈ user.policy.customRules ++ project.policy.customRules) := by
  refine ⟨enabled_onto huser hproject, ?_⟩
  have hselected : ∀ r ∈ (merge (some user) (some project)).policy.selected rules,
      r ∈ user.policy.selected rules ∨ r ∈ project.policy.selected rules :=
    fun r hr => ((mem_selected_merge_iff huser hproject).1 hr).1
  obtain ⟨c, hc⟩ := Checker.exists_build_iff.2 fun r hr bad hbad => (hselected r hr).elim
    (fun hlower => Checker.exists_build_iff.1 ⟨below, hbelow⟩ r hlower bad hbad)
    (fun hupper => Checker.exists_build_iff.1 ⟨above, habove⟩ r hupper bad hbad)
  refine ⟨c, hc, fun r => ?_⟩
  rw [Checker.mem_rules_iff hc, Checker.mem_rules_iff hbelow, Checker.mem_rules_iff habove, ← or_and_right,
    mem_selected_merge_iff huser hproject, and_right_comm]

end

/-- a project that names one rule of the catalog, and adds one -/
def resetOnly : Settings :=
  { safety := some { enabledRules := some ["git-reset-hard"],
                     customRules := some [{ id := "deploy", patterns := some ["deploy"] }] } }

theorem bad?_resetOnly : ∀ r ∈ resetOnly.policy.selected catalog, r.bad? = none := by decide +kernel

theorem exists_build_resetOnly : ∃ c, Checker.build resetOnly.policy catalog = .ok c := by
  refine Checker.exists_build_iff.2 fun r hr bad hbad => ?_
  rw [bad?_resetOnly r hr] at hbad
  cases hbad

theorem leftOut_removal : LeftOut {} resetOnly removal.id := by
  unfold LeftOut
  decide +kernel

/-- under the usual settings of a user the rule about forced removal is active; with this project over them it is left
out, the named rule stays, and the added rule is there -/
theorem mem_rules_merge_iff_resetOnly : ∃ below above c, Checker.build ({} : Settings).policy catalog = .ok below ∧
    removal ∈ below.rules ∧ Checker.build resetOnly.policy catalog = .ok above ∧
    Checker.build (merge (some {}) (some resetOnly)).policy catalog = .ok c ∧ removal ∉ c.rules ∧
    (∃ r ∈ c.rules, r.id = "git-reset-hard") ∧ ∃ r ∈ c.rules, r.id = "deploy" := by
  obtain ⟨below, (hbelow : Checker.build ({} : Settings).policy catalog = .ok below), hmem⟩ :=
    Safety.exists_build_removal
  obtain ⟨above, habove⟩ := exists_build_resetOnly
  obtain ⟨-, c, hc, hrules⟩ := mem_rules_merge_iff hbelow habove rfl rfl
  have habout : ∀ r ∈ resetOnly.policy.selected catalog, r ∈ above.rules :=
    fun r hr => (Checker.mem_rules_iff habove).2 ⟨hr, bad?_resetOnly r hr⟩
  refine ⟨below, above, c, hbelow, hmem, habove, hc, ?_, ?_, ?_⟩
  · have hcustom : removal ∉ ({} : Settings).policy.customRules ++ resetOnly.policy.customRules := by decide +kernel
    intro hr
    exact ((hrules removal).1 hr).2.elim (fun hkept => hkept leftOut_removal) hcustom
  · obtain ⟨r, hr, hid⟩ : ∃ r ∈ resetOnly.policy.selected catalog, r.id = "git-reset-hard" := by decide +kernel
    have hnamed : "git-reset-hard" ∈ resetOnly.policy.enabledRules := by decide
    exact ⟨r, (hrules r).2 ⟨.inr (habout r hr), .inl fun hleft => hleft.2.2 (hid ▸ hnamed)⟩, hid⟩
  · obtain ⟨r, hr, hid⟩ : ∃ r ∈ resetOnly.policy.customRules, r.id = "deploy" := by decide +kernel
    have hselected : r ∈ resetOnly.policy.selected catalog := Policy.mem_selected_iff.2 (.inr hr)
    exact ⟨r, (hrules r).2 ⟨.inr (habout r hselected), .inr (List.mem_append_right _ hr)⟩, hid⟩

/-- **Naming one rule switches off the others.** A project that names a rule, over a user's settings that name none. -/
theorem naming_narrows : ¬ ∀ (user project : Settings) (below above c : Checker),
    user.policy.enabled = true → project.policy.enabled = true →
    (merge (some user) (some project)).policy.enabled = true →
    Checker.build user.policy catalog = .ok below → Checker.build project.policy catalog = .ok above →
    Checker.build (merge (some user) (some project)).policy catalog = .ok c →
    ∀ r, r ∈ below.rules ∨ r ∈ above.rules → r ∈ c.rules := by
  intro hall
  obtain ⟨below, hbelow, hmem⟩ := Safety.exists_build_removal
  obtain ⟨above, habove⟩ := exists_build_resetOnly
  have hselected : removal ∉ (merge (some {}) (some resetOnly)).policy.selected catalog := by decide +kernel
  obtain ⟨c, hc⟩ : ∃ c, Checker.build (merge (some {}) (some resetOnly)).policy catalog = .ok c := by
    have hsame : (merge (some {}) (some resetOnly)).policy.selected catalog = resetOnly.policy.selected catalog := by
      decide +kernel
    rw [Checker.exists_build_iff, hsame]
    exact Checker.exists_build_iff.1 ⟨above, habove⟩
  have hactive : removal ∈ c.rules := hall {} resetOnly below above c rfl rfl rfl hbelow habove hc removal (.inl hmem)
  exact hselected ((Checker.mem_rules_iff hc).1 hactive).1

end MakeAtlas.Settings
