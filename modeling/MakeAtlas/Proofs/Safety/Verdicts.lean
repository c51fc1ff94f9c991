/-
What a verdict says about each line of a recipe. A rule is judged by the first line that it matches, and by no other.
- `worst_le_iff`, `exists_worst`: the level of a verdict is the least upper bound of its findings, and one of them has
  it.
- `check_eq_some_iff`: there is a verdict when checks are on, the target is not excluded, and something was found.
- `exists_level`: one of the findings has the level of the verdict.
- `find?_of_line`: a rule that matches a line is found in every recipe with that line, there or on an earlier line.
- `check_of_line`: so no rule is lost among other lines; and the level is at least the level of each line alone, unless
  an earlier line takes the place of all findings of that level, with a lower severity.
Witness `milder_line_masks`: a command that asks before it acts, followed by one of the same rule that does not.
-/
import Mathlib.Tactic
import MakeAtlas.Machine
import MakeAtlas.Safety.Catalog
import MakeAtlas.Safety.Checker

namespace MakeAtlas.Safety

open Makefile (Target)

/-! ## The worst finding -/

namespace Severity

variable {a b s : Severity}

theorem le_refl (s : Severity) : s ≤ s := Nat.le_refl s.rank

theorem le_trans (hab : a ≤ b) (hbs : b ≤ s) : a ≤ s := Nat.le_trans hab hbs

theorem max_le_iff : max a b ≤ s ↔ a ≤ s ∧ b ≤ s := by
  cases a <;> cases b <;> cases s <;> decide

theorem info_le (s : Severity) : info ≤ s := Nat.zero_le s.rank

theorem le_info_iff : s ≤ info ↔ s = info := by
  cases s <;> decide

theorem critical_le_iff : critical ≤ s ↔ s = critical := by
  cases s <;> decide

theorem le_downgrade (h : a ≤ s) (hne : a ≠ s) : a ≤ s.downgrade := by
  revert h hne
  cases a <;> cases s <;> decide

theorem le_downgrade_iff : s ≤ s.downgrade ↔ s = info := by
  cases s <;> decide

end Severity

namespace Checker

variable {f : Finding} {fs : List Finding}

theorem foldl_max_le_iff {start s : Severity} :
    fs.foldl (fun s f => max s f.severity) start ≤ s ↔ start ≤ s ∧ ∀ f ∈ fs, f.severity ≤ s := by
  induction fs generalizing start with
  | nil => simp
  | cons f fs ih => rw [List.foldl_cons, ih, Severity.max_le_iff, and_assoc, List.forall_mem_cons]

theorem worst_le_iff {s : Severity} : worst fs ≤ s ↔ ∀ f ∈ fs, f.severity ≤ s := by
  rw [worst, foldl_max_le_iff, and_iff_right (Severity.info_le s)]

theorem le_worst (h : f ∈ fs) : f.severity ≤ worst fs := worst_le_iff.1 (Severity.le_refl _) f h

theorem exists_worst (hne : fs ≠ []) : ∃ f ∈ fs, f.severity = worst fs := by
  by_contra hno
  have hother : ∀ f ∈ fs, f.severity ≠ worst fs := fun f hf h => hno ⟨f, hf, h⟩
  have hbelow : worst fs ≤ (worst fs).downgrade :=
    worst_le_iff.2 fun f hf => Severity.le_downgrade (le_worst hf) (hother f hf)
  have hinfo : worst fs = .info := Severity.le_downgrade_iff.1 hbelow
  obtain ⟨f, hf⟩ := List.exists_mem_of_ne_nil fs hne
  have hle : f.severity ≤ .info := hinfo ▸ le_worst hf
  exact hother f hf (by rw [hinfo, Severity.le_info_iff.1 hle])

/-! ## One rule -/

variable {c : Checker} {t one : Target} {r : Compiled} {v : Verdict} {line : String} {before after : List String}

theorem find?_of_line_alone (hone : one.recipe = [line]) (hf : find? one r = some f) :
    r.matchesLine line = true ∧ f = ⟨r.rule, line, adjust one.name line r.rule.severity⟩ := by
  rw [find?, Compiled.firstMatch, hone, List.find?_singleton] at hf
  split at hf
  next hline => exact ⟨hline, (Option.some.inj hf).symm⟩
  next => cases hf

/-- **One rule.** A rule that matches a line is found in every recipe with that line, there or on an earlier one. -/
theorem find?_of_line (hname : one.name = t.name) (hone : one.recipe = [line]) (ht : t.recipe = before ++ line :: after)
    (hf : find? one r = some f) : ∃ g, find? t r = some g ∧ g.rule = f.rule ∧ (g = f ∨ g.line ∈ before) := by
  obtain ⟨hline, rfl⟩ := find?_of_line_alone hone hf
  rw [find?, Compiled.firstMatch, ht, List.find?_append, List.find?_cons_of_pos hline, hname]
  cases hfirst : before.find? r.matchesLine with
  | none => exact ⟨_, rfl, rfl, .inl rfl⟩
  | some first => exact ⟨_, rfl, rfl, .inr (List.mem_of_find?_eq_some hfirst)⟩

/-! ## All rules -/

/-- what the active rules find in a target -/
def findings (c : Checker) (t : Target) : List Finding := c.active.filterMap (find? t)

theorem check_eq_some_iff : c.check t = some v ↔
    c.policy.enabled = true ∧ t.name ∉ c.policy.excludedTargets ∧ c.findings t ≠ [] ∧
      v = ⟨t.name, worst (c.findings t), c.findings t⟩ := by
  rw [check, ← findings]
  split
  next hoff =>
    have hno : ¬ (c.policy.enabled = true ∧ t.name ∉ c.policy.excludedTargets) := by
      rintro ⟨hon, hin⟩
      simp [hon, hin] at hoff
    simpa only [reduceCtorEq, false_iff, ← and_assoc] using fun h => hno h.1.1
  next hon =>
    have hyes : c.policy.enabled = true ∧ t.name ∉ c.policy.excludedTargets := by simpa using hon
    split
    next hnil => simp [hnil]
    next hne => rw [and_iff_right hyes.1, and_iff_right hyes.2, and_iff_right hne, Option.some.injEq, eq_comm]

/-- one of the findings has the level of the verdict -/
theorem exists_level (hv : c.check t = some v) : ∃ f ∈ v.findings, f.severity = v.level := by
  obtain ⟨-, -, hne, rfl⟩ := check_eq_some_iff.1 hv
  exact exists_worst hne

theorem needsConfirmation_iff (hv : c.check t = some v) :
    v.needsConfirmation = true ↔ ∃ f ∈ v.findings, f.severity = .critical := by
  obtain ⟨-, -, hne, rfl⟩ := check_eq_some_iff.1 hv
  rw [Verdict.needsConfirmation, beq_iff_eq]
  constructor
  · intro hlevel
    obtain ⟨f, hf, hworst⟩ := exists_worst hne
    exact ⟨f, hf, hworst.trans hlevel⟩
  · intro hsome
    obtain ⟨f, hf, hcritical⟩ := hsome
    have hle : .critical ≤ worst (c.findings t) := hcritical ▸ le_worst hf
    exact Severity.critical_le_iff.1 hle

theorem kept_of_line (c : Checker) (hname : one.name = t.name) (hone : one.recipe = [line])
    (ht : t.recipe = before ++ line :: after) (hf : f ∈ c.findings one) : ∃ g ∈ c.findings t, g.rule = f.rule ∧
    (g = f ∨ g.line ∈ before) := by
  obtain ⟨r, hr, hfind⟩ := List.mem_filterMap.1 hf
  obtain ⟨g, hg, hrule, hplace⟩ := find?_of_line hname hone ht hfind
  exact ⟨g, List.mem_filterMap.2 ⟨r, hr, hg⟩, hrule, hplace⟩

/-- the finding gives way to a milder one of its rule, on one of these lines -/
def GivesWay (lines : List String) (findings : List Finding) (f : Finding) : Prop :=
  ∃ g ∈ findings, g.rule = f.rule ∧ g.line ∈ lines ∧ ¬ f.severity ≤ g.severity

/-- **Every line counts.** No rule that matches a line alone is lost in the recipe, and the level is no lower, unless
all findings of that level give way to earlier lines. -/
theorem check_of_line (c : Checker) {t one : Target} {line : String} {before after : List String} {v : Verdict}
    (hname : one.name = t.name) (hone : one.recipe = [line]) (ht : t.recipe = before ++ line :: after)
    (hv : c.check one = some v) : ∃ w, c.check t = some w ∧ (∀ f ∈ v.findings, ∃ g ∈ w.findings, g.rule = f.rule) ∧
      (v.level ≤ w.level ∨ ∀ f ∈ v.findings, f.severity = v.level → GivesWay before w.findings f) := by
  obtain ⟨hon, hin, hne, rfl⟩ := check_eq_some_iff.1 hv
  have hkept : ∀ f ∈ c.findings one, ∃ g ∈ c.findings t, g.rule = f.rule ∧ (g = f ∨ g.line ∈ before) :=
    fun f hf => kept_of_line c hname hone ht hf
  have hne' : c.findings t ≠ [] := by
    obtain ⟨f, hf⟩ := List.exists_mem_of_ne_nil _ hne
    obtain ⟨g, hg, -⟩ := hkept f hf
    exact List.ne_nil_of_mem hg
  refine ⟨_, check_eq_some_iff.2 ⟨hon, hname ▸ hin, hne', rfl⟩, ?_, ?_⟩
  · intro f hf
    obtain ⟨g, hg, hrule, -⟩ := hkept f hf
    exact ⟨g, hg, hrule⟩
  · refine or_iff_not_imp_left.2 fun hlow f hf hlevel => ?_
    obtain ⟨g, hg, hrule, hplace⟩ := hkept f hf
    have hmild : ¬ f.severity ≤ g.severity := fun hle => hlow (hlevel ▸ Severity.le_trans hle (le_worst hg))
    rcases hplace with rfl | hearlier
    · exact absurd (Severity.le_refl _) hmild
    · exact ⟨g, hg, hrule, hearlier, hmild⟩

/-- a recipe that asks before it removes scratch files, and then removes others without asking -/
def wipe : Target := { name := "deploy", recipe := ["rm -rfi /tmp/scratch", "rm -rf /var/lib"] }

/-- its second line alone -/
def wipeLast : Target := { name := "deploy", recipe := ["rm -rf /var/lib"] }

/-- the checker of a policy with one rule of the catalog -/
def rmChecker : Checker := ((build { enabledRules := ["rm-rf-root"] } catalog).toOption).getD {}

theorem level_wipeLast : (rmChecker.check wipeLast).map (·.level) = some .critical := by decide +kernel

theorem level_wipe : (rmChecker.check wipe).map (·.level) = some .warning := by decide +kernel

/-- the second line is critical alone; the recipe has a verdict with the same rule, on its first line -/
theorem check_of_line_wipe : ∃ v w, rmChecker.check wipeLast = some v ∧ v.level = .critical ∧
    rmChecker.check wipe = some w ∧
    (∀ f ∈ v.findings, ∃ g ∈ w.findings, g.rule = f.rule) ∧
    (v.level ≤ w.level ∨ ∀ f ∈ v.findings, f.severity = v.level → GivesWay ["rm -rfi /tmp/scratch"] w.findings f) := by
  obtain ⟨v, hv, hlevel⟩ := Option.map_eq_some_iff.1 level_wipeLast
  have hname : wipeLast.name = wipe.name := rfl
  have hrecipe : wipe.recipe = ["rm -rfi /tmp/scratch"] ++ "rm -rf /var/lib" :: [] := rfl
  obtain ⟨w, hw, hrules⟩ := check_of_line rmChecker hname rfl hrecipe hv
  exact ⟨v, w, hv, hlevel, hw, hrules⟩

/-- **A milder line masks a worse one.** -/
theorem milder_line_masks : ¬ ∀ (c : Checker) (t one : Target) (line : String) (v : Verdict),
    c.policy.enabled = true → t.name ∉ c.policy.excludedTargets → line ∈ t.recipe →
    one.name = t.name → one.recipe = [line] → c.check one = some v → ∃ w, c.check t = some w ∧ v.level ≤ w.level := by
  intro h
  obtain ⟨v, hv, hcritical⟩ := Option.map_eq_some_iff.1 level_wipeLast
  have hon : rmChecker.policy.enabled = true ∧ wipe.name ∉ rmChecker.policy.excludedTargets := by decide +kernel
  obtain ⟨w, hw, hle⟩ := h rmChecker wipe wipeLast _ v hon.1 hon.2 (by simp [wipe]) rfl rfl hv
  have hwarning : w.level = .warning := by
    have hlevel := level_wipe
    rw [hw] at hlevel
    exact Option.some.inj hlevel
  rw [hcritical, hwarning] at hle
  exact absurd hle (by decide)

end Checker

end MakeAtlas.Safety
