/-
The status of a check. The verdict under a name is that of the last target of the name, and the status tells whether one
of the verdicts needs a confirmation.
- `answered_of_load`: settings and a makefile that can be loaded lead to the answer.
- `checkStatus_of_value?`, `exists_checkAnswer`, `exists_perform_check`: a verdict that needs a confirmation is told by
  the status, whatever form the answer has.
- `check_of_production`: a critical match on a line that names a production system is never taken down.
Witness: `cleanup`, whose name asks for milder verdicts in two ways.
-/
import MakeAtlas.Command.Run
import MakeAtlas.Proofs.Command.Redefinition
import MakeAtlas.Proofs.Makefile.Load
import MakeAtlas.Proofs.Safety.Context
import MakeAtlas.Proofs.Safety.Removal
import MakeAtlas.Proofs.Settings.Loading

namespace MakeAtlas.Command

open Makefile (Target)
open Safety (Checker NamesProduction Rule Severity Verdict adjust adjust_of_production catalog
  hasInteractiveFlag removal)
open Text

/-! ## The status -/

theorem checkStatus_of_value? {vs : Entries Verdict} {name : String} {v : Verdict} (h : vs.value? name = some v)
    (hneeds : v.needsConfirmation = true) : checkStatus vs = Outcome.found :=
  if_pos (List.any_eq_true.2 ⟨(name, v), Entries.mem_of_value? h, hneeds⟩)

theorem exists_checkAnswer [Machine] (json : Bool) {s : Settings} (p : Path) {ts : List Target} {vs : Entries Verdict}
    (h : verdicts s ts = .ok vs) : ∃ o, checkAnswer json s p ts = .ok o ∧ o.status = checkStatus vs := by
  simp only [checkAnswer, h, bind, Except.bind]
  split_ifs <;> exact ⟨_, rfl, rfl⟩

section

variable [Machine] {m : Type → Type} [Monad m] [LawfulMonad m] {h : Host m} {around : Surroundings} {source : Source}
  {s : Settings} {n : ℕ}
  {ts : List Target} {vs : Entries Verdict}

/-- settings and a makefile that can be loaded lead to the answer -/
theorem answered_of_load (answer : Settings → Path → List Target → Except Breakdown Outcome)
    (hsettings : Settings.loadMerged h around source.settings = pure ⟨.ok s, n⟩)
    (hmakefile : Makefile.load h (source.makefile.getD (Path.ofText s.makefileName)) = pure (.ok ts)) :
    answered h around source answer = pure (answer s (source.makefile.getD (Path.ofText s.makefileName)) ts) := by
  rw [answered, hsettings, pure_bind]
  simp only [hmakefile, pure_bind]

theorem exists_perform_check (json : Bool) (hsettings : Settings.loadMerged h around source.settings = pure ⟨.ok s, n⟩)
    (hmakefile : Makefile.load h (source.makefile.getD (Path.ofText s.makefileName)) = pure (.ok ts))
    (hvs : verdicts s ts = .ok vs) :
    ∃ o, perform h around (.check source json) = pure (.ok o) ∧ o.status = checkStatus vs := by
  obtain ⟨o, ho, hstatus⟩ := exists_checkAnswer json (source.makefile.getD (Path.ofText s.makefileName)) hvs
  exact ⟨o, by rw [perform, answered_of_load _ hsettings hmakefile, ho], hstatus⟩

end

/-! ## Production systems -/

section

variable [Machine]

/-- a rule matches the last target of a name at a line: the target is checked, and this is the first line that the rule
hits -/
structure Matches (s : Settings) (ts : List Target) (c : Checker) (t : Target) (r : Rule) (line : String) : Prop where
  build : Checker.build s.policy catalog = .ok c
  on : s.policy.enabled = true
  included : t.name ∉ s.policy.excludedTargets
  last : lastNamed? t.name ts = some t
  active : r ∈ c.rules
  first : t.recipe.find? r.hits = some line

/-- the verdict on such a target has the match, with the severity that stands around it -/
theorem Matches.exists_verdict {s : Settings} {ts : List Target} {c : Checker} {t : Target} {r : Rule} {line : String}
    (hm : Matches s ts c t r line) : ∃ v, c.check t = some v ∧
    ⟨r, line, adjust t.name line r.severity⟩ ∈ v.findings := by
  obtain ⟨k, hk, rfl⟩ := List.mem_map.1 hm.active
  have hfound : (⟨k.rule, line, adjust t.name line k.rule.severity⟩ : Safety.Finding) ∈ c.findings t :=
    List.mem_filterMap.2 ⟨k, hk, (Checker.find?_eq_some_iff (Checker.matchesLine_of_mem hm.build hk)).2
      ⟨rfl, hm.first, rfl⟩⟩
  have hpolicy : c.policy = s.policy := (Checker.build_eq_ok hm.build).1
  exact ⟨_, Checker.check_eq_some_iff.2 ⟨hpolicy ▸ hm.on, hpolicy ▸ hm.included,
    List.ne_nil_of_mem hfound, rfl⟩, hfound⟩

/-- **Nothing takes down a match that names a production system**, if its command does not ask before it acts. The
severity is that of the rule in every target; and a critical one asks for a confirmation and is told by the status of a
check. -/
theorem check_of_production {line : String} (hprod : NamesProduction line) (hask : hasInteractiveFlag line = false) :
    (∀ (name : String) (severity : Severity), adjust name line severity = severity) ∧
    ∀ (s : Settings) (ts : List Target) (c : Checker) (t : Target) (r : Rule), Matches s ts c t r line →
    r.severity = .critical →
      ∃ v, c.check t = some v ∧ ⟨r, line, .critical⟩ ∈ v.findings ∧ v.level = .critical ∧ v.needsConfirmation = true ∧
        ∀ {m : Type → Type} [Monad m] [LawfulMonad m] (h : Host m) (around : Surroundings) (source : Source)
        (json : Bool) (n : ℕ),
          Settings.loadMerged h around source.settings = pure ⟨.ok s, n⟩ →
          Makefile.load h (source.makefile.getD (Path.ofText s.makefileName)) = pure (.ok ts) →
          ∃ o, perform h around (.check source json) = pure (.ok o) ∧ o.status = Outcome.found := by
  have hkept := adjust_of_production hprod hask
  refine ⟨hkept, ?_⟩
  intro s ts c t r hm hcritical
  obtain ⟨v, hv, hmatch⟩ := hm.exists_verdict
  rw [hkept, hcritical] at hmatch
  have hneeds : v.needsConfirmation = true := (Checker.needsConfirmation_iff hv).2 ⟨_, hmatch, rfl⟩
  refine ⟨v, hv, hmatch, by simpa [Verdict.needsConfirmation] using hneeds, hneeds, ?_⟩
  intro m _ _ h around source json n hsettings hmakefile
  have hvs : verdicts s ts = .ok (c.checkAll ts) := by rw [verdicts, hm.build]
  have hvalue : (c.checkAll ts).value? t.name = some v := (value?_checkAll_of_last hm.last).trans hv
  obtain ⟨o, ho, hstatus⟩ := exists_perform_check json hsettings hmakefile hvs
  exact ⟨o, ho, hstatus.trans (checkStatus_of_value? hvalue hneeds)⟩

end

/-- a target that cleans up for development, and a directory of a production system -/
def cleanup : Target := { name := "clean-dev", recipe := ["rm -rf /srv/prod"] }

/-- the makefile with this target, where it is read from -/
def cleanupBytes : List UInt8 := Utf8.encode "clean-dev:\n\trm -rf /srv/prod\n".toList

def cleanupSource : Source := { makefile := some ⟨.here, ["Makefile"]⟩ }

def cleanupHost : Host Id := Settings.lone ⟨.here, ["Makefile"]⟩ cleanupBytes

theorem loadMerged_cleanup : Settings.loadMerged cleanupHost Settings.workplace none = pure ⟨.ok {}, 0⟩ := by
  have hhome : Settings.workplace.homePath.below Settings.fileName ≠ ⟨.here, ["Makefile"]⟩ := by decide +kernel
  have hcwd : Settings.workplace.cwd.below Settings.fileName ≠ ⟨.here, ["Makefile"]⟩ := by decide +kernel
  have hvariable : Settings.workplace.environment.value? Settings.fileVariable = none := rfl
  simp [Settings.loadMerged, Settings.locate, Settings.fileBelow?, cleanupHost, Settings.lone, hhome, hcwd,
    Settings.chosen?, hvariable, Settings.distinct, Settings.loadBoth, Settings.loadOptional, Except.map,
    Settings.merge]

theorem load_cleanup {h : Host Id} (hlook : h.look ⟨.here, ["Makefile"]⟩ = pure (.file cleanupBytes)) :
    Makefile.load h ⟨.here, ["Makefile"]⟩ = pure (.ok [cleanup]) := by
  have hlines : Makefile.ofLines (fileLines "clean-dev:\n\trm -rf /srv/prod\n".toList) = [cleanup] := by decide +kernel
  rw [Makefile.load_encode h (by decide) hlook, hlines]

theorem namesProduction_cleanup : NamesProduction "rm -rf /srv/prod" := by
  refine ⟨"prod", by simp, "rm -rf /srv/".toList, [], by decide +kernel, ?_, by simp [Safety.NoWordChar]⟩
  exact Safety.noWordChar_iff.2 (by decide +kernel)

/-- the name of the target asks for a milder verdict in two ways, and the check fails for it -/
theorem check_of_production_cleanup : Safety.isCleanTarget cleanup.name = true ∧
    Safety.isDevelopmentTarget cleanup.name = true ∧
    adjust cleanup.name "rm -rf /srv/prod" .critical = .critical ∧
    ∃ c v, Checker.build {} catalog = .ok c ∧ c.check cleanup = some v ∧ v.level = .critical ∧
    v.needsConfirmation = true ∧
      ∃ o, perform cleanupHost Settings.workplace (.check cleanupSource true) = pure (.ok o) ∧ o.status = 1 := by
  have hask : hasInteractiveFlag "rm -rf /srv/prod" = false := by decide +kernel
  obtain ⟨hkept, hreport⟩ := check_of_production namesProduction_cleanup hask
  obtain ⟨c, hbuild, hmem⟩ := Safety.exists_build_removal
  have hhits : cleanup.recipe.find? removal.hits = some "rm -rf /srv/prod" := by decide +kernel
  have hmatches : Matches {} [cleanup] c cleanup removal "rm -rf /srv/prod" :=
    ⟨hbuild, rfl, by simp [Settings.policy, Settings.checks, Settings.Safety.policy], by simp [lastNamed?], hmem, hhits⟩
  obtain ⟨v, hv, -, hlevel, hneeds, hperform⟩ := hreport {} [cleanup] c cleanup removal hmatches (by decide +kernel)
  refine ⟨by decide +kernel, by decide +kernel, hkept _ _, c, v, hbuild, hv, hlevel, hneeds, ?_⟩
  exact hperform cleanupHost Settings.workplace cleanupSource true 0 loadMerged_cleanup
    (load_cleanup (Settings.look_lone _ _))

end MakeAtlas.Command
