/-
The check as a gate. It fails exactly when the last target of some name has a critical match, in both forms of its
answer; and the list of targets shows the levels that the check reports.
- `answered_of_loads`, `endsInJson_of_render`: files that can be loaded lead to the answer, and an answer in JSON is
  shown as it is, so that it can be read back.
- `matches_of_mem_findings`, `exists_needsConfirmation_iff`: a verdict asks for a confirmation when it has a critical
  match.
- `checkStatus_eq_found_iff`, `checkStatus_eq_zero_iff`: the status of a check.
- `gate_of_loads`: what every command line for a check or a list comes to.
Witness: a project with a rule that cannot be read, and the makefile with `cleanup`.
-/
import MakeAtlas.Proofs.Command.Checking
import MakeAtlas.Proofs.Report.Json
import MakeAtlas.Proofs.Report.Reading

namespace MakeAtlas.Command

open Makefile (Target)
open Report (Json Lists levelJson levelUnder? levelUnder?_verdictsJson lists_targetJson targetJson
  targetsJson verdictJson verdictsJson)
open Safety (Checker Finding Policy Rule Verdict adjust catalog removal)
open Settings (loadMerged loadOptional locate merge)
open Text

/-! ## Files -/

/-- both settings files of a request and its makefile can be loaded; a settings file that is not there gives no
settings -/
structure Loads [Machine] {m : Type → Type} [Monad m] (h : Host m) (around : Surroundings) (source : Source)
    (user project : Option Settings) (ts : List Target) : Prop where
  settings : ∃ userFile projectFile j k, locate h around source.settings = pure (.ok (userFile, projectFile)) ∧
    loadOptional h around.env userFile = pure ⟨.ok user, j⟩ ∧
    loadOptional h around.env projectFile = pure ⟨.ok project, k⟩
  makefile : Makefile.load h (source.makefile.getD (Path.ofText (merge user project).makefileName)) = pure (.ok ts)

/-- every command line that asks for this ends in this way -/
def EndsIn [Machine] {m : Type → Type} [Monad m] (h : Host m) (around : Surroundings) (request : Request)
    (o : Outcome) : Prop :=
  ∀ words, Request.read around.environment words = .ok request → run h around words = pure (.ok o)

section

variable [Machine] {m : Type → Type} [Monad m] [LawfulMonad m] {h : Host m} {around : Surroundings} {source : Source}
  {user project : Option Settings} {ts : List Target} {vs : Entries Verdict} {request : Request} {o : Outcome}

theorem loadMerged_of_loads (hloads : Loads h around source user project ts) :
    ∃ n, loadMerged h around source.settings = pure ⟨.ok (merge user project), n⟩ := by
  obtain ⟨userFile, projectFile, j, k, hlocate, huser, hproject⟩ := hloads.settings
  refine ⟨j + k, ?_⟩
  simp [loadMerged, hlocate, Settings.loadBoth, huser, hproject, Except.map]

/-- files that can be loaded lead to the answer -/
theorem answered_of_loads (hloads : Loads h around source user project ts)
    (answer : Settings → Path → List Target → Except Breakdown Outcome) : ∃ p,
    answered h around source answer = pure (answer (merge user project) p ts) := by
  obtain ⟨n, hsettings⟩ := loadMerged_of_loads hloads
  exact ⟨_, answered_of_load answer hsettings hloads.makefile⟩

theorem endsIn_of_perform (hperform : perform h around request = pure (.ok o)) : EndsIn h around request o.shown := by
  intro words hread
  rw [run, hread]
  simp [hperform, Except.map]

theorem endsIn_check (hloads : Loads h around source user project ts) (hvs : verdicts (merge user project) ts = .ok vs)
    (json : Bool) : ∃ o, EndsIn h around (.check source json) o ∧ o.status = checkStatus vs := by
  obtain ⟨n, hsettings⟩ := loadMerged_of_loads hloads
  obtain ⟨o, ho, hstatus⟩ := exists_perform_check json hsettings hloads.makefile hvs
  exact ⟨o.shown, endsIn_of_perform ho, hstatus⟩

/-- every command line that asks for this ends with a text that holds this value -/
def EndsInJson (h : Host m) (around : Surroundings) (request : Request) (status : ℕ) (j : Json) : Prop :=
  ∃ text, EndsIn h around request { status, output := text } ∧ Json.read text = some j

/-- an answer in JSON is shown as it is -/
theorem endsInJson_of_render {status : ℕ} {j : Json}
    (hperform : perform h around request = pure (.ok { status, output := j.render })) :
    EndsInJson h around request status j := by
  have hends := endsIn_of_perform hperform
  rw [Outcome.shown, Json.plain_render] at hends
  exact ⟨j.render, hends, Json.read_render j⟩

theorem endsInJson_check (hloads : Loads h around source user project ts)
    (hvs : verdicts (merge user project) ts = .ok vs) :
    EndsInJson h around (.check source true) (checkStatus vs) (verdictsJson vs) := by
  obtain ⟨p, hp⟩ := answered_of_loads hloads (checkAnswer true)
  have ho : checkAnswer true (merge user project) p ts =
      .ok { status := checkStatus vs, output := (verdictsJson vs).render } := by
    simp [checkAnswer, hvs, bind, Except.bind, pure, Except.pure]
  exact endsInJson_of_render (by rw [perform, hp, ho])

theorem endsInJson_list (hloads : Loads h around source user project ts)
    (hvs : verdicts (merge user project) ts = .ok vs) :
    EndsInJson h around (.list source true) 0 (targetsJson ts vs) := by
  obtain ⟨p, hp⟩ := answered_of_loads hloads (listAnswer true)
  have ho : listAnswer true (merge user project) p ts = .ok { output := (targetsJson ts vs).render } := by
    simp [listAnswer, hvs, bind, Except.bind, pure, Except.pure]
  exact endsInJson_of_render (by rw [perform, hp, ho])

end

/-! ## The status -/

theorem checkStatus_eq_found_iff {vs : Entries Verdict} :
    checkStatus vs = Outcome.found ↔ ∃ e ∈ vs, e.2.needsConfirmation = true := by
  rw [checkStatus, ← List.any_eq_true]
  split_ifs with hany
  · exact iff_of_true rfl hany
  · exact iff_of_false (by decide) hany

theorem checkStatus_eq_zero_iff {vs : Entries Verdict} :
    checkStatus vs = 0 ↔ ¬ ∃ e ∈ vs, e.2.needsConfirmation = true := by
  rw [← checkStatus_eq_found_iff, checkStatus]
  split_ifs <;> decide

section

variable [Machine]

/-- a critical match in the last target of some name -/
def Critical (s : Settings) (ts : List Target) (c : Checker) : Prop :=
  ∃ t r line, Matches s ts c t r line ∧ adjust t.name line r.severity = .critical

variable {s : Settings} {ts : List Target} {c : Checker} {t : Target} {v : Verdict} {f : Finding}

/-- a finding in the verdict on the last target of a name is a match -/
theorem matches_of_mem_findings (hbuild : Checker.build s.policy catalog = .ok c)
    (hlast : lastNamed? t.name ts = some t) (hv : c.check t = some v) (hf : f ∈ v.findings) :
    Matches s ts c t f.rule f.line ∧ f.severity = adjust t.name f.line f.rule.severity := by
  obtain ⟨hon, hin, -, rfl⟩ := Checker.check_eq_some_iff.1 hv
  obtain ⟨k, hk, hfind⟩ := List.mem_filterMap.1 hf
  obtain ⟨hrule, hfirst, hseverity⟩ := (Checker.find?_eq_some_iff (Checker.matchesLine_of_mem hbuild hk)).1 hfind
  have hpolicy : c.policy = s.policy := (Checker.build_eq_ok hbuild).1
  rw [hpolicy] at hon hin
  rw [hrule]
  exact ⟨⟨hbuild, hon, hin, hlast, List.mem_map_of_mem hk, hfirst⟩, hseverity⟩

/-- some verdict asks for a confirmation when there is a critical match -/
theorem exists_needsConfirmation_iff (hbuild : Checker.build s.policy catalog = .ok c) :
    (∃ e ∈ c.checkAll ts, e.2.needsConfirmation = true) ↔ Critical s ts c := by
  constructor
  · intro hsome
    obtain ⟨⟨name, v⟩, hmem, hneeds⟩ := hsome
    -- what is stored under a name is the verdict on its last target
    have hvalue : (c.checkAll ts).value? name = some v := Entries.value?_of_mem (ordered_checkAll c ts).nodup hmem
    rw [value?_checkAll, Option.bind_eq_some_iff] at hvalue
    obtain ⟨t, hlast, hv⟩ := hvalue
    obtain ⟨-, rfl⟩ := lastNamed?_eq_some hlast
    obtain ⟨f, hf, hcritical⟩ := (Checker.needsConfirmation_iff hv).1 hneeds
    obtain ⟨hmatch, hseverity⟩ := matches_of_mem_findings hbuild hlast hv hf
    exact ⟨t, f.rule, f.line, hmatch, hseverity ▸ hcritical⟩
  · intro hcritical
    obtain ⟨t, r, line, hmatch, hseverity⟩ := hcritical
    obtain ⟨v, hv, hf⟩ := hmatch.exists_verdict
    have hvalue : (c.checkAll ts).value? t.name = some v := (value?_checkAll_of_last hmatch.last).trans hv
    exact ⟨(t.name, v), Entries.mem_of_value? hvalue, (Checker.needsConfirmation_iff hv).2 ⟨_, hf, hseverity⟩⟩

end

/-! ## The gate -/

/-- what a check and a list come to: the status, the verdicts reported by name, and the entries of the list -/
structure Gate [Machine] {m : Type → Type} [Monad m] (h : Host m) (around : Surroundings) (source : Source)
    (s : Settings) (ts : List Target) (status : ℕ) (reported : Entries Json) (entries : List Json) : Prop where
  /-- the check fails for a critical match, and for nothing else, and the levels that it reports are those of the
  verdicts -/
  checker : ∃ c, Checker.build s.policy catalog = .ok c ∧ (status = Outcome.found ↔ Critical s ts c) ∧
    (status = 0 ↔ ¬ Critical s ts c) ∧ reported.keys = (c.checkAll ts).keys ∧
    ∀ name, levelUnder? name (.object reported) = some (levelJson (((c.checkAll ts).value? name).map Verdict.level))
  /-- the status does not depend on the form of the answer -/
  check : ∃ o, EndsIn h around (.check source false) o ∧ o.status = status
  checkJson : EndsInJson h around (.check source true) status (.object reported)
  listJson : EndsInJson h around (.list source true) 0 (.list entries)
  /-- no name is reported twice -/
  nodup : reported.keys.Nodup
  /-- there is an entry for each target, with the level that is reported under its name -/
  lists : List.Forall₂ (Lists (.object reported)) ts entries

/-- **The check is a gate.** When the files can be loaded and no custom rule is worse than badly written, the status of
a check tells whether there is a critical match, and the list agrees with the check. -/
theorem gate_of_loads [Machine] {m : Type → Type} [Monad m] [LawfulMonad m] {h : Host m} {around : Surroundings}
    {source : Source} {user project : Option Settings} {ts : List Target}
    (hloads : Loads h around source user project ts)
    (hcustom : ∀ r ∈ (merge user project).policy.customRules, ∀ s ∈ r.patterns, ∀ fault,
      Pattern.compile s = .error fault → fault = .malformed) :
    ∃ status reported entries, Gate h around source (merge user project) ts status reported entries := by
  obtain ⟨c, hbuild⟩ := Checker.exists_build_of_malformed hcustom
  have hvs : verdicts (merge user project) ts = .ok (c.checkAll ts) := by rw [verdicts, hbuild]
  have hcritical : (∃ e ∈ c.checkAll ts, e.2.needsConfirmation = true) ↔ Critical (merge user project) ts c :=
    exists_needsConfirmation_iff hbuild
  have hkeys : Entries.keys ((c.checkAll ts).map (Prod.map id verdictJson)) = (c.checkAll ts).keys := by
    rw [Entries.keys, Entries.keys, List.map_map]
    rfl
  exact ⟨checkStatus (c.checkAll ts), (c.checkAll ts).map (Prod.map id verdictJson),
    ts.map (targetJson (c.checkAll ts)), {
    checker := ⟨c, hbuild, checkStatus_eq_found_iff.trans hcritical,
      checkStatus_eq_zero_iff.trans (not_congr hcritical), hkeys, levelUnder?_verdictsJson _⟩
    check := endsIn_check hloads hvs false
    checkJson := endsInJson_check hloads hvs
    listJson := endsInJson_list hloads hvs
    nodup := hkeys ▸ (ordered_checkAll c ts).nodup
    lists := List.forall₂_map_right_iff.2 (List.forall₂_same.2 fun t _ => lists_targetJson _ t) }⟩

/-- settings with a rule that cannot be read -/
def torn : Settings := { safety := some { customRules := some [{ id := "torn", patterns := some ["("] }] } }

def tornPath : Path := Settings.workplace.cwd.below Settings.fileName

def tornBytes : List UInt8 := Utf8.encode "safety:\n  custom_rules:\n    - id: torn\n      patterns: ['(']\n".toList

/-- these settings for a project, and the makefile with `cleanup` -/
def tornHost : Host Id :=
  ⟨fun p => if p = tornPath then pure (.file tornBytes) else cleanupHost.look p, fun _ _ => pure none⟩

theorem loads_torn : Loads tornHost Settings.workplace cleanupSource none (some torn) [cleanup] := by
  have hlocate : @Eq (Except Breakdown (Option Path × Option Path)) (locate tornHost Settings.workplace none)
      (.ok (none, some tornPath)) := by decide +kernel
  have hlook : tornHost.look tornPath = pure (.file tornBytes) := by
    simp [tornHost]
  have hresult : (Settings.ofBytes Settings.workplace.env tornPath tornBytes).result = .ok torn := by
    decide +kernel
  have hproject : loadOptional tornHost Settings.workplace.env (some tornPath) =
      pure ⟨.ok (some torn), (Settings.ofBytes Settings.workplace.env tornPath tornBytes).unknownSeverities⟩ := by
    rw [loadOptional, Settings.load_of_look _ (by decide) hlook]
    simp [Settings.Loaded.map, hresult, Except.map]
  have hmakefile : tornHost.look ⟨.here, ["Makefile"]⟩ = pure (.file cleanupBytes) := by
    have hother : (⟨.here, ["Makefile"]⟩ : Path) ≠ tornPath := by decide
    simp [tornHost, hother, cleanupHost, Settings.look_lone]
  exact ⟨⟨none, some tornPath, 0, _, hlocate, rfl, hproject⟩, load_cleanup hmakefile⟩

/-- the rule that cannot be read does not stop the check, which fails for `cleanup`, and both texts show that it is
critical -/
theorem gate_of_loads_torn : Pattern.compile "(" = .error .malformed ∧ ∃ o checkText listText reported entry,
    run tornHost Settings.workplace ["check", "Makefile"] = pure (.ok o) ∧ o.status = 1 ∧
    run tornHost Settings.workplace ["check", "--json", "Makefile"] = pure (.ok { status := 1, output := checkText }) ∧
    Json.read checkText = some reported ∧ levelUnder? "clean-dev" reported = some (.text "CRITICAL") ∧
    run tornHost Settings.workplace ["list", "--json", "Makefile"] = pure (.ok { output := listText }) ∧
    Json.read listText = some (.list [entry]) ∧ entry.member? "name" = some (.text "clean-dev") ∧
    entry.member? "danger_level" = some (.text "CRITICAL") := by
  have hcompile : Pattern.compile "(" = .error .malformed := by decide +kernel
  have hcustom : ∀ r ∈ (merge none (some torn)).policy.customRules, ∀ s ∈ r.patterns, ∀ fault,
      Pattern.compile s = .error fault → fault = .malformed := by
    intro r hr s hs fault hfault
    obtain rfl : r = { id := "torn", patterns := ["("] } := List.mem_singleton.1 hr
    rw [List.mem_singleton.1 hs, hcompile] at hfault
    exact (Except.error.inj hfault).symm
  obtain ⟨status, reported, entries, hgate⟩ := gate_of_loads loads_torn hcustom
  obtain ⟨c, hbuild, hfound, -, -, hlevels⟩ := hgate.checker
  have hmem : removal ∈ catalog := by decide +kernel
  have hselected : removal ∈ (merge none (some torn)).policy.selected catalog :=
    Policy.mem_selected_iff.2 (.inl ⟨rfl, hmem, .inl rfl⟩)
  have hread : removal.bad? = none := Rule.bad?_eq_none_iff.2 (Safety.isSome_compile_catalog removal hmem)
  have hactive : removal ∈ c.rules := (Checker.mem_rules_iff hbuild).2 ⟨hselected, hread⟩
  have hfirst : cleanup.recipe.find? removal.hits = some "rm -rf /srv/prod" := by decide +kernel
  have hmatch : Matches (merge none (some torn)) [cleanup] c cleanup removal "rm -rf /srv/prod" :=
    ⟨hbuild, rfl, List.not_mem_nil, by simp [lastNamed?], hactive, hfirst⟩
  have hseverity : adjust cleanup.name "rm -rf /srv/prod" removal.severity = .critical := by decide +kernel
  obtain rfl : status = 1 := hfound.2 ⟨cleanup, removal, _, hmatch, hseverity⟩
  obtain ⟨v, hv, hf⟩ := hmatch.exists_verdict
  have hneeds : v.needsConfirmation = true := (Checker.needsConfirmation_iff hv).2 ⟨_, hf, hseverity⟩
  have hcritical : v.level = .critical := by simpa [Verdict.needsConfirmation] using hneeds
  have hunder : levelUnder? cleanup.name (.object reported) = some (.text "CRITICAL") := by
    rw [hlevels, value?_checkAll_of_last hmatch.last, hv, Option.map_some, hcritical]
    rfl
  obtain ⟨o, ho, hstatus⟩ := hgate.check
  obtain ⟨checkText, hcheck, hreported⟩ := hgate.checkJson
  obtain ⟨listText, hlist, hentries⟩ := hgate.listJson
  obtain ⟨entry, rest, hentry, hrest, rfl⟩ := List.forall₂_cons_left_iff.1 hgate.lists
  obtain rfl := List.forall₂_nil_left_iff.1 hrest
  obtain ⟨level, hlevel, hsame⟩ := hentry.level
  obtain rfl : .text "CRITICAL" = level := Option.some.inj (hunder.symm.trans hsame)
  exact ⟨hcompile, o, checkText, listText, .object reported, entry, ho _ (by decide +kernel), hstatus,
    hcheck _ (by decide +kernel), hreported, hunder, hlist _ (by decide +kernel), hentries, hentry.name, hlevel⟩

end MakeAtlas.Command
