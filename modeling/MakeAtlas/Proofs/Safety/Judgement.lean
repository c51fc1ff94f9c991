/-
A verdict, from the rules alone. What a rule as written hits does not mention how it was read; a built checker has the
rules that could be read, and judges a recipe by the first line that each of them hits.
- `matchesLine_of_compile`: a rule that was read matches the lines that it hits as written.
- `build_eq_ok`: a checker that was built has the rules of its policy, as far as they could be read, in this order.
- `findings_rules`, `find?_eq_some_iff`: one finding for each rule that hits some line, on the first such line.
- `judges_check`: when there is a verdict, and everything that it says.
Witness: `tidy`, with an empty line that matches, a rule without patterns, and two rules that hit one line.
-/
import MakeAtlas.Proofs.Safety.Verdicts

namespace MakeAtlas.Safety

open Makefile (Target)

/-! ## Rules as written -/

section

variable [Pattern.Dialect]

/-- one of the patterns of the rule can be read, and is found in the line -/
def Rule.hits (r : Rule) (line : String) : Bool :=
  r.patterns.any fun p => (Pattern.compile p).toOption.any fun n => Pattern.found n line.toList

/-- patterns that were all read are found where they are found as written -/
theorem any_found_of_mapM {r : Rule} {ps : List String} {ns : List Pattern.Node} (h : ps.mapM r.compileOne = .ok ns)
    (line : String) : (ns.any fun n => Pattern.found n line.toList) =
      ps.any fun p => (Pattern.compile p).toOption.any fun n => Pattern.found n line.toList := by
  induction ps generalizing ns with
  | nil =>
    cases h
    rfl
  | cons p ps ih =>
    rw [List.mapM_cons] at h
    cases hp : Pattern.compile p with
    | error fault => simp [Rule.compileOne, hp, bind, Except.bind] at h
    | ok n =>
      cases hps : ps.mapM r.compileOne with
      | error bad => simp [Rule.compileOne, hp, hps, bind, Except.bind] at h
      | ok rest =>
        simp only [Rule.compileOne, hp, hps, bind, Except.bind, pure, Except.pure, Except.ok.injEq] at h
        rw [← h, List.any_cons, List.any_cons, ih hps, hp]
        rfl

theorem compile_eq_ok {r : Rule} {k : Compiled} (h : r.compile = .ok k) :
    k.rule = r ∧ r.patterns.mapM r.compileOne = .ok k.nodes := by
  cases hps : r.patterns.mapM r.compileOne with
  | error bad => simp [Rule.compile, hps, bind, Except.bind] at h
  | ok ns =>
    simp only [Rule.compile, hps, bind, Except.bind, pure, Except.pure, Except.ok.injEq] at h
    rw [← h]
    exact ⟨rfl, rfl⟩

/-- a rule that was read matches the lines that it hits as written -/
theorem matchesLine_of_compile {r : Rule} {k : Compiled} (h : r.compile = .ok k) : k.matchesLine = k.rule.hits := by
  obtain ⟨rfl, hps⟩ := compile_eq_ok h
  funext line
  exact any_found_of_mapM hps line

end

namespace Checker

section

variable {p : Policy} {catalog : List Rule} {c c' : Checker} {t : Target} {v : Verdict}

/-! ## Built checkers -/

/-- the active rules, in the order of evaluation -/
def rules (c : Checker) : List Rule := c.active.map (·.rule)

variable [Pattern.Dialect]

/-- one more rule becomes active if it can be read, and the policy stays -/
theorem add_eq_ok {r : Rule} (h : c.add r = .ok c') :
    c'.policy = c.policy ∧ c'.active = c.active ++ r.compile.toOption.toList := by
  unfold add at h
  cases hr : r.compile with
  | ok k =>
    simp only [hr, Except.ok.injEq] at h
    rw [← h]
    exact ⟨rfl, rfl⟩
  | error bad =>
    simp only [hr] at h
    split at h
    · rw [Except.ok.injEq] at h
      rw [← h]
      exact ⟨rfl, (List.append_nil _).symm⟩
    · cases h

theorem foldlM_add_eq_ok (rs : List Rule) (h : rs.foldlM add c = .ok c') :
    c'.policy = c.policy ∧ c'.active = c.active ++ rs.filterMap (·.compile.toOption) := by
  induction rs generalizing c with
  | nil =>
    cases h
    exact ⟨rfl, (List.append_nil _).symm⟩
  | cons r rs ih =>
    rw [List.foldlM_cons] at h
    cases hr : c.add r with
    | error bad => simp [hr, bind, Except.bind] at h
    | ok d =>
      simp only [hr, bind, Except.bind] at h
      obtain ⟨hpolicy, hactive⟩ := add_eq_ok hr
      obtain ⟨hpolicy', hactive'⟩ := ih h
      refine ⟨hpolicy'.trans hpolicy, ?_⟩
      rw [hactive', hactive, List.append_assoc, List.filterMap_cons]
      cases r.compile.toOption <;> rfl

/-- **Building keeps the rules that can be read.** -/
theorem build_eq_ok (h : build p catalog = .ok c) :
    c.policy = p ∧ c.active = (p.selected catalog).filterMap (·.compile.toOption) := by
  obtain ⟨hpolicy, hactive⟩ := foldlM_add_eq_ok _ h
  exact ⟨hpolicy, hactive⟩

theorem matchesLine_of_mem (h : build p catalog = .ok c) {k : Compiled} (hk : k ∈ c.active) :
    k.matchesLine = k.rule.hits := by
  rw [(build_eq_ok h).2, List.mem_filterMap] at hk
  obtain ⟨r, -, hr⟩ := hk
  cases hcompile : r.compile with
  | error bad =>
    rw [hcompile] at hr
    cases hr
  | ok k' =>
    rw [hcompile] at hr
    cases hr
    exact matchesLine_of_compile hcompile

/-! ## What is found -/

/-- what a rule finds is on the first line that it hits -/
theorem find?_eq_some_iff {k : Compiled} (hk : k.matchesLine = k.rule.hits) {f : Finding} :
    find? t k = some f ↔ f.rule = k.rule ∧ t.recipe.find? k.rule.hits = some f.line ∧
      f.severity = adjust t.name f.line k.rule.severity := by
  rw [find?, Compiled.firstMatch, hk, Option.map_eq_some_iff]
  constructor
  · intro hsome
    obtain ⟨line, hline, rfl⟩ := hsome
    exact ⟨rfl, hline, rfl⟩
  · intro hall
    obtain ⟨hrule, hline, hseverity⟩ := hall
    refine ⟨f.line, hline, ?_⟩
    rw [← hseverity, ← hrule]

/-- **One finding for each rule that hits.** -/
theorem findings_rules (h : build p catalog = .ok c) (t : Target) :
    (c.findings t).map (·.rule) = c.rules.filter fun r => t.recipe.any r.hits := by
  have hfound : ∀ k ∈ c.active, (find? t k).map (·.rule) = Option.guard (fun r => t.recipe.any r.hits) k.rule := by
    intro k hk
    rw [find?, Compiled.firstMatch, matchesLine_of_mem h hk, Option.map_map, Option.guard]
    cases hline : t.recipe.find? k.rule.hits with
    | none => rw [if_neg (by simpa using hline)]; rfl
    | some line => rw [if_pos (List.any_eq_true.2 ⟨line, List.mem_of_find?_eq_some hline, List.find?_some hline⟩)]; rfl
  rw [findings, List.map_filterMap, List.filterMap_congr hfound, rules, ← List.filterMap_eq_filter, List.filterMap_map]
  rfl

/-- some rule hits some line -/
theorem findings_ne_nil_iff (h : build p catalog = .ok c) (t : Target) :
    c.findings t ≠ [] ↔ ∃ r ∈ c.rules, ∃ line ∈ t.recipe, r.hits line = true := by
  rw [Ne, ← List.map_eq_nil_iff (f := (·.rule)), findings_rules h, List.filter_eq_nil_iff]
  simp

/-- an active rule that hits a line of a target is among its findings -/
theorem exists_finding (h : build p catalog = .ok c) {r : Rule} (hr : r ∈ c.rules) (hon : p.enabled = true)
    (hin : t.name ∉ p.excludedTargets) {line : String} (hline : line ∈ t.recipe)
    (hhits : r.hits line = true) : ∃ v, c.check t = some v ∧ ∃ f ∈ v.findings, f.rule = r := by
  have hrule : r ∈ (c.findings t).map (·.rule) := by
    rw [findings_rules h, List.mem_filter, List.any_eq_true]
    exact ⟨hr, line, hline, hhits⟩
  obtain ⟨f, hf, hfr⟩ := List.mem_map.1 hrule
  have hpolicy : c.policy = p := (build_eq_ok h).1
  exact ⟨_, check_eq_some_iff.2 ⟨hpolicy ▸ hon, hpolicy ▸ hin, List.ne_nil_of_mem hf, rfl⟩, f, hf, hfr⟩

/-- a verdict as the rules give it -/
structure Judges (c : Checker) (t : Target) (v : Verdict) : Prop where
  target : v.target = t.name
  /-- there is one finding for each active rule that hits some line, in the order of the rules -/
  rules : v.findings.map (·.rule) = c.rules.filter fun r => t.recipe.any r.hits
  /-- it is on the first line that the rule hits -/
  first : ∀ f ∈ v.findings, ∃ before after, t.recipe = before ++ f.line :: after ∧ f.rule.hits f.line = true ∧
    ∀ line ∈ before, f.rule.hits line = false
  severity : ∀ f ∈ v.findings, f.severity = adjust t.name f.line f.rule.severity
  /-- the level is the greatest severity -/
  le_level : ∀ f ∈ v.findings, f.severity ≤ v.level
  level : ∃ f ∈ v.findings, f.severity = v.level
  confirmation : v.needsConfirmation = true ↔ ∃ f ∈ v.findings, f.severity = .critical

theorem judges_of_check (h : build p catalog = .ok c) (hv : c.check t = some v) : c.Judges t v := by
  have hconfirm := needsConfirmation_iff hv
  have hlevel := exists_level hv
  obtain ⟨-, -, -, rfl⟩ := check_eq_some_iff.1 hv
  have hfound : ∀ f ∈ c.findings t, t.recipe.find? f.rule.hits = some f.line ∧
      f.severity = adjust t.name f.line f.rule.severity := by
    intro f hf
    obtain ⟨k, hk, hfind⟩ := List.mem_filterMap.1 hf
    obtain ⟨hrule, hline, hseverity⟩ := (find?_eq_some_iff (matchesLine_of_mem h hk)).1 hfind
    rw [hrule]
    exact ⟨hline, hseverity⟩
  refine ⟨rfl, findings_rules h t, ?_, fun f hf => (hfound f hf).2, fun f hf => le_worst hf, hlevel, hconfirm⟩
  intro f hf
  obtain ⟨hhits, before, after, hsplit, hbefore⟩ := List.find?_eq_some_iff_append.1 (hfound f hf).1
  exact ⟨before, after, hsplit, hhits, fun line hline => by simpa using hbefore line hline⟩

/-- **A verdict, from the rules alone.** There is one exactly when checks are on, the target is not excluded, and some
active rule hits some line; and it says just what the rules give. -/
theorem judges_check (p : Policy) (catalog : List Rule) {c : Checker} (h : build p catalog = .ok c) (t : Target) :
    ((c.check t).isSome ↔ p.enabled = true ∧ t.name ∉ p.excludedTargets ∧
      ∃ r ∈ c.rules, ∃ line ∈ t.recipe, r.hits line = true) ∧ ∀ v, c.check t = some v → c.Judges t v := by
  refine ⟨?_, fun v hv => judges_of_check h hv⟩
  rw [← findings_ne_nil_iff h, ← (build_eq_ok h).1, Option.isSome_iff_exists]
  constructor
  · intro hsome
    obtain ⟨v, hv⟩ := hsome
    obtain ⟨hon, hin, hne, -⟩ := check_eq_some_iff.1 hv
    exact ⟨hon, hin, hne⟩
  · intro hall
    obtain ⟨hon, hin, hne⟩ := hall
    exact ⟨_, check_eq_some_iff.2 ⟨hon, hin, hne, rfl⟩⟩

end

/-- four rules: one for empty lines, one without patterns, and two that hit one line -/
def houseRules : List Rule := [
  { id := "blank", severity := .info, patterns := ["^$"] },
  { id := "none", severity := .critical },
  { id := "forced", severity := .critical, patterns := ["zzz", "rm\\s+-rf"] },
  { id := "root", severity := .warning, patterns := ["-rf\\s+/"] }]

/-- a harmless line, an empty one, and one that two rules hit -/
def tidy : Target := { name := "tidy", recipe := ["echo", "", "rm -rf /srv"] }

theorem found_tidy : ((build {} houseRules).toOption.bind (·.check tidy)).map
    (fun v => (v.findings.map fun f => (f.rule.id, f.line), v.needsConfirmation)) =
      some ([("blank", ""), ("forced", "rm -rf /srv"), ("root", "rm -rf /srv")], true) := by decide +kernel

/-- three rules hit, in their order, and one of them is critical -/
theorem judges_check_tidy : ∃ c v, build {} houseRules = .ok c ∧ c.check tidy = some v ∧ c.Judges tidy v ∧
    v.findings.map (fun f => (f.rule.id, f.line)) = [("blank", ""), ("forced", "rm -rf /srv"),
    ("root", "rm -rf /srv")] ∧
    v.needsConfirmation = true := by
  obtain ⟨v, hv, hfound⟩ := Option.map_eq_some_iff.1 found_tidy
  obtain ⟨c, hc, hcheck⟩ := Option.bind_eq_some_iff.1 hv
  rw [Prod.mk.injEq] at hfound
  cases hbuild : build {} houseRules with
  | error bad =>
    rw [hbuild] at hc
    cases hc
  | ok d =>
    rw [hbuild] at hc
    cases hc
    exact ⟨c, v, rfl, hcheck, (judges_check {} houseRules hbuild tidy).2 v hcheck, hfound⟩

end Checker

end MakeAtlas.Safety
