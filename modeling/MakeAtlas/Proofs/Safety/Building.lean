/-
What a bad rule does to a checker. Some patterns are not well written, and some are too much for the reader; a rule with
one of the first kind is skipped, and the first rule with one of the second kind leaves no checker at all.
- `Rule.bad?`: the first pattern of a rule that cannot be read.
- `bad?_eq_none_iff`, `bad?_eq_some_iff`: when there is one, and which it is.
- `compile_eq`: a rule is read exactly when it has none.
- `add_eq`: one more rule is taken in, skipped, or fatal.
- `foldlM_add_eq`: the first fatal pattern decides; without one every rule is taken in or skipped.
- `exists_build_iff`, `mem_rules_iff`: when there is a checker, and which rules are active in it.
- `build_eq`: the checker of a policy, whatever its rules.
- `isSome_compile_of_chars`: a pattern is read from its characters.
- `isSome_compile_catalog`: every pattern of the catalog can be read.
- `exists_build_catalog`: the checker of a policy without rules of its own.
- `exists_build_of_malformed`: badly written custom rules do not stop a checker.
Counterexample `huge_count_stops`: a repetition count that does not fit stops the checker, with all its other rules.
-/
import MakeAtlas.Proofs.Safety.Judgement

namespace MakeAtlas.Safety

/-- a pattern that stops the checker: the fault is not in how it is written -/
def BadPattern.fatal (bad : BadPattern) : Bool := bad.fault != .malformed

/-! ## One rule -/

namespace Rule

variable [Pattern.Dialect]

/-- the pattern with its fault, if it cannot be read -/
def refusal? (r : Rule) (pattern : String) : Option BadPattern :=
  match Pattern.compile pattern with
  | .ok _ => none
  | .error fault => some ⟨r.id, pattern, fault⟩

/-- the first pattern of the rule that cannot be read -/
def bad? (r : Rule) : Option BadPattern := r.patterns.findSome? r.refusal?

def readable (r : Rule) : List Pattern.Node := r.patterns.filterMap fun p => (Pattern.compile p).toOption

/-- all patterns of the rule can be read -/
def Readable (r : Rule) : Prop := ∀ p ∈ r.patterns, (Pattern.compile p).toOption.isSome = true

instance : DecidablePred Readable :=
  fun r => List.decidableBAll (fun p => (Pattern.compile p).toOption.isSome = true) r.patterns

theorem refusal?_eq_none_iff {r : Rule} {p : String} :
    r.refusal? p = none ↔ (Pattern.compile p).toOption.isSome = true := by
  rw [refusal?]
  cases Pattern.compile p <;> simp [Except.toOption]

theorem refusal?_eq_some_iff {r : Rule} {p : String} {bad : BadPattern} :
    r.refusal? p = some bad ↔ bad.rule = r.id ∧ bad.pattern = p ∧ Pattern.compile p = .error bad.fault := by
  rw [refusal?]
  cases Pattern.compile p with
  | ok n => simp
  | error fault =>
    rw [Option.some.injEq, Except.error.injEq]
    constructor
    · intro hbad
      rw [← hbad]
      exact ⟨rfl, rfl, rfl⟩
    · intro hall
      obtain ⟨hrule, hpattern, hfault⟩ := hall
      rw [← hrule, ← hpattern, hfault]

theorem bad?_eq_none_iff {r : Rule} : r.bad? = none ↔ r.Readable := by
  simp only [bad?, List.findSome?_eq_none_iff, refusal?_eq_none_iff, Readable]

/-- the patterns before the first bad one can be read -/
theorem bad?_eq_some_iff {r : Rule} {bad : BadPattern} : r.bad? = some bad ↔
    bad.rule = r.id ∧ Pattern.compile bad.pattern = .error bad.fault ∧
      ∃ before after, r.patterns = before ++ bad.pattern :: after ∧
        ∀ p ∈ before, (Pattern.compile p).toOption.isSome = true := by
  simp only [bad?, List.findSome?_eq_some_iff, refusal?_eq_some_iff, refusal?_eq_none_iff]
  constructor
  · intro hfirst
    obtain ⟨before, p, after, hsplit, ⟨hrule, rfl, hfault⟩, hbefore⟩ := hfirst
    exact ⟨hrule, hfault, before, after, hsplit, hbefore⟩
  · intro hall
    obtain ⟨hrule, hfault, before, after, hsplit, hbefore⟩ := hall
    exact ⟨before, bad.pattern, after, hsplit, ⟨hrule, rfl, hfault⟩, hbefore⟩

theorem mapM_compileOne_eq (r : Rule) (ps : List String) : ps.mapM r.compileOne =
    match ps.findSome? r.refusal? with
    | some bad => .error bad
    | none => .ok (ps.filterMap fun p => (Pattern.compile p).toOption) := by
  induction ps with
  | nil => rfl
  | cons p ps ih =>
    rw [List.mapM_cons, ih, List.findSome?_cons, List.filterMap_cons]
    cases hp : Pattern.compile p with
    | error fault => simp only [compileOne, refusal?, hp, bind, Except.bind]
    | ok n =>
      simp only [compileOne, refusal?, hp, bind, Except.bind]
      cases ps.findSome? r.refusal? <;> rfl

/-- a rule is read when all its patterns are -/
theorem compile_eq (r : Rule) : r.compile =
    match r.bad? with
    | some bad => .error bad
    | none => .ok ⟨r, r.readable⟩ := by
  rw [compile, mapM_compileOne_eq, bad?]
  cases r.patterns.findSome? r.refusal? <;> rfl

end Rule

/-- an empty list of enabled rules selects all of the catalog; custom rules are always selected -/
theorem Policy.mem_selected_iff {p : Policy} {catalog : List Rule} {r : Rule} : r ∈ p.selected catalog ↔
    (p.enabled = true ∧ r ∈ catalog ∧ (p.enabledRules = [] ∨ r.id ∈ p.enabledRules)) ∨ r ∈ p.customRules := by
  rw [selected, List.mem_append]
  cases p.enabled <;> simp

/-! ## One rule after the other -/

namespace Checker

section

variable [Pattern.Dialect]

/-- the checker with more rules, those that can be read active and the others skipped -/
def takeIn (c : Checker) (rs : List Rule) : Checker :=
  { c with active := c.active ++ (rs.filter (·.bad?.isNone)).map (fun r => ⟨r, r.readable⟩)
           skipped := c.skipped ++ rs.filterMap Rule.bad? }

theorem takeIn_nil (c : Checker) : c.takeIn [] = c := by
  simp [takeIn]

theorem takeIn_append (c : Checker) (rs qs : List Rule) : c.takeIn (rs ++ qs) = (c.takeIn rs).takeIn qs := by
  simp [takeIn]

theorem rules_takeIn (c : Checker) (rs : List Rule) : (c.takeIn rs).rules = c.rules ++ rs.filter (·.bad?.isNone) := by
  rw [rules, takeIn, List.map_append, List.map_map]
  exact congrArg _ (List.map_id _)

theorem add_eq (c : Checker) (r : Rule) : c.add r =
    match r.bad? with
    | none => .ok (c.takeIn [r])
    | some bad => if bad.fatal then .error bad else .ok (c.takeIn [r]) := by
  rw [add, r.compile_eq]
  cases hr : r.bad? with
  | none => simp [takeIn, hr]
  | some bad =>
    by_cases hfault : bad.fault = .malformed
    · simp [takeIn, hr, BadPattern.fatal, hfault]
    · simp [BadPattern.fatal, hfault]

/-- the first pattern of these rules that stops the checker -/
def fatal? (rs : List Rule) : Option BadPattern := (rs.filterMap Rule.bad?).find? BadPattern.fatal

theorem fatal?_cons (r : Rule) (rs : List Rule) : fatal? (r :: rs) =
    match r.bad? with
    | none => fatal? rs
    | some bad => if bad.fatal then some bad else fatal? rs := by
  rw [fatal?, List.filterMap_cons]
  cases r.bad? with
  | none => rfl
  | some bad =>
    simp only [List.find?_cons]
    cases bad.fatal <;> rfl

/-- every rule is taken in, up to the first one that stops the checker -/
theorem foldlM_add_eq (c : Checker) (rs : List Rule) : rs.foldlM add c =
    match fatal? rs with
    | some bad => .error bad
    | none => .ok (c.takeIn rs) := by
  induction rs generalizing c with
  | nil =>
    rw [takeIn_nil]
    rfl
  | cons r rs ih =>
    have htake : (c.takeIn [r]).takeIn rs = c.takeIn (r :: rs) := (takeIn_append c [r] rs).symm
    rw [List.foldlM_cons, add_eq, fatal?_cons, ← htake]
    cases r.bad? with
    | none => exact ih _
    | some bad =>
      cases hfatal : bad.fatal with
      | true => simp only [hfatal, if_true]; rfl
      | false => simp only [hfatal, Bool.false_eq_true, if_false]; exact ih _

theorem fatal?_eq_none_iff {rs : List Rule} :
    fatal? rs = none ↔ ∀ r ∈ rs, ∀ bad, r.bad? = some bad → bad.fatal = false := by
  rw [fatal?, List.find?_eq_none]
  constructor
  · intro hnone r hr bad hbad
    simpa using hnone bad (List.mem_filterMap.2 ⟨r, hr, hbad⟩)
  · intro hall bad hmem
    obtain ⟨r, hr, hbad⟩ := List.mem_filterMap.1 hmem
    simp [hall r hr bad hbad]

theorem build_of_fatal? {p : Policy} {catalog : List Rule} (h : fatal? (p.selected catalog) = none) :
    build p catalog = .ok (takeIn { policy := p } (p.selected catalog)) := by
  rw [build, foldlM_add_eq, h]

/-- **A malformed rule is skipped and the others stay; any other bad pattern leaves no checker.** -/
theorem build_eq (p : Policy) (catalog : List Rule) : build p catalog =
    match fatal? (p.selected catalog) with
    | some bad => .error bad
    | none => .ok (takeIn { policy := p } (p.selected catalog)) := foldlM_add_eq _ _

/-- there is a checker unless some selected rule stops it -/
theorem exists_build_iff {p : Policy} {catalog : List Rule} :
    (∃ c, build p catalog = .ok c) ↔ ∀ r ∈ p.selected catalog, ∀ bad, r.bad? = some bad → bad.fatal = false := by
  rw [← fatal?_eq_none_iff, build, foldlM_add_eq]
  cases fatal? (p.selected catalog) <;> simp

/-- the active rules are the selected ones that can be read -/
theorem mem_rules_iff {p : Policy} {catalog : List Rule} {c : Checker} (h : build p catalog = .ok c) {r : Rule} :
    r ∈ c.rules ↔ r ∈ p.selected catalog ∧ r.bad? = none := by
  have hfatal : fatal? (p.selected catalog) = none := fatal?_eq_none_iff.2 (exists_build_iff.1 ⟨c, h⟩)
  rw [build_of_fatal? hfatal, Except.ok.injEq] at h
  rw [← h, rules_takeIn, List.mem_append, List.mem_filter, Option.isNone_iff_eq_none]
  exact or_iff_right List.not_mem_nil

end

/-- one rule of the catalog, and a custom rule whose repetition count does not fit -/
def overfull : Policy :=
  { enabledRules := ["git-reset-hard"], customRules := [{ id := "x", patterns := ["a\x7b4294967295\x7d"] }] }

theorem fatal?_overfull : fatal? (overfull.selected catalog) = some ⟨"x", "a\x7b4294967295\x7d", .numberTooLarge⟩ := by
  decide +kernel

/-- **A count that does not fit takes the checker down.** -/
theorem huge_count_stops : ¬ ∀ (p : Policy) (rules : List Rule), ∃ c, build p rules = .ok c ∧
    c.rules = (p.selected rules).filter (·.bad?.isNone) ∧ c.skipped = (p.selected rules).filterMap Rule.bad? := by
  intro h
  obtain ⟨c, hc, -⟩ := h overfull catalog
  rw [show build overfull catalog = _ from foldlM_add_eq _ _, fatal?_overfull] at hc
  cases hc

end Checker

end MakeAtlas.Safety

/-! ## The catalog

The rules of the catalog can all be read, so a policy that adds no rules always has a checker, with every rule that it
selects. -/

namespace MakeAtlas.Safety

variable [Pattern.Dialect]

theorem isSome_compile_of_chars {s : String} {cs : List Char} (hs : s = String.ofList cs)
    (heverywhere : Pattern.Everywhere (Pattern.Token.ofText cs))
    (hread : (Pattern.read (Pattern.Token.ofText cs)).1.toOption.isSome = true) :
    (Pattern.compile s).toOption.isSome = true := by
  rw [hs, Pattern.compile_of_everywhere String.toList_ofList heverywhere]
  exact hread

-- the patterns are given as characters first, since to take a string apart costs the kernel more than to read the
-- pattern
theorem isSome_compile_catalog : ∀ r ∈ catalog, ∀ p ∈ r.patterns, (Pattern.compile p).toOption.isSome = true := by
  simp only [catalog, List.forall_mem_cons, List.not_mem_nil, false_implies, implies_true, and_true]
  and_intros
  all_goals
    refine isSome_compile_of_chars rfl ?_ ?_
    · decide +kernel
    · decide +kernel

namespace Checker

variable {p : Policy}

theorem bad?_of_mem_selected (hcustom : p.customRules = []) {r : Rule} (hr : r ∈ p.selected catalog) :
    r.bad? = none := by
  refine Rule.bad?_eq_none_iff.2 (isSome_compile_catalog r ?_)
  rw [Policy.selected, hcustom, List.append_nil] at hr
  split at hr
  · exact (List.mem_filter.1 hr).1
  · cases hr

/-- **The catalog is sound.** A policy without rules of its own has a checker, and no rule is skipped. -/
theorem exists_build_catalog (hcustom : p.customRules = []) :
    ∃ c, build p catalog = .ok c ∧ c.rules = p.selected catalog ∧ c.skipped = [] := by
  have hnone : (p.selected catalog).filterMap Rule.bad? = [] :=
    List.filterMap_eq_nil_iff.2 fun r hr => bad?_of_mem_selected hcustom hr
  have hfatal : fatal? (p.selected catalog) = none := by rw [fatal?, hnone, List.find?_nil]
  refine ⟨_, build_of_fatal? hfatal, ?_, ?_⟩
  · rw [rules_takeIn, List.filter_eq_self.2 fun r hr => by rw [bad?_of_mem_selected hcustom hr]; rfl]
    rfl
  · rw [takeIn, hnone]
    rfl

/-- custom rules that can be read, or are only badly written, leave a checker -/
theorem exists_build_of_malformed (hcustom : ∀ r ∈ p.customRules, ∀ s ∈ r.patterns, ∀ fault,
    Pattern.compile s = .error fault → fault = .malformed) : ∃ c, build p catalog = .ok c := by
  refine exists_build_iff.2 fun r hr bad hbad => ?_
  obtain ⟨-, hread, before, after, hsplit, -⟩ := Rule.bad?_eq_some_iff.1 hbad
  rcases Policy.mem_selected_iff.1 hr with hbuiltIn | hr
  · rw [Rule.bad?_eq_none_iff.2 (isSome_compile_catalog r hbuiltIn.2.1)] at hbad
    cases hbad
  · have hmem : bad.pattern ∈ r.patterns := by simp [hsplit]
    simp [BadPattern.fatal, hcustom r hr bad.pattern hmem bad.fault hread]

end Checker

end MakeAtlas.Safety
