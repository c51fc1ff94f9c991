/-
The rule for forced removal, as a language. Its five patterns ask for a command with forcing options, and for something
that is removed right behind the last blank: a path of the file system, a home directory, or everything.
- `removes`, `removesAsRoot`: the words of the patterns.
- `says_removalNode`, `says_rootNode`: the patterns spell these words, wherever they stand.
- `hits_removal_iff`: the rule hits a line when one of the words occurs in it.
- `exists_words_of_root`, `exists_aim_of_removes`: the parts of such a word.
- `exists_trail_of_root`, `exists_trail_of_aim`, `exists_trail`: what stands behind the last blank of a word.
- `split_at_blank`: a word of a line that ends in a path lies before the path, or its end begins the path.
- `hits_path_iff`: a forced removal of a path is hit when the slash in front is followed by something else than a slash,
  and else only when the line is hit without the path.
Witness: a removal below `/var`. Counterexample `bare_root_passes`: the removal of `/` itself.
-/
import MakeAtlas.Machine
import MakeAtlas.Proofs.Pattern.Spelling
import MakeAtlas.Proofs.Safety.Building
import MakeAtlas.Proofs.Text.Blank

namespace MakeAtlas.Safety

open Context (ofClass wordChars)
open Makefile (Target)
open Pattern (Node Single Spells)
open Text (isBlank isWordChar)

def removal : Rule := (catalog.find? (·.id == "rm-rf-root")).getD { id := "" }

/-! ## The patterns -/

/-- a test for each of these characters -/
def codes (s : String) : List Single := s.toList.map fun c => .code c.toNat

/-- blanks, at least one -/
def gapNode : Node := .repeat .greedy 1 none (ofClass .space)

def row (s : String) : List Node := (codes s).map (.one {})

/-- short options with an `f` among them, and the blanks after them -/
def forcedNode : Node := .ofSeq (row "-" ++ wordChars :: (row "f" ++ wordChars :: [gapNode]))

/-- forced removal of something that begins like this -/
def removalNode (aim : List Single) : Node :=
  .ofSeq (row "rm" ++ gapNode :: .repeat .greedy 1 (some 2) (.group 1 forcedNode) :: aim.map (.one {}))

/-- forced removal with the rights of the superuser, whatever is removed -/
def rootNode : Node :=
  .ofSeq (row "sudo" ++ gapNode :: (row "rm" ++ gapNode :: (row "-" ++ wordChars :: row "rf")))

/-- a path from the top of the file system, and one name at least -/
def pathAim : List Single := [.code '/'.toNat, .set true [.code '/'.toNat, .named .space false]]

/-- what a forced removal is about -/
def aims : List (List Single) := [pathAim, codes "$HOME", codes "~", codes "*"]

theorem compile_removal [Pattern.Dialect] : removal.patterns.map (fun p => (Pattern.compile p).toOption) =
    [some (removalNode pathAim), some (removalNode (codes "$HOME")), some rootNode, some (removalNode (codes "~")),
      some (removalNode (codes "*"))] := by
  have heverywhere : ∀ p ∈ removal.patterns, Pattern.Everywhere (Pattern.Token.ofText p.toList) := by decide +kernel
  rw [List.map_congr_left fun p hp => by rw [Pattern.compile_of_everywhere rfl (heverywhere p hp)]]
  decide +kernel

/-! ## Their words -/

/-- blanks, at least one -/
def gaps : Language Char := {word | 1 ≤ word.length ∧ ∀ c ∈ word, isBlank c = true}

/-- word characters, or none -/
def runs : Language Char := {word | ∀ c ∈ word, isWordChar c.toNat = true}

def fits (aim : List Single) : Language Char :=
  {word | List.Forall₂ (fun (test : Single) (c : Char) => test.holds {} c.toNat = true) aim word}

/-- short options with an `f` among them, and the blanks after them -/
def forced : Language Char := fits (codes "-") * (runs * (fits (codes "f") * (runs * gaps)))

/-- forced removal of something that begins like this -/
def removes (aim : List Single) : Language Char := fits (codes "rm") * (gaps * ((forced + forced * forced) * fits aim))

/-- forced removal with the rights of the superuser, whatever is removed -/
def removesAsRoot : Language Char :=
  fits (codes "sudo") * (gaps * (fits (codes "rm") * (gaps * (fits (codes "-") * (runs * fits (codes "rf"))))))

/-- what the rule is about -/
def removals : Language Char := {word | word ∈ removesAsRoot ∨ ∃ aim ∈ aims, word ∈ removes aim}

section

variable {word : List Char}

theorem mem_fits_codes_iff {s : String} : word ∈ fits (codes s) ↔ word = s.toList := by
  change List.Forall₂ _ (codes s) word ↔ _
  rw [codes, List.forall₂_map_left_iff]
  simp only [Pattern.holds_code_iff]
  rw [List.forall₂_eq_eq_eq, eq_comm]

theorem says_gapNode : gapNode.Says gaps := by
  have hspace : ∀ c : Char, (Single.set false [.named .space false]).holds {} c.toNat = isBlank c := by
    intro c
    simp [Single.holds, Pattern.Member.holds, Pattern.CharClass.holds, isBlank]
  intro past word ahead
  simp only [gapNode, ofClass, Pattern.spells_many_iff, hspace]
  rfl

theorem says_wordChars : wordChars.Says runs := by
  have hword : ∀ c : Char, (Single.set false [.named .word false]).holds {} c.toNat = isWordChar c.toNat := by
    intro c
    simp [Single.holds, Pattern.Member.holds, Pattern.CharClass.holds]
  intro past word ahead
  simp only [wordChars, ofClass, Pattern.spells_many_iff, hword]
  exact and_iff_right (Nat.zero_le _)

theorem says_fits (aim : List Single) : (Node.ofSeq (aim.map (.one {}))).Says (fits aim) :=
  fun _ _ _ => Pattern.spells_ones_iff

theorem says_forcedNode : forcedNode.Says forced :=
  Pattern.says_append (says_fits (codes "-"))
    (Pattern.says_cons says_wordChars (Pattern.says_append (says_fits (codes "f"))
    (Pattern.says_cons says_wordChars says_gapNode)))

theorem says_removalNode (aim : List Single) : (removalNode aim).Says (removes aim) :=
  Pattern.says_append (says_fits (codes "rm")) (Pattern.says_cons says_gapNode
    (Pattern.says_cons (Pattern.says_twice .greedy (Pattern.says_group 1 says_forcedNode)) (says_fits aim)))

theorem says_rootNode : rootNode.Says removesAsRoot :=
  Pattern.says_append (says_fits (codes "sudo"))
    (Pattern.says_cons says_gapNode (Pattern.says_append (says_fits (codes "rm"))
    (Pattern.says_cons says_gapNode (Pattern.says_append (says_fits (codes "-")) (Pattern.says_cons says_wordChars
      (says_fits (codes "rf")))))))

theorem plain_row (s : String) : (row s).all Node.plain = true := by
  simp [row, codes, Node.plain]

theorem plain_removalNode (aim : List Single) : (removalNode aim).plain = true := by
  have haim : (aim.map (Node.one {})).all Node.plain = true := by simp [Node.plain]
  have hforced : forcedNode.plain = true := by decide
  simp only [removalNode, Pattern.plain_ofSeq, List.all_append, List.all_cons, plain_row, haim, Node.plain, hforced]
  decide

theorem found_removalNode_iff (aim : List Single) {text : List Char} :
    Pattern.found (removalNode aim) text = true ↔ ∃ word ∈ removes aim, word <:+: text :=
  Pattern.found_iff_of_says (plain_removalNode aim) (says_removalNode aim)

theorem found_rootNode_iff {text : List Char} : Pattern.found rootNode text = true ↔
    ∃ word ∈ removesAsRoot, word <:+: text :=
  Pattern.found_iff_of_says (by decide) says_rootNode

/-- **The rule is a language.** -/
theorem hits_removal_iff [Pattern.Dialect] {line : String} : removal.hits line = true ↔
    ∃ word ∈ removals, word <:+: line.toList := by
  have hhits : removal.hits line = (removal.patterns.map fun p => (Pattern.compile p).toOption).any
      fun n => n.any fun n => Pattern.found n line.toList := by
    rw [Rule.hits, List.any_map]
    rfl
  have hwords : (∃ word ∈ removals, word <:+: line.toList) ↔
      (∃ word ∈ removesAsRoot, word <:+: line.toList) ∨
        ∃ aim ∈ aims, ∃ word ∈ removes aim, word <:+: line.toList := by
    constructor
    · rintro ⟨word, hroot | ⟨aim, haim, hword⟩, hline⟩
      · exact .inl ⟨word, hroot, hline⟩
      · exact .inr ⟨aim, haim, word, hword, hline⟩
    · rintro (⟨word, hroot, hline⟩ | ⟨aim, haim, word, hword, hline⟩)
      · exact ⟨word, .inl hroot, hline⟩
      · exact ⟨word, .inr ⟨aim, haim, hword⟩, hline⟩
  rw [hhits, compile_removal, hwords]
  simp only [← found_removalNode_iff, ← found_rootNode_iff, aims, List.any_cons, List.any_nil, Option.any_some,
    Bool.or_eq_true, List.mem_cons, List.not_mem_nil, exists_eq_or_imp, Bool.or_false, or_false, exists_eq_left]
  -- the pattern for the superuser is the third one
  exact (or_congr_right or_left_comm).trans or_left_comm

end

/-! ## The last blank -/

def EndsBlank (L : Language Char) : Prop := ∀ word ∈ L, ∃ u b, word = u ++ [b] ∧ isBlank b = true

/-- what stands behind the last blank of a removal; behind a slash there is one character more, and it is no slash -/
structure Trail (tail : List Char) : Prop where
  ne_nil : tail ≠ []
  ink : ∀ c ∈ tail, isBlank c = false
  path : ∀ rest, tail = '/' :: rest → ∃ c, rest = [c] ∧ c ≠ '/'

section

variable {L M : Language Char} {word tail : List Char}

theorem endsBlank_gaps : EndsBlank gaps := by
  intro word hword
  have hne : word ≠ [] := List.length_pos_iff.1 hword.1
  exact ⟨word.dropLast, word.getLast hne, (List.dropLast_append_getLast hne).symm, hword.2 _ (List.getLast_mem hne)⟩

theorem EndsBlank.mul (hM : EndsBlank M) : EndsBlank (L * M) := by
  intro word hword
  obtain ⟨u, -, v, hv, rfl⟩ := Language.mem_mul.1 hword
  obtain ⟨w, b, rfl, hb⟩ := hM v hv
  exact ⟨u ++ w, b, (List.append_assoc u w [b]).symm, hb⟩

theorem EndsBlank.add (hL : EndsBlank L) (hM : EndsBlank M) : EndsBlank (L + M) := by
  rintro word (hword | hword)
  · exact hL word hword
  · exact hM word hword

theorem endsBlank_forced : EndsBlank forced := endsBlank_gaps.mul.mul.mul.mul

theorem holds_name_iff {c : Char} :
    (Single.set true [.code '/'.toNat, .named .space false]).holds {} c.toNat = true ↔ c ≠ '/' ∧ isBlank c = false := by
  simp [Single.holds, Pattern.Member.holds, Pattern.CharClass.holds, Pattern.Mode.same, isBlank, ← Char.toNat_inj]

theorem mem_fits_pathAim_iff : tail ∈ fits pathAim ↔ ∃ c, tail = ['/', c] ∧ c ≠ '/' ∧ isBlank c = false := by
  change List.Forall₂ _ pathAim tail ↔ _
  simp only [pathAim, List.forall₂_cons_left_iff, List.forall₂_nil_left_iff, Pattern.holds_code_iff, holds_name_iff]
  constructor
  · rintro ⟨_, _, rfl, ⟨c, _, hc, rfl, rfl⟩, rfl⟩
    exact ⟨c, rfl, hc⟩
  · rintro ⟨c, rfl, hc⟩
    exact ⟨'/', [c], rfl, ⟨c, [], hc, rfl, rfl⟩, rfl⟩

/-- the characters of a text, tested one by one -/
theorem ink_of_all {s : String} (h : (s.toList.all fun c => !isBlank c) = true) :
    ∀ c ∈ s.toList, isBlank c = false := by
  simpa using h

theorem trail_of_aim {aim : List Single} (haim : aim ∈ aims) (h : tail ∈ fits aim) : Trail tail := by
  simp only [aims, List.mem_cons, List.not_mem_nil, or_false] at haim
  rcases haim with rfl | rfl | rfl | rfl
  · obtain ⟨c, rfl, hc, hink⟩ := mem_fits_pathAim_iff.1 h
    exact ⟨by simp, by simpa using ⟨by decide, hink⟩, by simpa using hc⟩
  all_goals
    obtain rfl := mem_fits_codes_iff.1 h
    exact ⟨by decide, ink_of_all (by decide), by simp⟩

/-- the words of a removal as superuser, one by one -/
theorem exists_words_of_root (h : word ∈ removesAsRoot) : ∃ gap ∈ gaps, ∃ gap' ∈ gaps, ∃ run ∈ runs,
    word = "sudo".toList ++ (gap ++ ("rm".toList ++ (gap' ++ '-' :: (run ++ "rf".toList)))) := by
  obtain ⟨root, hroot, _, ⟨gap, hgap, _,
    ⟨rm, hrm, _, ⟨gap', hgap', _, ⟨dash, hdash, _, ⟨run, hrun, force, hforce, rfl⟩, rfl⟩, rfl⟩, rfl⟩, rfl⟩, rfl⟩ := h
  obtain rfl := mem_fits_codes_iff.1 hroot
  obtain rfl := mem_fits_codes_iff.1 hrm
  obtain rfl := mem_fits_codes_iff.1 hdash
  obtain rfl := mem_fits_codes_iff.1 hforce
  exact ⟨gap, hgap, gap', hgap', run, hrun, rfl⟩

/-- behind the last blank of a removal as superuser are its options -/
theorem exists_trail_of_root (h : word ∈ removesAsRoot) :
    ∃ u b tail, word = u ++ b :: tail ∧ isBlank b = true ∧ Trail tail := by
  obtain ⟨gap, -, gap', hgap', run, hrun, rfl⟩ := exists_words_of_root h
  obtain ⟨u, b, rfl, hb⟩ := endsBlank_gaps gap' hgap'
  refine ⟨"sudo".toList ++ (gap ++ ("rm".toList ++ u)), b, '-' :: (run ++ ['r', 'f']), by simp,
    hb, by simp, ?_, by simp⟩
  have hends : isBlank '-' = false ∧ isBlank 'r' = false ∧ isBlank 'f' = false := by decide
  have hink : ∀ c ∈ run, isBlank c = false := fun c hc => Text.isBlank_of_isWordChar (hrun c hc)
  simpa [or_imp, forall_and, hends] using hink

/-- any other removal ends in what it is about, right behind a blank -/
theorem exists_aim_of_removes {aim : List Single} (h : word ∈ removes aim) :
    ∃ u b tail, word = u ++ b :: tail ∧ isBlank b = true ∧ tail ∈ fits aim := by
  obtain ⟨rm, -, _, ⟨gap, -, _, ⟨options, hoptions, tail, htail, rfl⟩, rfl⟩, rfl⟩ := h
  obtain ⟨u, b, rfl, hb⟩ := (endsBlank_forced.add endsBlank_forced.mul) options hoptions
  exact ⟨rm ++ (gap ++ u), b, tail, by simp, hb, htail⟩

/-- behind the last blank of any other removal is what it is about -/
theorem exists_trail_of_aim {aim : List Single} (haim : aim ∈ aims) (h : word ∈ removes aim) :
    ∃ u b tail, word = u ++ b :: tail ∧ isBlank b = true ∧ Trail tail := by
  obtain ⟨u, b, tail, hword, hb, htail⟩ := exists_aim_of_removes h
  exact ⟨u, b, tail, hword, hb, trail_of_aim haim htail⟩

theorem exists_trail (h : word ∈ removals) : ∃ u b tail, word = u ++ b :: tail ∧ isBlank b = true ∧ Trail tail := by
  rcases h with h | ⟨aim, haim, h⟩
  · exact exists_trail_of_root h
  · exact exists_trail_of_aim haim h

/-- a blank and a tail without blanks, in a text that ends in a path: the tail begins the path, or both lie in front of
it -/
theorem split_at_blank {front path u rest : List Char} {b : Char} (hpath : ∀ c ∈ path, isBlank c = false)
    (hb : isBlank b = true) (htail : ∀ c ∈ tail, isBlank c = false)
    (h : front ++ ' ' :: path = u ++ b :: (tail ++ rest)) :
    path = tail ++ rest ∨ ∃ rest', front = u ++ b :: (tail ++ rest') := by
  have hspace : isBlank ' ' = true := by decide
  rcases List.append_eq_append_iff.1 h with ⟨v, rfl, hv⟩ | ⟨v, rfl, hv⟩
  · cases v with
    | nil => exact .inl (List.cons.inj hv).2
    | cons c v =>
      -- the blank would stand in the path
      obtain ⟨rfl, rfl⟩ := List.cons.inj hv
      rw [hpath b (by simp)] at hb
      cases hb
  · cases v with
    | nil => exact .inl (List.cons.inj hv).2.symm
    | cons c v =>
      obtain ⟨rfl, hbehind⟩ := List.cons.inj hv
      rcases List.append_eq_append_iff.1 hbehind with ⟨w, rfl, hw⟩ | ⟨w, rfl, hw⟩
      · exact .inr ⟨w, rfl⟩
      · cases w with
        | nil => exact .inr ⟨[], by simp⟩
        | cons d w =>
          -- the last blank would stand in the tail
          obtain ⟨rfl, -⟩ := List.cons.inj hw
          rw [htail ' ' (by simp)] at hspace
          cases hspace

end

/-! ## Removing a path -/

section

variable {path : List Char}

theorem mem_runs_of_all {s : String} (h : s.toList.all (isWordChar ·.toNat) = true) : s.toList ∈ runs := fun c hc =>
  List.all_eq_true.1 h c hc

/-- the usual options -/
theorem mem_forced : "-rf ".toList ∈ forced := by
  have hgap : [' '] ∈ gaps := ⟨le_rfl, List.forall_mem_singleton.2 (by decide)⟩
  have hdash : "-".toList ∈ fits (codes "-") := mem_fits_codes_iff.2 rfl
  have hforce : "f".toList ∈ fits (codes "f") := mem_fits_codes_iff.2 rfl
  have hbefore : "r".toList ∈ runs := mem_runs_of_all (by decide)
  have hafter : "".toList ∈ runs := mem_runs_of_all (by decide)
  exact ⟨_, hdash, _, ⟨_, hbefore, _, ⟨_, hforce, _, ⟨_, hafter, _, hgap, rfl⟩, rfl⟩, rfl⟩, rfl⟩

/-- the removal of anything below the root -/
theorem mem_removals {c : Char} (hc : c ≠ '/') (hink : isBlank c = false) : "rm -rf /".toList ++ [c] ∈ removals := by
  have hgap : [' '] ∈ gaps := ⟨le_rfl, List.forall_mem_singleton.2 (by decide)⟩
  have hname : ['/', c] ∈ fits pathAim := mem_fits_pathAim_iff.2 ⟨c, rfl, hc, hink⟩
  have hcommand : "rm".toList ∈ fits (codes "rm") := mem_fits_codes_iff.2 rfl
  exact .inr ⟨pathAim, by simp [aims], _, hcommand, _, ⟨_, hgap, _, ⟨_, .inl mem_forced, _, hname, rfl⟩, rfl⟩, rfl⟩

/-- a removal of a path ends in the path, or is one without it -/
theorem exists_removal_iff {front : List Char} (hslash : path.head? = some '/') (hpath : ∀ c ∈ path, isBlank c = false)
    (hforced : "rm -rf".toList <:+ front) : (∃ word ∈ removals, word <:+: front ++ ' ' :: path) ↔
      (∃ c rest, path = '/' :: c :: rest ∧ c ≠ '/') ∨ ∃ word ∈ removals, word <:+: front := by
  constructor
  · rintro ⟨word, hword, before, rest, htext⟩
    obtain ⟨u, b, tail, rfl, hb, htail⟩ := exists_trail hword
    have hsplit : front ++ ' ' :: path = (before ++ u) ++ b :: (tail ++ rest) := by simp [← htext]
    rcases split_at_blank hpath hb htail.ink hsplit with rfl | ⟨rest', rfl⟩
    · -- the path begins with what stands behind the last blank
      obtain ⟨d, tail, rfl⟩ := List.exists_cons_of_ne_nil htail.ne_nil
      obtain rfl : d = '/' := by simpa using hslash
      obtain ⟨c, rfl, hc⟩ := htail.path tail rfl
      exact .inl ⟨c, rest, rfl, hc⟩
    · exact .inr ⟨_, hword, before, rest', by simp⟩
  · rintro (⟨c, rest, rfl, hc⟩ | ⟨word, hword, hfront⟩)
    · obtain ⟨before, rfl⟩ := hforced
      exact ⟨_, mem_removals hc (hpath c (by simp)), before, rest, by simp⟩
    · exact ⟨word, hword, hfront.trans (List.prefix_append _ _).isInfix⟩

end

/-- the forced removal of a path, behind other text -/
def forcedLine (before path : String) : String := before ++ "rm -rf " ++ path

theorem hits_forcedLine_iff [Pattern.Dialect] {before path : String} (hslash : path.toList.head? = some '/')
    (hpath : ∀ c ∈ path.toList, isBlank c = false) : removal.hits (forcedLine before path) = true ↔
      (∃ c rest, path.toList = '/' :: c :: rest ∧ c ≠ '/') ∨ removal.hits (before ++ "rm -rf") = true := by
  have hline : (forcedLine before path).toList = (before ++ "rm -rf").toList ++ ' ' :: path.toList := by
    simp [forcedLine]
  have hforced : "rm -rf".toList <:+ (before ++ "rm -rf").toList := by simp
  rw [hits_removal_iff, hits_removal_iff, hline]
  exact exists_removal_iff hslash hpath hforced

/-- the checker with the usual settings has the rule -/
theorem exists_build_removal [Pattern.Dialect] : ∃ c, Checker.build {} catalog = .ok c ∧ removal ∈ c.rules := by
  obtain ⟨c, hbuild, hrules, -⟩ := Checker.exists_build_catalog (p := {}) rfl
  have hmem : removal ∈ ({} : Policy).selected catalog := by decide +kernel
  exact ⟨c, hbuild, hrules ▸ hmem⟩

/-- **A path is removed.** The rule hits exactly when the slash in front is followed by something else than a slash, or
the line is hit without the path; and every target with such a line is reported. -/
theorem hits_path_iff [Pattern.Dialect] (before path : String) (hslash : path.toList.head? = some '/')
    (hpath : ∀ c ∈ path.toList, isBlank c = false) :
    (removal.hits (forcedLine before path) = true ↔
      (∃ c rest, path.toList = '/' :: c :: rest ∧ c ≠ '/') ∨ removal.hits (before ++ "rm -rf") = true) ∧
    ∃ c, Checker.build {} catalog = .ok c ∧ ∀ t : Target, forcedLine before path ∈ t.recipe →
      removal.hits (forcedLine before path) = true → ∃ v, c.check t = some v ∧ ∃ f ∈ v.findings, f.rule = removal := by
  obtain ⟨c, hbuild, hmem⟩ := exists_build_removal
  refine ⟨hits_forcedLine_iff hslash hpath, c, hbuild, ?_⟩
  intro t hline hhits
  exact Checker.exists_finding hbuild hmem rfl (by simp) hline hhits

/-- everything below a directory, and the target that removes it -/
theorem hits_path_iff_var : removal.hits "cd /srv && rm -rf /var/lib" = true ∧ ∃ c, Checker.build {} catalog = .ok c ∧
    ∃ v, c.check { name := "wipe", recipe := ["cd /srv && rm -rf /var/lib"] } = some v ∧
    ∃ f ∈ v.findings, f.rule = removal := by
  obtain ⟨hiff, c, hbuild, hreport⟩ := hits_path_iff "cd /srv && " "/var/lib" (by decide) (ink_of_all (by decide))
  have hname : "/var/lib".toList = '/' :: 'v' :: "ar/lib".toList := by decide
  have hhits : removal.hits (forcedLine "cd /srv && " "/var/lib") = true := hiff.2 (.inl ⟨'v', _, hname, by decide⟩)
  exact ⟨hhits, c, hbuild, hreport { name := "wipe", recipe := ["cd /srv && rm -rf /var/lib"] } (by decide) hhits⟩

/-- **The bare root passes.** -/
theorem bare_root_passes : ¬ ∀ before path : String, path.toList.head? = some '/' →
    (∀ c ∈ path.toList, isBlank c = false) →
    removal.hits (forcedLine before path) = true := by
  intro hall
  have hhits : removal.hits "rm -rf /" = true := hall "" "/" (by decide) (ink_of_all (by decide))
  have hno : removal.hits "rm -rf /" = false := by decide +kernel
  rw [hno] at hhits
  cases hhits

end MakeAtlas.Safety
