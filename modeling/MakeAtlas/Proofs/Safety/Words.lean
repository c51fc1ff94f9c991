/-
Two tests of a line, in terms of its words. Whether a command asks before it acts is a matter of its fields, and whether
it names a production system one of its runs of word characters; what the patterns try on the way does not show.
- `compile_interactivePattern`, `mentionsProduction_eq_any_compile`: the tests are searches with the patterns as
  written.
- `mem_asking_iff`: blanks, and a field of short options with an `i` among them.
- `spells_interactivePattern_iff`: such a field with the blank behind it or the end, or the long option.
- `hasInteractiveFlag_iff`: a whole field behind a blank, since the blanks in front and behind are its ends.
- `mentionsProduction_iff_isRun`: a word between boundaries is a maximal run of word characters.
- `hasInteractiveFlag_and_mentionsProduction`: both tests, for every line.
-/
import MakeAtlas.Proofs.Safety.Context
import MakeAtlas.Proofs.Safety.Removal
import MakeAtlas.Proofs.Text.Fields

namespace MakeAtlas.Safety

open Context (interactivePattern literal ofClass wholeWord wordChars)
open Pattern (Anchor Node Single Spells Spot)
open Text (IsRun isBlank isInk isWordChar toLower)

/-! ## The patterns -/

variable [Pattern.Dialect] in
theorem compile_interactivePattern :
    Pattern.compile "\\s+-\\w*i\\w*(\\s|$)|--interactive" = .ok interactivePattern := by
  rw [Pattern.compile_of_everywhere rfl (by decide +kernel)]
  decide +kernel

/-- the word between boundaries, as one row of characters -/
def boundedRow (w : String) : Node := .ofSeq (.at {} .boundary :: (row w ++ [.at {} .boundary]))

variable [Pattern.Dialect] in
theorem compile_boundedRow : ∀ w ∈ productionWords, Pattern.compile ("\\b" ++ w ++ "\\b") = .ok (boundedRow w) := by
  have hread : ∀ w ∈ productionWords,
    Pattern.Everywhere (Pattern.Token.ofText ("\\b".toList ++ w.toList ++ "\\b".toList)) ∧
      (Pattern.read (Pattern.Token.ofText ("\\b".toList ++ w.toList ++ "\\b".toList))).1 = .ok (boundedRow w) := by
    decide +kernel
  intro w hw
  obtain ⟨heverywhere, hrow⟩ := hread w hw
  rw [Pattern.compile_of_everywhere (by simp only [String.toList_append]) heverywhere, hrow]

/-- the pattern is read as one row, which finds what the word between boundaries does -/
theorem found_boundedRow (w : String) (text : List Char) :
    Pattern.found (boundedRow w) text = Pattern.found (wholeWord w) text := by
  have hliteral : literal w = .ofSeq (row w) := by
    rw [literal, row, codes, List.map_map]
    rfl
  have hspells : ∀ past word ahead, Spells (boundedRow w) past word ahead ↔ Spells (wholeWord w) past word ahead := by
    intro past word ahead
    simp only [boundedRow, wholeWord, hliteral, Pattern.spells_ofSeq_cons (n := .at {} .boundary),
      Pattern.spells_ofSeq_append]
    simp only [Pattern.spells_ofSeq_cons]
  rw [Bool.eq_iff_iff, Pattern.found_iff, Pattern.found_iff]
  · simp only [hspells]
  · simp [wholeWord, hliteral, Pattern.plain_ofSeq, Node.plain, plain_row]
  · simp [boundedRow, Pattern.plain_ofSeq, Node.plain, plain_row]

variable [Pattern.Dialect] in
/-- the test is one search for each word, with its pattern as written -/
theorem mentionsProduction_eq_any_compile (line : String) : mentionsProduction line =
    productionWords.any fun w => (Pattern.compile ("\\b" ++ w ++ "\\b")).toOption.any
      (Pattern.found · (toLower line.toList)) := by
  rw [Bool.eq_iff_iff, mentionsProduction, List.any_eq_true, List.any_eq_true]
  refine exists_congr fun w => and_congr_right fun hw => ?_
  rw [compile_boundedRow w hw, Except.toOption, Option.any_some, found_boundedRow]

/-! ## Commands that ask -/

/-- a dash, and then only word characters, with an `i` among them -/
def IsAskingOption (field : List Char) : Prop :=
  ∃ options, field = '-' :: options ∧ (∀ c ∈ options, isWordChar c.toNat = true) ∧ 'i' ∈ options

/-- blanks, and short options with an `i` among them -/
def asking : Language Char := gaps * (fits (codes "-") * (runs * (fits (codes "i") * runs)))

section

variable {past word ahead field : List Char}

theorem mem_asking_iff : word ∈ asking ↔ ∃ gap ∈ gaps, ∃ field, IsAskingOption field ∧ word = gap ++ field := by
  simp only [asking, Language.mem_mul, mem_fits_codes_iff]
  constructor
  · rintro ⟨gap, hgap, _, ⟨_, rfl, _, ⟨u, hu, _, ⟨_, rfl, v, hv, rfl⟩, rfl⟩, rfl⟩, rfl⟩
    refine ⟨gap, hgap, '-' :: (u ++ 'i' :: v), ⟨_, rfl, fun c hc => ?_, by simp⟩, rfl⟩
    rcases List.mem_append.1 hc with hc | hc
    · exact hu c hc
    rcases List.mem_cons.1 hc with rfl | hc
    · decide +kernel
    · exact hv c hc
  · rintro ⟨gap, hgap, _, ⟨options, rfl, hall, hi⟩, rfl⟩
    obtain ⟨u, v, rfl⟩ := List.append_of_mem hi
    have hu : u ∈ runs := fun c hc => hall c (List.mem_append_left _ hc)
    have hv : v ∈ runs := fun c hc => hall c (List.mem_append_right _ (List.mem_cons_of_mem _ hc))
    exact ⟨gap, hgap, _, ⟨_, rfl, _, ⟨u, hu, _, ⟨_, rfl, v, hv, rfl⟩, rfl⟩, rfl⟩, rfl⟩

/-- an option has no blanks -/
theorem IsAskingOption.isInk (h : IsAskingOption field) : ∀ c ∈ field, isInk c = true := by
  obtain ⟨options, rfl, hall, -⟩ := h
  refine List.forall_mem_cons.2 ⟨by decide, fun c hc => ?_⟩
  exact Text.isInk_iff.2 (Text.isBlank_of_isWordChar (hall c hc))

theorem IsAskingOption.ne_nil (h : IsAskingOption field) : field ≠ [] := by
  obtain ⟨options, rfl, -, -⟩ := h
  exact List.cons_ne_nil _ _

theorem says_literal (s : String) : (literal s).Says (fits (codes s)) := fun _ _ _ =>
  Pattern.spells_codes_iff.trans mem_fits_codes_iff.symm

/-- the blanks and the options, without what has to stand behind them -/
def askingNode : List Node := [gapNode, literal "-", wordChars, literal "i", wordChars]

theorem says_askingNode : (Node.ofSeq askingNode).Says asking :=
  Pattern.says_cons says_gapNode (Pattern.says_cons (says_literal "-") (Pattern.says_cons says_wordChars
    (Pattern.says_cons (says_literal "i") says_wordChars)))

/-- at the end, or in front of one last line feed -/
theorem lineEnd_between : Anchor.lineEnd.holds {} (Spot.between past ahead) = true ↔ ahead = [] ∨ ahead = ['\n'] := by
  cases ahead with
  | nil => simp [Anchor.holds, Spot.between]
  | cons c cs => simp [Anchor.holds, Spot.between, Pattern.atLineFeed, ← Char.toNat_inj]

/-- one blank, or the end -/
theorem spells_close_iff : Spells (.group 1 (.alt (ofClass .space) (.at {} .lineEnd))) past word ahead ↔
    (∃ c, word = [c] ∧ isBlank c = true) ∨ word = [] ∧ (ahead = [] ∨ ahead = ['\n']) := by
  simp only [ofClass, Spells, lineEnd_between]
  simp [Single.holds, Pattern.Member.holds, Pattern.CharClass.holds, isBlank]

theorem spells_interactivePattern_iff : Spells interactivePattern past word ahead ↔
    (∃ u v, word = u ++ v ∧ u ∈ asking ∧ ((∃ c, v = [c] ∧ isBlank c = true) ∨ v = [] ∧ (ahead = [] ∨ ahead = ['\n']))) ∨
      word = "--interactive".toList := by
  have hseq : interactivePattern = .alt (.ofSeq (askingNode ++ [.group 1 (.alt (ofClass .space) (.at {} .lineEnd))]))
      (literal "--interactive") := rfl
  rw [hseq]
  refine or_congr ?_ Pattern.spells_codes_iff
  rw [Pattern.spells_ofSeq_append]
  refine exists_congr fun u => exists_congr fun v => and_congr_right fun _ => and_congr (says_askingNode _ _ _) ?_
  exact spells_close_iff

/-- a field behind a blank is an option that asks -/
def AsksByField (text : List Char) : Prop :=
  ∃ front field back, text = front ++ field ++ back ∧ IsRun isInk front field back ∧ front ≠ [] ∧ IsAskingOption field

theorem asksByField_of_spells {front gap v rest : List Char} (hgap : gap ∈ gaps) (hfield : IsAskingOption field)
    (hclose : (∃ c, v = [c] ∧ isBlank c = true) ∨ v = [] ∧ (rest = [] ∨ rest = ['\n'])) :
    AsksByField (front ++ (gap ++ field ++ v) ++ rest) := by
  obtain ⟨g, b, rfl, hb⟩ := endsBlank_gaps gap hgap
  refine ⟨front ++ (g ++ [b]), field, v ++ rest, by simp, ⟨hfield.ne_nil, hfield.isInk, ?_, ?_⟩, by simp, hfield⟩
  · simpa [← List.append_assoc] using Text.isInk_eq_false_iff.2 hb
  · rcases hclose with ⟨c, rfl, hc⟩ | ⟨rfl, rfl | rfl⟩
    · simpa using Text.isInk_eq_false_iff.2 hc
    · simp
    · simp only [List.nil_append, List.head?_cons, Option.mem_some_iff, forall_eq']
      decide

theorem exists_spelled_of_asksByField {text : List Char} (h : AsksByField text) : ∃ front gap field v rest,
    text = front ++ (gap ++ field ++ v) ++ rest ∧ gap ∈ gaps ∧ IsAskingOption field ∧
      ((∃ c, v = [c] ∧ isBlank c = true) ∨ v = [] ∧ (rest = [] ∨ rest = ['\n'])) := by
  obtain ⟨front, field, back, rfl, hrun, hfront, hfield⟩ := h
  obtain ⟨front, b, rfl⟩ := (List.eq_nil_or_concat front).resolve_left hfront
  have hb : isBlank b = true := Text.isInk_eq_false_iff.1 (hrun.before b (by simp))
  have hgap : [b] ∈ gaps := ⟨le_rfl, List.forall_mem_singleton.2 hb⟩
  cases back with
  | nil => exact ⟨front, [b], field, [], [], by simp, hgap, hfield, .inr ⟨rfl, .inl rfl⟩⟩
  | cons c back =>
    have hc : isBlank c = true := Text.isInk_eq_false_iff.1 (hrun.after c rfl)
    exact ⟨front, [b], field, [c], back, by simp, hgap, hfield, .inl ⟨c, rfl, hc⟩⟩

/-- **Commands that ask.** -/
theorem hasInteractiveFlag_iff {line : String} :
    hasInteractiveFlag line = true ↔ "--interactive".toList <:+: line.toList ∨ AsksByField line.toList := by
  rw [hasInteractiveFlag, Pattern.found_iff (by decide +kernel)]
  simp only [spells_interactivePattern_iff, mem_asking_iff]
  constructor
  · rintro ⟨front, _, rest, htext, ⟨_, v, rfl, ⟨gap, hgap, field, hfield, rfl⟩, hclose⟩ | rfl⟩
    · exact .inr (htext ▸ asksByField_of_spells hgap hfield hclose)
    · exact .inl ⟨front, rest, htext.symm⟩
  · rintro (⟨front, rest, htext⟩ | h)
    · exact ⟨front, _, rest, htext.symm, .inr rfl⟩
    · obtain ⟨front, gap, field, v, rest, htext, hgap, hfield, hclose⟩ := exists_spelled_of_asksByField h
      exact ⟨front, _, rest, htext, .inl ⟨_, v, rfl, ⟨gap, hgap, field, hfield, rfl⟩, hclose⟩⟩

end

/-! ## Commands that name a production system -/

/-- **Whole words are maximal runs.** -/
theorem wholeWord_iff_isRun {word text : List Char} (hne : word ≠ []) (hall : ∀ c ∈ word, isWordChar c.toNat = true) :
    WholeWord word text ↔ ∃ front back, text = front ++ word ++ back ∧
    IsRun (fun c => isWordChar c.toNat) front word back := by
  refine exists_congr fun front => exists_congr fun back => and_congr_right fun _ => ?_
  exact ⟨fun ⟨hbefore, hafter⟩ => ⟨hne, hall, hbefore, hafter⟩, fun h => ⟨h.before, h.after⟩⟩

/-- **Words that name a production system.** -/
theorem mentionsProduction_iff_isRun {line : String} : mentionsProduction line = true ↔
    ∃ w ∈ ["prod", "production", "master", "main", "live", "release"], ∃ front back,
      toLower line.toList = front ++ w.toList ++ back ∧ IsRun (fun c => isWordChar c.toNat) front w.toList back := by
  rw [mentionsProduction_iff]
  refine exists_congr fun w => and_congr_right fun hw => ?_
  obtain ⟨hne, hall⟩ := isWordChar_of_productionWords hw
  exact wholeWord_iff_isRun hne hall

/-! ## Both tests -/

/-- **What the tests ask is in the words of the line.** -/
theorem hasInteractiveFlag_and_mentionsProduction (line : String) :
    (hasInteractiveFlag line = true ↔ "--interactive".toList <:+: line.toList ∨ AsksByField line.toList) ∧
    (mentionsProduction line = true ↔
      ∃ w ∈ ["prod", "production", "master", "main", "live", "release"], ∃ front back,
        toLower line.toList = front ++ w.toList ++ back ∧ IsRun (fun c => isWordChar c.toNat) front w.toList back) :=
  ⟨hasInteractiveFlag_iff, mentionsProduction_iff_isRun⟩

-- a dash ends a word and an underscore does not, and an option needs a blank in front
example : mentionsProduction "cp a Prod-db" = true ∧ mentionsProduction "cp a prod_db" = false := by decide +kernel
example : hasInteractiveFlag "rm -rif a" = true ∧ hasInteractiveFlag "-i rm x-i" = false := by decide +kernel

end MakeAtlas.Safety
