/-
What stands around a match. The words that name a production system are looked for twice, once as whole words of the
line, and once anywhere in the name of the target and the line together; the second search finds what the first one
finds.
- `meetsCased_append_gap`: the search for a cased character ends at such a gap.
- `lowerFrom_append_gap`, `lowerFrom_past_gap`: the text before a gap, and the text after it, do not know of each other.
- `toLower_append_space`: so two texts with a space between them are lowered one by one.
- `found_wholeWord_iff`: a whole word is found when it stands in the text with no word character on either side.
- `mentionsProduction_iff`: the whole words of a line in lower case.
- `affectsCriticalSystems_iff`: words anywhere in the name or in the line, each in lower case by itself.
- `adjust_of_production`: a line that names a production system is as severe in every target as the rule says.
-/
import Mathlib.Tactic
import MakeAtlas.Proofs.Pattern.Spelling
import MakeAtlas.Proofs.Text.Blank
import MakeAtlas.Safety.Checker
import MakeAtlas.Text.Case

/-! ## Lower case across a gap

What a character becomes depends on the cased characters around it, and no further than the next
character that is neither cased nor left out in between. -/

namespace MakeAtlas.Text

/-- a character that separates: it counts, and has no case -/
def IsGapChar (c : Char) : Prop := isCaseIgnorable c = false ∧ isCased c = false

variable {d : Char} {past front back : List Char}

theorem isGapChar_space : IsGapChar ' ' := by
  unfold IsGapChar
  decide +kernel

theorem meetsCased_append_gap (hd : IsGapChar d) (front back : List Char) :
    meetsCased (front ++ d :: back) = meetsCased front := by
  rw [meetsCased, meetsCased, List.find?_append, List.find?_cons_of_pos (by simp [hd.1])]
  cases front.find? fun c => !isCaseIgnorable c with
  | none => simp [hd.2]
  | some c => simp

theorem lowerBetween_congr {c : Char} {past past' ahead ahead' : List Char} (hpast : meetsCased past = meetsCased past')
    (hahead : meetsCased ahead = meetsCased ahead') : lowerBetween past c ahead = lowerBetween past' c ahead' := by
  rw [lowerBetween, lowerBetween, hpast, hahead]

/-- what comes after the gap does not change what is before it -/
theorem lowerFrom_append_gap (hd : IsGapChar d) :
    lowerFrom past (front ++ d :: back) = lowerFrom past front ++ lowerFrom (front.reverse ++ past) (d :: back) := by
  induction front generalizing past with
  | nil => rfl
  | cons c front ih =>
    have hahead := meetsCased_append_gap hd front back
    rw [List.cons_append, lowerFrom, lowerFrom, ih, lowerBetween_congr rfl hahead]
    simp

/-- what came before the gap does not change what is after it -/
theorem lowerFrom_past_gap (hd : IsGapChar d) (past old s : List Char) :
    lowerFrom (past ++ d :: old) s = lowerFrom past s := by
  induction s generalizing past with
  | nil => rfl
  | cons c s ih => rw [lowerFrom, lowerFrom, lowerBetween_congr (meetsCased_append_gap hd past old) rfl,
    ← List.cons_append, ih]

/-- **A space separates.** -/
theorem toLower_append_space (front back : List Char) :
    toLower (front ++ ' ' :: back) = toLower front ++ ' ' :: toLower back := by
  have hspace : ∀ past ahead, lowerBetween past ' ' ahead = [' '] := fun _ _ => rfl
  rw [toLower, lowerFrom_append_gap isGapChar_space, lowerFrom, hspace, List.append_nil]
  exact congrArg (lowerFrom [] front ++ ' ' :: ·) (lowerFrom_past_gap isGapChar_space [] front.reverse back)

end MakeAtlas.Text

namespace MakeAtlas.Safety

open Context (literal wholeWord)
open Pattern (Anchor Spells Spot)
open Text (isWordChar occursIn toLower)

/-! ## Whole words -/

def NoWordChar (c? : Option Char) : Prop := ∀ c ∈ c?, isWordChar c.toNat = false

/-- the word stands in the text, with no word character on either side -/
def WholeWord (word text : List Char) : Prop :=
  ∃ front back, text = front ++ word ++ back ∧ NoWordChar front.getLast? ∧ NoWordChar back.head?

section

variable {w : String} {past word ahead text : List Char}

theorem noWordChar_iff {c? : Option Char} : NoWordChar c? ↔ (c?.any fun c => isWordChar c.toNat) = false := by
  cases c? <;> simp [NoWordChar]

theorem wordBehind_between (past ahead : List Char) :
    (Spot.between past ahead).wordBehind false = past.head?.any fun c => isWordChar c.toNat := rfl

theorem wordAhead_between (past ahead : List Char) :
    (Spot.between past ahead).wordAhead false = ahead.head?.any fun c => isWordChar c.toNat := rfl

theorem any_head?_append (hne : word ≠ []) (hall : ∀ c ∈ word, isWordChar c.toNat = true) (rest : List Char) :
    ((word ++ rest).head?.any fun c => isWordChar c.toNat) = true := by
  obtain ⟨c, cs, rfl⟩ := List.exists_cons_of_ne_nil hne
  exact hall c List.mem_cons_self

/-- in front of a word there is a boundary when no word character is behind -/
theorem boundary_before (hne : word ≠ []) (hall : ∀ c ∈ word, isWordChar c.toNat = true) :
    Anchor.boundary.holds {} (Spot.between past (word ++ ahead)) = true ↔ NoWordChar past.head? := by
  let spot := Spot.between past (word ++ ahead)
  change (spot.wordBehind false != spot.wordAhead false) = true ↔ _
  rw [wordBehind_between, wordAhead_between, any_head?_append hne hall, noWordChar_iff]
  simp

/-- behind a word there is a boundary when no word character is ahead -/
theorem boundary_after (hne : word ≠ []) (hall : ∀ c ∈ word, isWordChar c.toNat = true) :
    Anchor.boundary.holds {} (Spot.between (word.reverse ++ past) ahead) = true ↔ NoWordChar ahead.head? := by
  let spot := Spot.between (word.reverse ++ past) ahead
  change (spot.wordBehind false != spot.wordAhead false) = true ↔ _
  have hrev : ∀ c ∈ word.reverse, isWordChar c.toNat = true := fun c hc => hall c (List.mem_reverse.1 hc)
  rw [wordBehind_between, wordAhead_between, any_head?_append (List.reverse_ne_nil_iff.2 hne) hrev, noWordChar_iff]
  simp

theorem spells_wholeWord_iff (hne : w.toList ≠ []) (hall : ∀ c ∈ w.toList, isWordChar c.toNat = true) :
    Spells (wholeWord w) past word ahead ↔ word = w.toList ∧ NoWordChar past.head? ∧ NoWordChar ahead.head? := by
  have hliteral : ∀ {p u q}, Spells (literal w) p u q ↔ u = w.toList := Pattern.spells_codes_iff
  simp only [wholeWord, Pattern.spells_ofSeq_cons, hliteral, Spells]
  constructor
  · rintro ⟨_, _, rfl, ⟨rfl, hbefore⟩, _, _, rfl, rfl, _, _, rfl, ⟨rfl, hafter⟩, rfl⟩
    simp only [List.append_nil, List.nil_append, List.reverse_nil] at hbefore hafter
    exact ⟨by simp, (boundary_before hne hall).1 hbefore, (boundary_after hne hall).1 hafter⟩
  · rintro ⟨rfl, hbefore, hafter⟩
    exact ⟨[], w.toList, rfl, ⟨rfl, (boundary_before hne hall).2 hbefore⟩, w.toList, [], by simp, rfl, [], [], rfl,
      ⟨rfl, (boundary_after hne hall).2 hafter⟩, rfl⟩

/-- **Whole words are found.** -/
theorem found_wholeWord_iff (hne : w.toList ≠ []) (hall : ∀ c ∈ w.toList, isWordChar c.toNat = true) :
    Pattern.found (wholeWord w) text = true ↔ WholeWord w.toList text := by
  rw [Pattern.found_iff (by simp [wholeWord, literal, Pattern.plain_ofSeq, Pattern.Node.plain])]
  simp only [spells_wholeWord_iff hne hall, List.head?_reverse]
  constructor
  · rintro ⟨front, _, back, rfl, rfl, hbefore, hafter⟩
    exact ⟨front, back, rfl, hbefore, hafter⟩
  · rintro ⟨front, back, rfl, hbefore, hafter⟩
    exact ⟨front, _, back, rfl, rfl, hbefore, hafter⟩

end

/-! ## Production systems -/

/-- such a word has word characters, and nothing else -/
theorem isWordChar_of_productionWords {w : String} (hw : w ∈ productionWords) :
    w.toList ≠ [] ∧ ∀ c ∈ w.toList, isWordChar c.toNat = true := by
  have hwords : (productionWords.all fun w => !w.toList.isEmpty && w.toList.all (isWordChar ·.toNat)) = true := by
    decide +kernel
  obtain ⟨hne, hall⟩ := Bool.and_eq_true_iff.1 (List.all_eq_true.1 hwords w hw)
  exact ⟨by simpa using hne, List.all_eq_true.1 hall⟩

theorem mentionsProduction_iff {line : String} :
    mentionsProduction line = true ↔ ∃ w ∈ productionWords, WholeWord w.toList (toLower line.toList) := by
  rw [mentionsProduction, List.any_eq_true]
  refine exists_congr fun w => and_congr_right fun hw => ?_
  obtain ⟨hne, hall⟩ := isWordChar_of_productionWords hw
  exact found_wholeWord_iff hne hall

theorem mentions_iff {words : List String} {text : List Char} :
    mentions words text = true ↔ ∃ w ∈ words, w.toList <:+: toLower text := by
  simp only [mentions, List.any_eq_true, Text.occursIn_iff]

/-- a word without a space is in the name or in the line -/
theorem affectsCriticalSystems_iff {name line : String} : affectsCriticalSystems name line = true ↔
    ∃ w ∈ criticalWords, w.toList <:+: toLower name.toList ∨ w.toList <:+: toLower line.toList := by
  have hwords : (criticalWords.all fun w => !w.toList.contains ' ') = true := by decide +kernel
  have htext : (name ++ " " ++ line).toList = name.toList ++ ' ' :: line.toList := by simp
  rw [affectsCriticalSystems, mentions_iff, htext, Text.toLower_append_space]
  refine exists_congr fun w => and_congr_right fun hw => ?_
  have hspace : ' ' ∉ w.toList := by simpa using List.all_eq_true.1 hwords w hw
  exact Text.infix_append_cons_iff hspace _ _

/-- the line has one of these words by itself, in lower case -/
def NamesProduction (line : String) : Prop := ∃ w ∈ ["prod", "production"], WholeWord w.toList (toLower line.toList)

/-- **The name of the target does not help.** -/
theorem adjust_of_production {line : String} (hprod : NamesProduction line) (hask : hasInteractiveFlag line = false)
    (name : String) (severity : Severity) : adjust name line severity = severity := by
  obtain ⟨w, hw, hwhole⟩ := hprod
  have hnamed : mentionsProduction line = true :=
    mentionsProduction_iff.2 ⟨w, (by decide : ["prod", "production"] ⊆ productionWords) hw, hwhole⟩
  have hcritical : affectsCriticalSystems name line = true := by
    obtain ⟨front, back, htext, -⟩ := hwhole
    exact affectsCriticalSystems_iff.2 ⟨w, (by decide : ["prod", "production"] ⊆ criticalWords) hw,
      .inr ⟨front, back, htext.symm⟩⟩
  simp [adjust, hnamed, hcritical, hask]

end MakeAtlas.Safety
