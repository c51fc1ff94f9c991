/-
Cutting at blanks, and looking for a word, in terms of the list of characters.
- `occursIn_iff`: a word occurs in a text when it is a stretch of it.
- `infix_append_of_disjoint`, `infix_append_cons_iff`: a word is never found across a character that it does not have.
- `exists_first`, `splitAround_of_first`: a word that a text has stands somewhere first, and the text is cut there.
- `takeWhile_bne_append_cons`, `dropWhile_bne_append_cons`: a text cut at the first place of a character.
- `exists_dropEndWhile`, `dropEndWhile_append_cons`: what is cut off at the end is a run of characters that pass the
  test, and nothing before the last that does not.
- `strip_eq_nil_iff`, `head?_strip`: a stripped text is empty when all was blank, and else begins with the first
  character that is not blank.
- `fields_strip`: stripping does not change the fields.
- `isBlank_of_isWordChar`: no word character is blank.
-/
import Mathlib.Data.List.DropRight
import Mathlib.Data.List.Infix
import MakeAtlas.Text.CharClass

namespace MakeAtlas.Text

def firstInk (s : List Char) : Option Char := s.find? fun c => !isBlank c

theorem firstInk_eq_none_iff {s : List Char} : firstInk s = none ↔ ∀ c ∈ s, isBlank c = true := by
  simp [firstInk, List.find?_eq_none]

theorem head?_dropWhile_isBlank (s : List Char) : (s.dropWhile isBlank).head? = firstInk s := by
  induction s with
  | nil => rfl
  | cons c s ih =>
    rw [firstInk, List.find?_cons, List.dropWhile_cons]
    cases hc : isBlank c with
    | true => simpa [firstInk] using ih
    | false => simp

/-! ## Looking for a word -/

theorem occursIn_iff {needle s : List Char} : occursIn needle s = true ↔ needle <:+: s := by
  induction s with
  | nil => simp [occursIn]
  | cons c s ih => rw [occursIn, Bool.or_eq_true, List.isPrefixOf_iff_prefix, ih, List.infix_cons_iff]

/-- a word is not found across characters that it does not have -/
theorem infix_append_of_disjoint {word back : List Char} (hne : word ≠ []) (hw : ∀ c ∈ word, c ∉ back)
    (front : List Char) :
    word <:+: front ++ back ↔ word <:+: front := by
  constructor
  · intro h
    rcases List.infix_append_iff.1 h with h | h | ⟨left, right, rfl, hleft, hright⟩
    · exact h
    · obtain ⟨c, hc⟩ := List.exists_mem_of_ne_nil word hne
      exact absurd (h.subset hc) (hw c hc)
    · cases right with
      | nil => simpa using hleft.isInfix
      | cons c right => exact absurd (hright.subset List.mem_cons_self) (hw c (by simp))
  · exact fun h => h.trans (List.prefix_append _ _).isInfix

/-- nor across one such character -/
theorem infix_append_cons_iff {word : List Char} {c : Char} (hc : c ∉ word) (front back : List Char) :
    word <:+: front ++ c :: back ↔ word <:+: front ∨ word <:+: back := by
  constructor
  · intro h
    rcases List.infix_append_iff.1 h with h | h | ⟨left, right, rfl, hleft, hright⟩
    · exact .inl h
    · rcases List.infix_cons_iff.1 h with h | h
      · cases word with
        | nil => exact .inr List.nil_infix
        | cons d word =>
          obtain rfl : d = c := (List.cons_prefix_cons.1 h).1
          exact absurd List.mem_cons_self hc
      · exact .inr h
    · cases right with
      | nil => exact .inl (by simpa using hleft.isInfix)
      | cons d right =>
        obtain rfl : d = c := (List.cons_prefix_cons.1 hright).1
        exact absurd (by simp) hc
  · rintro (h | h)
    · exact h.trans (List.prefix_append _ _).isInfix
    · exact h.trans ((List.suffix_cons c back).trans (List.suffix_append _ _)).isInfix

/-! ## The first place of a word -/

section

variable {word front s : List Char}

theorem append_word_append (hne : word ≠ []) (front back : List Char) :
    front ++ word ++ back = (front ++ word.dropLast) ++ word.getLast hne :: back := by
  conv_lhs => rw [← List.dropLast_append_getLast hne]
  simp

/-- the text is cut at the first place where the word stands -/
theorem splitAround_of_first (hne : word ≠ []) (hfirst : ¬ word <:+: front ++ word.dropLast) (back : List Char) :
    splitAround word (front ++ word ++ back) = some (front, back) := by
  induction front with
  | nil =>
    obtain ⟨c, cs, rfl⟩ := List.exists_cons_of_ne_nil hne
    have hhere : (c :: cs).isPrefixOf (c :: (cs ++ back)) = true :=
      List.isPrefixOf_iff_prefix.2 (List.prefix_append (c :: cs) back)
    rw [List.nil_append, List.cons_append, splitAround, if_pos hhere]
    simp
  | cons c front ih =>
    obtain ⟨hthere, hlater⟩ := not_or.1 (mt List.infix_cons_iff.2 hfirst)
    have hhere : ¬ word <+: c :: (front ++ word ++ back) := by
      intro h
      rw [append_word_append hne, ← List.cons_append] at h
      have hlen : word.length ≤ (c :: (front ++ word.dropLast)).length := by simp; omega
      exact hthere (List.prefix_of_prefix_length_le h (List.prefix_append _ _) hlen)
    rw [List.cons_append, List.cons_append, splitAround, if_neg (mt List.isPrefixOf_iff_prefix.1 hhere), ih hlater]
    rfl

theorem splitAround_eq_none (h : ¬ word <:+: s) : splitAround word s = none := by
  induction s with
  | nil =>
    cases word with
    | nil => exact absurd List.nil_infix h
    | cons c cs => rfl
  | cons c s ih =>
    obtain ⟨hhere, hlater⟩ := not_or.1 (mt List.infix_cons_iff.2 h)
    rw [splitAround, if_neg (mt List.isPrefixOf_iff_prefix.1 hhere), ih hlater]
    rfl

/-- a word that stands in a text stands somewhere first -/
theorem exists_first (hne : word ≠ []) (h : word <:+: s) :
    ∃ front back, s = front ++ word ++ back ∧ ¬ word <:+: front ++ word.dropLast := by
  induction s with
  | nil => exact absurd (List.infix_nil.1 h) hne
  | cons c s ih =>
    by_cases hhere : word <+: c :: s
    · obtain ⟨back, hback⟩ := hhere
      refine ⟨[], back, by simp [hback], ?_⟩
      intro hshort
      have hlen := hshort.length_le
      have hpos := List.length_pos_iff.2 hne
      simp only [List.nil_append, List.length_dropLast] at hlen
      omega
    · obtain ⟨front, back, rfl, hfirst⟩ := ih ((List.infix_cons_iff.1 h).resolve_left hhere)
      refine ⟨c :: front, back, rfl, fun hearlier => ?_⟩
      rcases List.infix_cons_iff.1 hearlier with hthere | hlater
      · rw [append_word_append hne, ← List.cons_append] at hhere
        exact hhere (hthere.trans (List.prefix_append _ _))
      · exact hfirst hlater

end

/-! ## Up to a character -/

section

variable {α : Type} [BEq α] [LawfulBEq α] {c : α} {front : List α}

theorem takeWhile_bne_append_cons (h : c ∉ front) (back : List α) :
    (front ++ c :: back).takeWhile (· != c) = front := by
  have hall : ∀ d ∈ front, (d != c) = true := fun d hd => bne_iff_ne.2 fun heq => h (heq ▸ hd)
  rw [List.takeWhile_append_of_pos hall, List.takeWhile_cons_of_neg (by simp), List.append_nil]

theorem dropWhile_bne_append_cons (h : c ∉ front) (back : List α) :
    (front ++ c :: back).dropWhile (· != c) = c :: back := by
  have hall : ∀ d ∈ front, (d != c) = true := fun d hd => bne_iff_ne.2 fun heq => h (heq ▸ hd)
  rw [List.dropWhile_append_of_pos hall, List.dropWhile_cons_of_neg (by simp)]

theorem dropWhile_bne_eq_nil (h : c ∉ front) : front.dropWhile (· != c) = [] :=
  List.dropWhile_eq_nil_iff.2 fun _ hd => bne_iff_ne.2 fun heq => h (heq ▸ hd)

end

/-! ## Both ends -/

/-- what the end loses is a run of characters that pass the test -/
theorem exists_dropEndWhile (p : Char → Bool) (s : List Char) :
    ∃ run, s = dropEndWhile p s ++ run ∧ ∀ c ∈ run, p c = true :=
  ⟨s.rtakeWhile p, List.rdropWhile_append_rtakeWhile.symm, fun _ hc => List.mem_rtakeWhile_imp hc⟩

/-- a character that does not pass the test keeps all before it -/
theorem dropEndWhile_append_cons {p : Char → Bool} {c : Char} (hc : p c = false) (front back : List Char) :
    dropEndWhile p (front ++ c :: back) = front ++ c :: dropEndWhile p back := by
  have hback : (back.reverse ++ c :: front.reverse).dropWhile p = back.reverse.dropWhile p ++ c :: front.reverse := by
    rw [List.dropWhile_append]
    split
    next h => rw [List.isEmpty_iff.1 h, List.nil_append, List.dropWhile_cons, if_neg (by simp [hc])]
    next => rfl
  unfold dropEndWhile
  rw [List.reverse_append, List.reverse_cons, List.append_assoc, List.singleton_append, hback]
  simp

/-- the first character stays when it does not pass the test -/
theorem head?_dropEndWhile {p : Char → Bool} {s : List Char} (h : ∀ c, s.head? = some c → p c = false) :
    (dropEndWhile p s).head? = s.head? := by
  obtain ⟨run, hs, hrun⟩ := exists_dropEndWhile p s
  cases hd : dropEndWhile p s with
  | cons c cs =>
    rw [hd] at hs
    rw [hs]
    rfl
  | nil =>
    rw [hd, List.nil_append] at hs
    cases s with
    | nil => rfl
    | cons c cs =>
      have := h c rfl
      rw [hrun c (hs ▸ List.mem_cons_self)] at this
      cases this

theorem strip_eq_nil_iff {s : List Char} : strip s = [] ↔ ∀ c ∈ s, isBlank c = true := by
  have hall : strip s = [] ↔ ∀ c ∈ s.dropWhile isBlank, isBlank c = true := List.rdropWhile_eq_nil_iff
  rw [hall, ← firstInk_eq_none_iff, ← firstInk_eq_none_iff, ← head?_dropWhile_isBlank s, ← head?_dropWhile_isBlank,
    List.dropWhile_idempotent]

theorem head?_strip (s : List Char) : (strip s).head? = firstInk s := by
  rw [← head?_dropWhile_isBlank]
  refine head?_dropEndWhile fun c hc => ?_
  rw [head?_dropWhile_isBlank] at hc
  simpa using List.find?_some hc

/-! ## Fields -/

theorem fields_cons_of_blank {c : Char} (hc : isBlank c = true) (cs : List Char) : fields (c :: cs) = fields cs := by
  rw [fields.eq_def]
  exact if_pos hc

theorem fields_of_blank {run : List Char} (hrun : ∀ c ∈ run, isBlank c = true) : fields run = [] := by
  induction run with
  | nil => rfl
  | cons c run ih =>
    rw [fields_cons_of_blank (hrun c List.mem_cons_self)]
    exact ih fun d hd => hrun d (List.mem_cons_of_mem _ hd)

theorem fields_append_of_blank (s : List Char) {run : List Char} (hrun : ∀ c ∈ run, isBlank c = true) :
    fields (s ++ run) = fields s := by
  induction s with
  | nil => exact fields_of_blank hrun
  | cons c s ih =>
    rw [List.cons_append, fields.eq_def, fields.eq_def (c :: s)]
    simp only [ih]
    cases s with
    | cons d s => cases fields (d :: s) <;> rfl
    | nil => cases run <;> simp [fields]

theorem fields_dropWhile_isBlank (s : List Char) : fields (s.dropWhile isBlank) = fields s := by
  induction s with
  | nil => rfl
  | cons c s ih =>
    rw [List.dropWhile_cons]
    split
    next hc => rw [ih, fields_cons_of_blank hc]
    next => rfl

/-- blanks at the ends do not change the fields -/
theorem fields_strip (s : List Char) : fields (strip s) = fields s := by
  obtain ⟨run, hs, hrun⟩ := exists_dropEndWhile isBlank (s.dropWhile isBlank)
  rw [← fields_dropWhile_isBlank s, hs, strip, fields_append_of_blank _ hrun]

/-! ## Word characters -/

theorem isWordChar_blankRanges : ∀ r ∈ blankRanges, ∀ k < r.2 - r.1 + 1, isWordChar (r.1 + k) = false := by
  decide +kernel

theorem isBlank_of_isWordChar {c : Char} (hc : isWordChar c.toNat = true) : isBlank c = false := by
  by_contra hne
  have hblank : isBlank c = true := by simpa using hne
  obtain ⟨r, hr, hrange⟩ := List.any_eq_true.1 hblank
  rw [Bool.and_eq_true, decide_eq_true_iff, decide_eq_true_iff] at hrange
  have hword := isWordChar_blankRanges r hr (c.toNat - r.1) (by omega)
  rw [Nat.add_sub_cancel' hrange.1, hc] at hword
  cases hword

end MakeAtlas.Text
