/-
The kinds of lines, told by their text alone. Line ends never decide the kind of a line.
- `exists_chomp`, `firstInk_chomp`, `infix_chomp`: what a line without its end has in common with the line.
- `IsBlankLine`, `IsCommandLine`, `IsCommentLine`, `IsAssignmentLine`, `IsHeaderLine`: the kinds in words.
- `reads_classify`, `classify_eq_iff`: every line is read as the one kind that it is of, with the text of a command and
  the names of a header as they stand in the line.
-/
import MakeAtlas.Makefile.Scan
import MakeAtlas.Proofs.Text.Blank

namespace MakeAtlas.Makefile

open Text

/-! ## Line ends -/

theorem exists_chomp (raw : List Char) : ∃ ends, raw = chomp raw ++ ends ∧ ∀ c ∈ ends, c = '\r' ∨ c = '\n' := by
  obtain ⟨ends, hraw, hends⟩ := exists_dropEndWhile (fun c => c == '\r' || c == '\n') raw
  exact ⟨ends, hraw, fun c hc => by simpa using hends c hc⟩

theorem mem_chomp {c : Char} (hr : c ≠ '\r') (hn : c ≠ '\n') {raw : List Char} : c ∈ chomp raw ↔ c ∈ raw := by
  obtain ⟨ends, hraw, hends⟩ := exists_chomp raw
  constructor
  · intro hc
    rw [hraw]
    exact List.mem_append_left _ hc
  · intro hc
    rw [hraw] at hc
    rcases List.mem_append.1 hc with hc | hc
    · exact hc
    · rcases hends c hc with rfl | rfl
      · exact absurd rfl hr
      · exact absurd rfl hn

theorem firstInk_chomp (raw : List Char) : firstInk (chomp raw) = firstInk raw := by
  obtain ⟨ends, hraw, hends⟩ := exists_chomp raw
  have hnone : firstInk ends = none := by
    rw [firstInk_eq_none_iff]
    intro c hc
    rcases hends c hc with rfl | rfl <;> decide
  conv_rhs => rw [hraw, firstInk, List.find?_append, ← firstInk, ← firstInk, hnone, Option.or_none]

/-- a word without line ends is found in a line when it is found before the end of the line -/
theorem infix_chomp {word : List Char} (hne : word ≠ []) (hw : ∀ c ∈ word, c ≠ '\r' ∧ c ≠ '\n') {raw : List Char} :
    word <:+: chomp raw ↔ word <:+: raw := by
  obtain ⟨ends, hraw, hends⟩ := exists_chomp raw
  have hout : ∀ c ∈ word, c ∉ ends := by
    intro c hc hmem
    rcases hends c hmem with h | h
    · exact (hw c hc).1 h
    · exact (hw c hc).2 h
  conv_rhs => rw [hraw, infix_append_of_disjoint hne hout]

theorem chomp_append_cons {c : Char} (hr : c ≠ '\r') (hn : c ≠ '\n') (front back : List Char) :
    chomp (front ++ c :: back) = front ++ c :: chomp back :=
  dropEndWhile_append_cons (by simp [hr, hn]) front back

theorem chomp_tab (rest : List Char) : chomp ('\t' :: rest) = '\t' :: chomp rest :=
  chomp_append_cons (by decide) (by decide) [] rest

/-! ## Kinds of lines -/

def IsBlankLine (raw : List Char) : Prop := ∀ c ∈ raw, isBlank c = true

/-- not blank, and a tab comes first -/
def IsCommandLine (raw : List Char) : Prop := ¬ IsBlankLine raw ∧ raw.head? = some '\t'

/-- no tab comes first, and the first character that is not blank is the mark of a comment -/
def IsCommentLine (raw : List Char) : Prop := raw.head? ≠ some '\t' ∧ firstInk raw = some '#'

/-- the text before the first colon -/
def namePart (raw : List Char) : List Char := raw.takeWhile (· != ':')

/-- `:=`, `?=` or `+=` somewhere -/
def HasAssignmentMark (text : List Char) : Prop := [':', '='] <:+: text ∨ ['?', '='] <:+: text ∨ ['+', '='] <:+: text

/-- one of these marks anywhere, or a `=` before the first colon -/
def IsAssignmentLine (raw : List Char) : Prop := HasAssignmentMark raw ∨ ':' ∈ raw ∧ '=' ∈ namePart raw

/-- neither blank nor a command nor a comment, with a colon, and no assignment -/
def IsHeaderLine (raw : List Char) : Prop :=
  ¬ IsBlankLine raw ∧ raw.head? ≠ some '\t' ∧ ¬ IsCommentLine raw ∧ ':' ∈ raw ∧ ¬ IsAssignmentLine raw

instance (raw : List Char) : Decidable (IsBlankLine raw) := List.decidableBAll (fun c => isBlank c = true) raw

instance (raw : List Char) : Decidable (IsCommandLine raw) := by unfold IsCommandLine; infer_instance

instance (raw : List Char) : Decidable (IsCommentLine raw) := by unfold IsCommentLine; infer_instance

instance (text : List Char) : Decidable (HasAssignmentMark text) := by unfold HasAssignmentMark; infer_instance

instance (raw : List Char) : Decidable (IsAssignmentLine raw) := by unfold IsAssignmentLine; infer_instance

instance (raw : List Char) : Decidable (IsHeaderLine raw) := by unfold IsHeaderLine; infer_instance

/-- a command line without its tab and its line end -/
def commandText (raw : List Char) : String := String.ofList (chomp (raw.drop 1))

/-- what a header line says -/
def headerOf (raw : List Char) : Header := .of (namePart (chomp raw)) (((chomp raw).dropWhile (· != ':')).drop 1)

inductive Reads (raw : List Char) : Line → Prop where
  | blank (h : IsBlankLine raw) : Reads raw .blank
  | command (h : IsCommandLine raw) : Reads raw (.command (commandText raw))
  | comment {doc : Doc} (h : IsCommentLine raw) (hdoc : commentLine? (strip (chomp raw)) = some doc) :
    Reads raw (.comment doc)
  | header (h : IsHeaderLine raw) : Reads raw (.header (headerOf raw))
  | other (hb : ¬ IsBlankLine raw) (ht : raw.head? ≠ some '\t') (hc : ¬ IsCommentLine raw) (hh : ¬ IsHeaderLine raw) :
    Reads raw .other

theorem isAssignment_iff {line : List Char} : isAssignment line = true ↔ IsAssignmentLine line := by
  simp only [isAssignment, IsAssignmentLine, HasAssignmentMark, namePart, Bool.or_eq_true,
    Bool.and_eq_true, occursIn_iff, List.contains_iff_mem, or_assoc]

/-- nothing after a colon counts for the text before the first -/
theorem namePart_append {front : List Char} (h : ':' ∈ front) (back : List Char) :
    namePart (front ++ back) = namePart front := by
  unfold namePart
  rw [List.takeWhile_append]
  split
  next hlen =>
    have hall : front.takeWhile (· != ':') = front := (List.takeWhile_prefix _).eq_of_length hlen
    have hne := List.takeWhile_eq_self_iff.1 hall ':' h
    simp at hne
  next => rfl

theorem namePart_chomp {raw : List Char} (h : ':' ∈ raw) : namePart (chomp raw) = namePart raw := by
  obtain ⟨ends, hraw, -⟩ := exists_chomp raw
  have hcolon : ':' ∈ chomp raw := (mem_chomp (by decide) (by decide)).2 h
  conv_rhs => rw [hraw, namePart_append hcolon]

theorem isAssignmentLine_chomp {raw : List Char} : IsAssignmentLine (chomp raw) ↔ IsAssignmentLine raw := by
  have hword : ∀ c : Char, c ≠ '\r' ∧ c ≠ '\n' → ([c, '='] <:+: chomp raw ↔ [c, '='] <:+: raw) := by
    intro c hc
    refine infix_chomp (by simp) fun d hd => ?_
    simp only [List.mem_cons, List.not_mem_nil, or_false] at hd
    rcases hd with rfl | rfl
    · exact hc
    · decide
  have hmem : ':' ∈ chomp raw ↔ ':' ∈ raw := mem_chomp (by decide) (by decide)
  have hname : ':' ∈ raw → namePart (chomp raw) = namePart raw := namePart_chomp
  unfold IsAssignmentLine HasAssignmentMark
  rw [hword ':' (by decide), hword '?' (by decide), hword '+' (by decide), hmem]
  by_cases hcolon : ':' ∈ raw
  · rw [hname hcolon]
  · simp only [hcolon, false_and]

theorem head?_chomp_eq_tab {raw : List Char} : (chomp raw).head? = some '\t' ↔ raw.head? = some '\t' := by
  constructor
  · intro h
    obtain ⟨text, htext⟩ := List.head?_eq_some_iff.1 h
    obtain ⟨ends, hraw, -⟩ := exists_chomp raw
    rw [hraw, htext]
    rfl
  · intro h
    obtain ⟨rest, rfl⟩ := List.head?_eq_some_iff.1 h
    rw [chomp_tab]
    rfl

theorem isSome_commentLine? {s : List Char} : (commentLine? s).isSome = true ↔ s.head? = some '#' := by
  unfold commentLine?
  split
  next => simp
  next => simp
  next hno => simpa [List.head?_eq_some_iff] using hno

/-- **The kind of a line.** -/
theorem reads_classify (raw : List Char) : Reads raw (Line.classify raw) := by
  have hblank : strip (chomp raw) = [] ↔ IsBlankLine raw := by
    rw [strip_eq_nil_iff, ← firstInk_eq_none_iff, firstInk_chomp, firstInk_eq_none_iff, IsBlankLine]
  have hmark : (commentLine? (strip (chomp raw))).isSome = true ↔ firstInk raw = some '#' := by
    rw [isSome_commentLine?, head?_strip, firstInk_chomp]
  have hcolon : ':' ∈ chomp raw ↔ ':' ∈ raw := mem_chomp (by decide) (by decide)
  unfold Line.classify
  simp only [List.isEmpty_iff, hblank]
  by_cases hb : IsBlankLine raw
  · rw [if_pos hb]
    exact .blank hb
  rw [if_neg hb]
  split
  next text htext =>
    have htab : raw.head? = some '\t' := head?_chomp_eq_tab.1 (by rw [htext]; rfl)
    obtain ⟨rest, rfl⟩ := List.head?_eq_some_iff.1 htab
    rw [chomp_tab, List.cons.injEq] at htext
    rw [← htext.2]
    exact .command ⟨hb, htab⟩
  next hno =>
    have htab : raw.head? ≠ some '\t' := by
      intro h
      obtain ⟨text, htext⟩ := List.head?_eq_some_iff.1 (head?_chomp_eq_tab.2 h)
      exact hno text htext
    split
    next doc hdoc => exact .comment ⟨htab, hmark.1 (by rw [hdoc]; rfl)⟩ hdoc
    next hdoc =>
      have hc : ¬ IsCommentLine raw := by
        intro h
        have := hmark.2 h.2
        rw [hdoc] at this
        cases this
      have hheader : (List.contains (chomp raw) ':' && !isAssignment (chomp raw)) = true ↔ IsHeaderLine raw := by
        rw [Bool.and_eq_true, List.contains_iff_mem, hcolon, Bool.not_eq_true', ← Bool.not_eq_true, isAssignment_iff,
          isAssignmentLine_chomp]
        exact ⟨fun h => ⟨hb, htab, hc, h⟩, fun h => h.2.2.2⟩
      split
      next h => exact .header (hheader.1 h)
      next h => exact .other hb htab hc fun hh => h (hheader.2 hh)

theorem IsCommentLine.not_blank {raw : List Char} (h : IsCommentLine raw) : ¬ IsBlankLine raw := by
  intro hb
  have hnone := firstInk_eq_none_iff.2 hb
  rw [h.2] at hnone
  cases hnone

/-- a line is of one kind only -/
theorem Reads.unique {raw : List Char} {l l' : Line} (h : Reads raw l) (h' : Reads raw l') : l = l' := by
  have hcb : IsCommentLine raw → ¬ IsBlankLine raw := IsCommentLine.not_blank
  cases h <;> cases h' <;> grind [IsCommandLine, IsCommentLine, IsHeaderLine]

theorem classify_eq_iff {raw : List Char} {l : Line} : Line.classify raw = l ↔ Reads raw l :=
  ⟨fun h => h ▸ reads_classify raw, fun h => (reads_classify raw).unique h⟩

end MakeAtlas.Makefile
