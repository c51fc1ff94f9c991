/-
Comments are documentation, as long as they are read as comments.
- `step_bare`, `run_bare`: the reader without documentation gives the targets without their documentation. No comment
  decides a name, a dependency or a command.
- `bare_classify_note`: a header with a note after a `#` declares the same, without documentation, whatever the note
  says; but with `:=`, `?=` or `+=` in the note the line is no header at all.
- `bare_ofLines_note`: so the note can be exchanged for any other with such a mark if the first has one, and without if
  not.
Witness `note_hides_target`: a note that quotes an assignment makes the target disappear.
-/
import MakeAtlas.Proofs.Makefile.Blocks

namespace MakeAtlas.Makefile

open Text

/-! ## Without documentation -/

/-- the target without its documentation -/
def Target.bare (t : Target) : Target := { t with doc := {} }

/-- the line without its documentation -/
def Line.bare : Line → Line
  | .comment _ => .comment {}
  | .header h => .header { h with inline := {} }
  | l => l

namespace Scan

/-- the state without documentation -/
def bare (s : Scan) : Scan :=
  { closed := s.closed.map Target.bare, block := s.block.map Target.bare, recipe := s.recipe }

theorem targets_bare (s : Scan) : s.bare.targets = s.targets.map Target.bare := by
  simp only [targets, bare, List.map_append, List.map_map]
  rfl

theorem close_bare (s : Scan) : s.close.bare = s.bare.close := by
  simp only [close, targets_bare]
  rfl

theorem declared_bare (waiting : Doc) (h : Header) :
    (declared waiting h).map Target.bare = declared {} { h with inline := {} } := by
  simp only [declared, List.map_map]
  rfl

/-- **One line.** What it does to the bare state does not depend on its documentation. -/
theorem step_bare (s : Scan) (l : Line) : (s.step l).bare = s.bare.step l.bare := by
  cases l with
  | blank => exact close_bare s
  | command text =>
    have hblock : (s.block.map Target.bare).isEmpty = s.block.isEmpty := by simp
    simp only [step, bare, Line.bare, hblock]
  | comment doc =>
    have hclose := close_bare s
    simp only [bare, close, step, Line.bare] at hclose ⊢
    exact hclose
  | header h =>
    have htargets := targets_bare s
    simp only [step, close, Line.bare, bare, declared_bare] at htargets ⊢
    rw [← htargets]
  | other => rfl

theorem foldl_step_bare (s : Scan) (ls : List Line) :
    (ls.foldl step s).bare = (ls.map Line.bare).foldl step s.bare := by
  induction ls generalizing s with
  | nil => rfl
  | cons l ls ih => rw [List.foldl_cons, ih, step_bare, List.map_cons, List.foldl_cons]

theorem run_bare (ls : List Line) : (run ls).bare = run (ls.map Line.bare) := foldl_step_bare {} ls

end Scan

theorem bare_ofLines (ls : List (List Char)) :
    (ofLines ls).map Target.bare = (Scan.run (ls.map fun raw => (Line.classify raw).bare)).targets := by
  rw [ofLines, ← Scan.targets_bare, Scan.run_bare, List.map_map]
  rfl

/-! ## Headers with a note -/

/-- what the text before the first `#` says, as a header without documentation -/
def bareHeader (head : List Char) : Header :=
  { Header.of (namePart head) ((head.dropWhile (· != ':')).drop 1) with inline := {} }

variable {head : List Char}

theorem hasAssignmentMark_note (note : List Char) :
    HasAssignmentMark (head ++ '#' :: note) ↔ HasAssignmentMark head ∨ HasAssignmentMark note := by
  have hword : ∀ c : Char, c ≠ '#' → ([c, '='] <:+: head ++ '#' :: note ↔ [c, '='] <:+: head ∨ [c, '='] <:+: note) := by
    intro c hc
    exact infix_append_cons_iff (by simp [hc.symm]) head note
  unfold HasAssignmentMark
  rw [hword ':' (by decide), hword '?' (by decide), hword '+' (by decide)]
  tauto

theorem firstInk_append (hb : ¬ IsBlankLine head) (back : List Char) : firstInk (head ++ back) = firstInk head := by
  obtain ⟨c, hc⟩ := Option.ne_none_iff_exists'.1 (mt firstInk_eq_none_iff.1 hb)
  rw [hc, firstInk, List.find?_append, ← firstInk, hc, Option.some_or]

/-- a note leaves a header neither blank nor a command nor a comment -/
theorem plain_note (hh : IsHeaderLine head) (note : List Char) :
    ¬ IsBlankLine (head ++ '#' :: note) ∧ (head ++ '#' :: note).head? ≠ some '\t' ∧
      ¬ IsCommentLine (head ++ '#' :: note) := by
  obtain ⟨hb, ht, hc, hcolon, -⟩ := hh
  have hfirst : (head ++ '#' :: note).head? = head.head? := List.head?_append_of_ne_nil _ (List.ne_nil_of_mem hcolon)
  rw [IsCommentLine, hfirst, firstInk_append hb]
  exact ⟨fun h => hb fun c hmem => h c (List.mem_append_left _ hmem), ht, hc⟩

theorem isAssignmentLine_note (hh : IsHeaderLine head) (note : List Char) :
    IsAssignmentLine (head ++ '#' :: note) ↔ HasAssignmentMark note := by
  obtain ⟨-, -, -, hcolon, hassign⟩ := hh
  have hmark : ¬ HasAssignmentMark head := fun h => hassign (.inl h)
  have hequals : '=' ∉ namePart head := fun h => hassign (.inr ⟨hcolon, h⟩)
  rw [IsAssignmentLine, hasAssignmentMark_note, namePart_append hcolon]
  simp only [hmark, hequals, false_or, and_false, or_false]

theorem isHeaderLine_note (hh : IsHeaderLine head) (note : List Char) :
    IsHeaderLine (head ++ '#' :: note) ↔ ¬ HasAssignmentMark note := by
  obtain ⟨hb, ht, hc⟩ := plain_note hh note
  have hcolon : ':' ∈ head ++ '#' :: note := List.mem_append_left _ hh.2.2.2.1
  rw [← isAssignmentLine_note hh note]
  exact ⟨fun h => h.2.2.2.2, fun h => ⟨hb, ht, hc, hcolon, h⟩⟩

/-- the prerequisites stop at the note -/
theorem bare_of_note (name : List Char) {rest : List Char} (hno : '#' ∉ rest) (note : List Char) :
    { Header.of name (rest ++ '#' :: note) with inline := {} } = { Header.of name rest with inline := {} } := by
  have huntil : ∀ r : List Char, '#' ∉ r → (r ++ '#' :: note).takeWhile (· != '#') = r.takeWhile (· != '#') := by
    intro r hr
    have hall : ∀ c ∈ r, (c != '#') = true := fun c hc => bne_iff_ne.2 fun h => hr (h ▸ hc)
    rw [takeWhile_bne_append_cons hr, List.takeWhile_eq_self_iff.2 hall]
  simp only [Header.of, Header.mk.injEq, true_and]
  cases rest with
  | nil => rfl
  | cons c rest =>
    by_cases hc : c = ':'
    · subst hc
      exact congrArg prerequisites (huntil rest fun h => hno (List.mem_cons_of_mem _ h))
    · rw [List.cons_append]
      split
      next h => exact absurd (List.cons.inj h).1 hc
      next =>
        split
        next h => exact absurd (List.cons.inj h).1 hc
        next => exact congrArg prerequisites (huntil (c :: rest) hno)

/-- what is said before the note does not depend on it -/
theorem headerOf_note (hcolon : ':' ∈ head) (hno : '#' ∉ head) (note : List Char) :
    { headerOf (head ++ '#' :: note) with inline := {} } = bareHeader head := by
  obtain ⟨name, rest, rfl, hname⟩ := List.eq_append_cons_of_mem hcolon
  have hafter : ∀ back, (name ++ ':' :: back).dropWhile (· != ':') = ':' :: back := dropWhile_bne_append_cons hname
  have hrest : '#' ∉ rest := fun h => hno (by simp [h])
  rw [headerOf, chomp_append_cons (by decide) (by decide), namePart_append hcolon, bareHeader, List.append_assoc,
    List.cons_append, hafter, hafter]
  exact bare_of_note _ hrest _

/-- **A header with a note.** It is the same header for every note, or with a mark in the note an assignment. -/
theorem bare_classify_note (hh : IsHeaderLine head) (hno : '#' ∉ head) (note : List Char) :
    (Line.classify (head ++ '#' :: note)).bare = if HasAssignmentMark note then .other
    else .header (bareHeader head) := by
  split
  next hmark =>
    obtain ⟨hb, ht, hc⟩ := plain_note hh note
    have hother : Reads (head ++ '#' :: note) .other := .other hb ht hc fun h => (isHeaderLine_note hh note).1 h hmark
    rw [classify_eq_iff.2 hother]
    rfl
  next hmark =>
    have hheader : Reads (head ++ '#' :: note) (.header _) := .header ((isHeaderLine_note hh note).2 hmark)
    rw [classify_eq_iff.2 hheader, Line.bare, headerOf_note hh.2.2.2.1 hno]

/-- **The note is documentation.** It can be exchanged for any other with a mark if the first has one, and without if
not. -/
theorem bare_ofLines_note (before after : List (List Char)) (hh : IsHeaderLine head) (hno : '#' ∉ head)
    (note note' : List Char) (hmark : HasAssignmentMark note ↔ HasAssignmentMark note') :
    (ofLines (before ++ (head ++ '#' :: note) :: after)).map Target.bare =
      (ofLines (before ++ (head ++ '#' :: note') :: after)).map Target.bare := by
  have hline : (Line.classify (head ++ '#' :: note)).bare = (Line.classify (head ++ '#' :: note')).bare := by
    rw [bare_classify_note hh hno, bare_classify_note hh hno, if_congr hmark rfl rfl]
  rw [bare_ofLines, bare_ofLines]
  simp only [List.map_append, List.map_cons, hline]

/-- two notes that quote no assignment, and the target that stays -/
theorem bare_ofLines_note_build :
    (ofLines ["build: deps # slow".toList, "\tgo build".toList]).map Target.bare =
        (ofLines ["build: deps ## see setup: first".toList, "\tgo build".toList]).map Target.bare ∧
      (ofLines ["build: deps # slow".toList, "\tgo build".toList]).map Target.bare =
        [{ name := "build", dependencies := ["deps"], recipe := ["go build"] }] :=
  have hh : IsHeaderLine "build: deps ".toList := by decide
  ⟨bare_ofLines_note [] ["\tgo build".toList] hh (by decide) " slow".toList "# see setup: first".toList (by decide),
    by decide +kernel⟩

/-- **A note that quotes an assignment hides the target.** -/
theorem note_hides_target :
    ¬ ∀ (before after : List (List Char)) (head note note' : List Char), ':' ∈ head → '#' ∉ head →
    head.head? ≠ some '\t' →
      ¬ IsBlankLine head → ¬ IsAssignmentLine head → IsHeaderLine (head ++ '#' :: note) →
      note'.any isLineBreak = false →
      (ofLines (before ++ (head ++ '#' :: note) :: after)).map Target.bare =
        (ofLines (before ++ (head ++ '#' :: note') :: after)).map Target.bare := by
  intro h
  have hsame := h [] ["\tgo build".toList] "build: deps ".toList " slow".toList " CC := gcc".toList
    (by decide) (by decide)
    (by decide) (by decide) (by decide) (by decide) (by decide)
  revert hsame
  decide +kernel

end MakeAtlas.Makefile
