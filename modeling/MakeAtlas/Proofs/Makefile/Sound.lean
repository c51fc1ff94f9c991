/-
What every target is like, whatever the lines were. Nothing that a target holds needs a check later: its name can stand
in a table, its dependencies can be names of targets, its commands can be shown on one line each.
- `IsName`, `IsPrerequisite`, `IsCommand`, `IsDoc`: what the parts of a target are like; `Target.Sound`: the whole.
- `Line.Sound`, `Reads.sound`: what a line brings in is like that.
- `Scan.Sound`, `Scan.Sound.step`, `Scan.sound_run`: one line keeps it, so all lines do.
- `sound_ofLines`: every target of every list of lines.
Witness: a header with a comment above it, names and prerequisites of every kind, and a command with blanks at both
ends.
-/
import MakeAtlas.Proofs.Makefile.Blocks
import MakeAtlas.Proofs.Text.Fields

namespace MakeAtlas.Makefile

open Text

/-! ## Parts of a target -/

/-- a name that a header can declare -/
structure IsName (s : List Char) : Prop where
  ne_nil : s ≠ []
  ink : ∀ c ∈ s, isBlank c = false
  colon : ':' ∉ s
  equals : '=' ∉ s

/-- a prerequisite that can name a target: no variable, no pattern, no path of a file -/
structure IsPrerequisite (s : List Char) : Prop where
  ne_nil : s ≠ []
  ink : ∀ c ∈ s, isBlank c = false
  hash : '#' ∉ s
  bar : '|' ∉ s
  percent : '%' ∉ s
  dollar : s.head? ≠ some '$'
  slashes : s.count '/' ≤ 1
  file : ¬ ('/' ∈ s ∧ '.' ∈ s)

/-- a command: something in it is not blank, and no line end is at its end -/
structure IsCommand (s : List Char) : Prop where
  ink : ∃ c ∈ s, isBlank c = false
  lineEnd : s.getLast? ≠ some '\r' ∧ s.getLast? ≠ some '\n'

/-- no blank at either end -/
def Trimmed (s : List Char) : Prop := (∀ c ∈ s.head?, isBlank c = false) ∧ ∀ c ∈ s.getLast?, isBlank c = false

/-- documentation: a trimmed text, and none at all where no comment was -/
structure IsDoc (doc : Doc) : Prop where
  trimmed : Trimmed doc.text.toList
  empty : doc.kind = .none → doc.text = ""

/-- all parts of a target are what they should be -/
structure Target.Sound (t : Target) : Prop where
  name : IsName t.name.toList
  doc : IsDoc t.doc
  dependencies : ∀ d ∈ t.dependencies, IsPrerequisite d.toList
  recipe : ∀ command ∈ t.recipe, IsCommand command.toList

/-! ## Texts -/

section

variable {s : List Char}

theorem getLast?_dropEndWhile {p : Char → Bool} : ∀ c ∈ (dropEndWhile p s).getLast?, p c = false := by
  intro c hc
  rw [dropEndWhile, List.getLast?_reverse] at hc
  have hnot := List.head?_dropWhile_not p s.reverse
  rw [Option.mem_def.1 hc] at hnot
  simpa using hnot

theorem trimmed_strip (s : List Char) : Trimmed (strip s) := by
  refine ⟨fun c hc => ?_, getLast?_dropEndWhile⟩
  rw [head?_strip] at hc
  simpa using List.find?_some hc

theorem isDoc_empty : IsDoc {} := ⟨⟨by simp, by simp⟩, fun _ => rfl⟩

theorem isDoc_of {kind : DocKind} (hkind : kind ≠ .none) (rest : List Char) : IsDoc (.of kind rest) := by
  refine ⟨?_, fun h => absurd h hkind⟩
  rw [Doc.of, String.toList_ofList]
  exact trimmed_strip rest

theorem isDoc_inlineDoc (text : List Char) : IsDoc (inlineDoc text) := by
  unfold inlineDoc
  split
  next => exact isDoc_of (by decide) _
  next =>
    split
    next => exact isDoc_of (by decide) _
    next => exact isDoc_empty

theorem isDoc_of_commentLine? {doc : Doc} (h : commentLine? s = some doc) : IsDoc doc := by
  unfold commentLine? at h
  split at h
  next =>
    obtain rfl := Option.some.inj h
    exact isDoc_of (by decide) _
  next =>
    obtain rfl := Option.some.inj h
    exact isDoc_of (by decide) _
  next => cases h

/-- a field has no blank, and no character that the text does not have -/
theorem of_mem_fields {w : List Char} (h : w ∈ fields s) : w ≠ [] ∧ (∀ c ∈ w, isBlank c = false) ∧ w ⊆ s := by
  obtain ⟨front, back, rfl, hrun⟩ := mem_fields_iff.1 h
  exact ⟨hrun.ne_nil, fun c hc => isInk_iff.1 (hrun.all c hc), fun c hc => by simp [hc]⟩

theorem namesTarget_iff {w : List Char} :
    namesTarget w = true ↔ w.head? ≠ some '$' ∧ '%' ∉ w ∧ w.count '/' ≤ 1 ∧ ¬ ('/' ∈ w ∧ '.' ∈ w) := by
  simp [namesTarget, and_assoc, imp_iff_not_or]

theorem isPrerequisite_of_mem {d : String} (hhash : '#' ∉ s) (h : d ∈ prerequisites s) : IsPrerequisite d.toList := by
  obtain ⟨w, hw, rfl⟩ := List.mem_map.1 h
  obtain ⟨hfield, hnames⟩ := List.mem_filter.1 hw
  obtain ⟨hne, hink, hsub⟩ := of_mem_fields hfield
  obtain ⟨hdollar, hpercent, hslashes, hfile⟩ := namesTarget_iff.1 hnames
  have hbar : '|' ∉ w := fun hmem => by simpa using List.mem_takeWhile_imp (hsub hmem)
  rw [String.toList_ofList]
  exact ⟨hne, hink, fun hmem => hhash ((List.takeWhile_prefix _).subset (hsub hmem)), hbar, hpercent, hdollar,
    hslashes, hfile⟩

end

/-! ## Lines -/

/-- what the line brings in is what it should be -/
def Line.Sound : Line → Prop
  | .blank | .other => True
  | .command text => IsCommand text.toList
  | .comment doc => IsDoc doc
  | .header h => (∀ name ∈ h.names, IsName name.toList) ∧ IsDoc h.inline ∧ ∀ d ∈ h.dependencies, IsPrerequisite d.toList

section

variable {raw : List Char} {l : Line}

theorem isName_of_mem {name : String} (h : IsHeaderLine raw) (hname : name ∈ declaredNames raw) :
    IsName name.toList := by
  rw [declaredNames] at hname
  split at hname
  next =>
    obtain ⟨w, hw, rfl⟩ := List.mem_map.1 hname
    obtain ⟨hne, hink, hsub⟩ := of_mem_fields hw
    obtain ⟨-, -, -, hcolon, hassign⟩ := h
    rw [String.toList_ofList]
    refine ⟨hne, hink, fun hmem => ?_, fun hmem => hassign (.inr ⟨hcolon, hsub hmem⟩)⟩
    simpa using List.mem_takeWhile_imp (hsub hmem)
  next => cases hname

theorem isPrerequisite_headerOf : ∀ d ∈ (headerOf raw).dependencies, IsPrerequisite d.toList := fun _ hd =>
  isPrerequisite_of_mem (fun hmem => by simpa using List.mem_takeWhile_imp hmem) hd

theorem isDoc_headerOf : IsDoc (headerOf raw).inline := isDoc_inlineDoc _

theorem isCommand_commandText (h : IsCommandLine raw) : IsCommand (commandText raw).toList := by
  obtain ⟨hb, htab⟩ := h
  obtain ⟨rest, rfl⟩ := List.head?_eq_some_iff.1 htab
  have hrest : ¬ IsBlankLine rest := fun hblank => hb (List.forall_mem_cons.2 ⟨by decide, hblank⟩)
  obtain ⟨c, hc⟩ := Option.ne_none_iff_exists'.1 (mt firstInk_eq_none_iff.1 hrest)
  rw [← firstInk_chomp] at hc
  rw [commandText, String.toList_ofList]
  refine ⟨⟨c, List.mem_of_find?_eq_some hc, by simpa using List.find?_some hc⟩, ?_⟩
  have hend := getLast?_dropEndWhile (p := fun c => c == '\r' || c == '\n') (s := rest)
  exact ⟨fun h => by simpa using hend '\r' h, fun h => by simpa using hend '\n' h⟩

/-- **What a line brings in.** -/
theorem Reads.sound (h : Reads raw l) : l.Sound := by
  cases h with
  | blank | other => trivial
  | command h => exact isCommand_commandText h
  | comment _ hdoc => exact isDoc_of_commentLine? hdoc
  | header h =>
    refine ⟨fun name hname => isName_of_mem h ?_, isDoc_headerOf, isPrerequisite_headerOf⟩
    rwa [← names_headerOf h]

end

/-! ## The scan -/

/-- the targets of closed blocks, those of the open one, its commands and the comment that waits are what they should
be -/
structure Scan.Sound (s : Scan) : Prop where
  closed : ∀ t ∈ s.closed, t.Sound
  block : ∀ t ∈ s.block, t.Sound
  recipe : ∀ command ∈ s.recipe, IsCommand command.toList
  waiting : IsDoc s.waiting

namespace Scan

variable {s : Scan} {l : Line} {t : Target}

theorem sound_empty : Sound {} := ⟨by simp, by simp, by simp, isDoc_empty⟩

theorem Sound.targets (h : s.Sound) (ht : t ∈ s.targets) : t.Sound := by
  rcases List.mem_append.1 ht with ht | ht
  · exact h.closed t ht
  · obtain ⟨u, hu, rfl⟩ := List.mem_map.1 ht
    exact { h.block u hu with recipe := h.recipe }

theorem Sound.close (h : s.Sound) : s.close.Sound := { sound_empty with closed := fun _ ht => h.targets ht }

theorem sound_of_mem_declared {waiting : Doc} {h : Header} (hwaiting : IsDoc waiting) (hl : (Line.header h).Sound)
    (ht : t ∈ declared waiting h) : t.Sound := by
  obtain ⟨hnames, hinline, hdependencies⟩ := hl
  obtain ⟨name, hname, rfl⟩ := List.mem_map.1 ht
  refine ⟨hnames name hname, ?_, hdependencies, by simp⟩
  change IsDoc (if h.inline.text.isEmpty then waiting else h.inline)
  split
  next => exact hwaiting
  next => exact hinline

/-- **One line.** -/
theorem Sound.step (h : s.Sound) (hl : l.Sound) : (s.step l).Sound := by
  cases l with
  | blank => exact h.close
  | command text =>
    refine { h with recipe := ?_ }
    intro command hcommand
    simp only [Scan.step] at hcommand
    split at hcommand
    next => cases hcommand
    next =>
      rcases List.mem_append.1 hcommand with hcommand | hcommand
      · exact h.recipe command hcommand
      · rwa [List.mem_singleton.1 hcommand]
  | comment doc => exact { h.close with waiting := hl }
  | header hd => exact { h.close with block := fun _ ht => sound_of_mem_declared h.waiting hl ht }
  | other => exact h

/-- **All lines.** -/
theorem Sound.foldl_step {ls : List Line} (h : s.Sound) (hls : ∀ l ∈ ls, l.Sound) : (ls.foldl Scan.step s).Sound := by
  induction ls generalizing s with
  | nil => exact h
  | cons l ls ih =>
    obtain ⟨hl, hlater⟩ := List.forall_mem_cons.1 hls
    exact ih (h.step hl) hlater

end Scan

/-- **Every target is sound**, whatever the lines are. -/
theorem sound_ofLines (ls : List (List Char)) : ∀ t ∈ ofLines ls, t.Sound := by
  have hlines : ∀ l ∈ ls.map Line.classify, l.Sound := by
    intro l hl
    obtain ⟨raw, -, rfl⟩ := List.mem_map.1 hl
    exact (reads_classify raw).sound
  exact fun t ht => (Scan.sound_empty.foldl_step hlines).targets ht

/-- a documented header with two names, prerequisites of every kind, and a command with blanks at both ends -/
def documented : List (List Char) :=
  ["##  all of it ".toList, " all run : lib/a $(OBJS) %.o src/x.o | out # ".toList, "\t\t@cc x.c \r\n".toList]

theorem sound_ofLines_documented :
    ({ name := "run", doc := ⟨.double, "all of it"⟩, dependencies := ["lib/a"],
       recipe := ["\t@cc x.c "] } : Target) ∈ ofLines documented ∧
      Target.Sound { name := "run", doc := ⟨.double, "all of it"⟩, dependencies := ["lib/a"],
                     recipe := ["\t@cc x.c "] } := by
  have hmem : ({ name := "run", doc := ⟨.double, "all of it"⟩, dependencies := ["lib/a"],
                 recipe := ["\t@cc x.c "] } : Target) ∈ ofLines documented := by decide +kernel
  exact ⟨hmem, sound_ofLines documented _ hmem⟩

end MakeAtlas.Makefile
