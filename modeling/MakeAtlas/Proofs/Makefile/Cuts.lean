/-
Where a makefile can be cut in two. Lines below do not look at the targets of blocks that are closed, and a blank line
or a comment closes the block and forgets the comment that waits, so nothing above it tells on what is below.
- `Scan.behind`: a state with more targets in front. `step_behind`, `foldl_step_behind`: they stay in front, line by
  line.
- `step_of_cuts`, `targets_run_append`: in front of a blank line or a comment the lines above leave only their targets.
- `ofLines_cut`: so a makefile reads as its parts above and below.
-/
import MakeAtlas.Makefile.Scan
import MakeAtlas.Proofs.Makefile.Kinds

namespace MakeAtlas.Makefile

open Text

/-- nothing above such a line tells on what is below -/
def Line.cuts : Line → Bool
  | blank | comment _ => true
  | command _ | header _ | other => false

namespace Scan

/-! ## Targets in front -/

/-- the state with more targets in front of all that it has -/
def behind (ts : List Target) (s : Scan) : Scan := { s with closed := ts ++ s.closed }

theorem targets_behind (ts : List Target) (s : Scan) : (s.behind ts).targets = ts ++ s.targets :=
  List.append_assoc ts s.closed _

/-- **One line.** It does the same whatever stands in front. -/
theorem step_behind (ts : List Target) (s : Scan) (l : Line) : (s.behind ts).step l = (s.step l).behind ts := by
  have hclose : (s.behind ts).close = s.close.behind ts := by
    rw [close, targets_behind]
    rfl
  cases l with
  | blank => exact hclose
  | command text => rfl
  | comment doc => exact congrArg (fun c => { c with waiting := doc }) hclose
  | header h => exact congrArg (fun c => { c with block := declared s.waiting h }) hclose
  | other => rfl

theorem foldl_step_behind (ts : List Target) (s : Scan) (ls : List Line) :
    ls.foldl step (s.behind ts) = (ls.foldl step s).behind ts := by
  induction ls generalizing s with
  | nil => rfl
  | cons l ls ih => rw [List.foldl_cons, step_behind, ih, List.foldl_cons]

/-! ## Cuts -/

/-- **A cut.** Of all that came before only the targets are left. -/
theorem step_of_cuts {l : Line} (h : l.cuts = true) (s : Scan) : s.step l = (step {} l).behind s.targets := by
  have hclose : s.close = (close {}).behind s.targets := by
    rw [behind, show (close {}).closed = [] from rfl, List.append_nil]
    rfl
  cases l with
  | blank => exact hclose
  | comment doc => exact congrArg (fun c => { c with waiting := doc }) hclose
  | command _ | header _ | other => cases h

theorem targets_run_append {below : List Line} (h : ∀ l ∈ below.head?, l.cuts = true) (above : List Line) :
    (run (above ++ below)).targets = (run above).targets ++ (run below).targets := by
  cases below with
  | nil => simp [run, targets]
  | cons l below =>
    rw [run, List.foldl_append, List.foldl_cons, step_of_cuts (h l rfl), foldl_step_behind, targets_behind]
    rfl

end Scan

/-! ## The text of the lines -/

/-- the lines at which a makefile can be cut -/
def IsCut (raw : List Char) : Prop := IsBlankLine raw ∨ IsCommentLine raw

theorem Reads.cuts {raw : List Char} {l : Line} (h : Reads raw l) : l.cuts = true ↔ IsCut raw := by
  cases h with
  | blank h => exact iff_of_true rfl (.inl h)
  | command h => exact iff_of_false Bool.false_ne_true (by rintro (hb | hc); exacts [h.1 hb, hc.1 h.2])
  | comment h => exact iff_of_true rfl (.inr h)
  | header h => exact iff_of_false Bool.false_ne_true (by rintro (hb | hc); exacts [h.1 hb, h.2.2.1 hc])
  | other hb _ hc => exact iff_of_false Bool.false_ne_true (not_or.2 ⟨hb, hc⟩)

/-- the lines above and below are read one without the other -/
theorem ofLines_append {below : List (List Char)} (h : ∀ raw ∈ below.head?, IsCut raw) (above : List (List Char)) :
    ofLines (above ++ below) = ofLines above ++ ofLines below := by
  have hcuts : ∀ l ∈ (below.map Line.classify).head?, l.cuts = true := by
    intro l hl
    rw [List.head?_map] at hl
    obtain ⟨raw, hraw, rfl⟩ := Option.map_eq_some_iff.1 hl
    exact (reads_classify raw).cuts.2 (h raw hraw)
  rw [ofLines, List.map_append, Scan.targets_run_append hcuts]
  rfl

/-- a header is no cut: it takes the comment that waits -/
example : ofLines ["# all".toList, "build:".toList] ≠ ofLines ["# all".toList] ++ ofLines ["build:".toList] := by
  decide +kernel

/-- a blank line in front of all says nothing -/
theorem ofLines_cons_of_blank {raw : List Char} (h : IsBlankLine raw) (below : List (List Char)) :
    ofLines (raw :: below) = ofLines below := by
  have hblank : Line.classify raw = .blank := classify_eq_iff.2 (.blank h)
  rw [ofLines, List.map_cons, hblank]
  rfl

/-- **Cuts.** At a blank line the lines above and the lines below are read one without the other, and at a comment the
lines above and the lines from the comment on. -/
theorem ofLines_cut (above below : List (List Char)) :
    (∀ blank, IsBlankLine blank → ofLines (above ++ [blank] ++ below) = ofLines above ++ ofLines below) ∧
      ∀ comment, IsCommentLine comment →
        ofLines (above ++ [comment] ++ below) = ofLines above ++ ofLines ([comment] ++ below) := by
  have hcut : ∀ raw, IsCut raw → ofLines (above ++ [raw] ++ below) = ofLines above ++ ofLines ([raw] ++ below) := by
    intro raw hraw
    rw [List.append_assoc]
    refine ofLines_append (fun first hfirst => ?_) above
    obtain rfl : raw = first := by simpa using hfirst
    exact hraw
  refine ⟨fun blank hblank => ?_, fun comment hcomment => hcut comment (.inr hcomment)⟩
  rw [hcut blank (.inl hblank)]
  exact congrArg _ (ofLines_cons_of_blank hblank below)

/-- an open block with a comment that waits, cut by a line of a single tab and by a comment -/
theorem ofLines_cut_build :
    (IsBlankLine "\t".toList ∧
      ofLines (["build: deps".toList, "\tgo build".toList, "# old".toList] ++ ["\t".toList] ++
      ["test:".toList, "\tgo test".toList]) =
        ofLines ["build: deps".toList, "\tgo build".toList, "# old".toList] ++
        ofLines ["test:".toList, "\tgo test".toList]) ∧
      IsCommentLine " # new".toList ∧
      ofLines (["build: deps".toList, "\tgo build".toList, "# old".toList] ++ [" # new".toList] ++
          ["test:".toList, "\tgo test".toList]) =
        ofLines ["build: deps".toList, "\tgo build".toList, "# old".toList] ++
          ofLines ([" # new".toList] ++ ["test:".toList, "\tgo test".toList]) ∧
      ofLines ([" # new".toList] ++ ["test:".toList, "\tgo test".toList]) =
        [{ name := "test", doc := ⟨.single, "new"⟩, recipe := ["go test"] }] := by
  have hblank : IsBlankLine "\t".toList := by decide
  have hcomment : IsCommentLine " # new".toList := by decide
  exact ⟨⟨hblank, (ofLines_cut _ _).1 _ hblank⟩, hcomment, (ofLines_cut _ _).2 _ hcomment, by decide +kernel⟩

end MakeAtlas.Makefile
