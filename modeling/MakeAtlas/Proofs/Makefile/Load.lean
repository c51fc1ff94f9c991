/-
A makefile in a file and the same makefile in memory.
- `load_encode`: a file is read as the text that was written to it, cut into lines at its line feeds and carriage
  returns.
- `load_eq_ofText`: this gives the targets of the text held in memory, if no other character of the text ends a line.
Witness `formFeed_splits_command`: a form feed inside a command. The text in memory declares one target more than the
file.
-/
import MakeAtlas.Load
import MakeAtlas.Proofs.Text.Utf8

namespace MakeAtlas.Makefile

open Text

/-- no character ends a line but those that end one in a file -/
def PlainBreaks (s : List Char) : Prop := ∀ c ∈ s, isLineBreak c = true → isNewline c = true

instance (s : List Char) : Decidable (PlainBreaks s) :=
  List.decidableBAll (fun c => isLineBreak c = true → isNewline c = true) s

/-- only the breaks that are in the text count -/
theorem linesBy_congr {brk brk' : Char → Bool} {s : List Char} (h : ∀ c ∈ s, brk c = brk' c) :
    linesBy brk s = linesBy brk' s := by
  induction s using linesBy.induct brk with
  | case1 => rfl
  | case2 cs ih => rw [linesBy, linesBy, ih fun c hc => h c (by simp [hc])]
  | case3 c cs hno _ ih | case4 c cs hno _ _ ih | case5 c cs hno _ _ _ _ ih =>
    rw [linesBy.eq_3 _ _ _ hno, linesBy.eq_3 _ _ _ hno, h c List.mem_cons_self,
      ih fun d hd => h d (List.mem_cons_of_mem c hd)]

theorem isLineBreak_of_isNewline {c : Char} (h : isNewline c = true) : isLineBreak c = true := by
  rcases (by simpa [isNewline] using h : c = '\n' ∨ c = '\r') with rfl | rfl <;> decide

theorem lines_eq_fileLines {s : List Char} (h : PlainBreaks s) : lines s = fileLines s :=
  linesBy_congr fun c hc => Bool.eq_iff_iff.2 ⟨h c hc, isLineBreak_of_isNewline⟩

section

variable {m : Type → Type} [Monad m] [LawfulMonad m] (h : Host m) {p : Path} {text : String}

theorem load_encode (hp : p.hasNul = false) (hlook : h.look p = pure (.file (Utf8.encode text.toList))) :
    load h p = pure (.ok (ofLines (fileLines text.toList))) := by
  rw [load, if_neg (by simp [hp]), hlook, pure_bind]
  simp [ofLook, ofBytes, Utf8.decodeLenient_encode]

/-- **Both ways agree.** -/
theorem load_eq_ofText (hp : p.hasNul = false) (hlook : h.look p = pure (.file (Utf8.encode text.toList)))
    (hbreak : PlainBreaks text.toList) : load h p = pure (.ok (ofText text)) := by
  rw [load_encode h hp hlook, ofText, lines_eq_fileLines hbreak]

end

/-- a file with both kinds of line ends, on a host that finds it everywhere -/
theorem load_eq_ofText_build :
    load (m := Id) ⟨fun _ => .file (Utf8.encode "build: café\r\n\tgo build\n".toList), fun _ _ => none⟩ {} =
      pure (.ok (ofText "build: café\r\n\tgo build\n")) ∧
    ofText "build: café\r\n\tgo build\n" = [{ name := "build", dependencies := ["café"], recipe := ["go build"] }] :=
  ⟨load_eq_ofText _ (by decide) rfl (by decide), by decide +kernel⟩

/-- **A form feed in a command.** The text in memory breaks there, and what follows is a header. -/
theorem formFeed_splits_command :
    ¬ ∀ (h : Host Id) (p : Path) (text : String), p.hasNul = false → h.look p = pure (.file (Utf8.encode text.toList)) →
      load h p = pure (.ok (ofText text)) := by
  intro hall
  let text := "build:\n\techo one\x0cclean: all\n"
  have hsame := hall ⟨fun _ => .file (Utf8.encode text.toList), fun _ _ => none⟩ {} text (by decide) rfl
  have htargets : ofBytes (Utf8.encode text.toList) = ofText text := Except.ok.inj hsame
  revert htargets
  decide +kernel

end MakeAtlas.Makefile
