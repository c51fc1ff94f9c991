/-
Where the documentation of a target comes from: from the comment inside its header, when that says something, and else
from the nearest comment line above that nothing detaches. Blank lines and headers detach; commands, assignments and all
other lines do not.
- `Inside`, `inside_iff`: the comment inside a header, by the first marks behind the colon.
- `Attached`, `attached_succ_iff`: the comment lines that nothing detaches from a line, one line more at a time.
- `Waits`, `waits_waitingAfter`: the nearest of them is the comment that waits in front of the line.
- `Documents`, `documents_iff`: the documentation of a header, and of no other.
- `documents_ofLines`: every target has the documentation of the header that declares it.
-/
import MakeAtlas.Proofs.Makefile.Blocks

namespace MakeAtlas.Makefile

open Text

/-! ## Inside a header -/

/-- the text behind the first colon of a line, and behind one more colon right after it -/
def behindColon (raw : List Char) : List Char :=
  match ((chomp raw).dropWhile (· != ':')).drop 1 with
  | ':' :: rest => rest
  | rest => rest

/-- the comment in a text: what stands behind the first `##`, or where there is none behind the first `#`, without the
blanks around it -/
inductive Inside (text : List Char) : Doc → Prop where
  | double {front back : List Char} (htext : text = front ++ ['#', '#'] ++ back)
    (hfirst : ¬ ['#', '#'] <:+: front ++ ['#']) :
    Inside text ⟨.double, String.ofList (strip back)⟩
  | single {front back : List Char} (hno : ¬ ['#', '#'] <:+: text) (htext : text = front ++ ['#'] ++ back)
    (hfirst : '#' ∉ front) :
    Inside text ⟨.single, String.ofList (strip back)⟩
  | none (hno : '#' ∉ text) : Inside text {}

theorem Inside.eq {text : List Char} {doc : Doc} (h : Inside text doc) : doc = inlineDoc text := by
  unfold inlineDoc
  cases h with
  | @double front back htext hfirst =>
    rw [htext, splitAround_of_first (by simp) hfirst]
    rfl
  | @single front back hno htext hfirst =>
    have hfirst' : ¬ ['#'] <:+: front ++ ['#'].dropLast := by simpa [List.singleton_infix_iff] using hfirst
    rw [splitAround_eq_none hno, htext, splitAround_of_first (by simp) hfirst']
    rfl
  | none hno =>
    have hdouble : ¬ ['#', '#'] <:+: text := fun h => hno (h.subset (by simp))
    rw [splitAround_eq_none hdouble, splitAround_eq_none (mt (List.singleton_infix_iff '#' text).1 hno)]

theorem inside_inlineDoc (text : List Char) : Inside text (inlineDoc text) := by
  suffices h : ∃ doc, Inside text doc by
    obtain ⟨doc, hdoc⟩ := h
    exact hdoc.eq ▸ hdoc
  by_cases hdouble : ['#', '#'] <:+: text
  · obtain ⟨front, back, htext, hfirst⟩ := exists_first (by simp) hdouble
    exact ⟨_, .double htext hfirst⟩
  · by_cases hsingle : '#' ∈ text
    · obtain ⟨front, back, htext, hfirst⟩ := exists_first (by simp) ((List.singleton_infix_iff '#' text).2 hsingle)
      exact ⟨_, .single hdouble htext (by simpa [List.singleton_infix_iff] using hfirst)⟩
    · exact ⟨_, .none hsingle⟩

theorem inside_iff {text : List Char} {doc : Doc} : Inside text doc ↔ doc = inlineDoc text :=
  ⟨Inside.eq, fun h => h ▸ inside_inlineDoc text⟩

theorem inline_headerOf (raw : List Char) : (headerOf raw).inline = inlineDoc (behindColon raw) := rfl

/-! ## Above a header -/

/-- what a comment line says: its text behind `##` or `#`, without the blanks around it -/
def commentDoc (raw : List Char) : Doc :=
  let text := strip (chomp raw)
  if ['#', '#'] <+: text then .of .double (text.drop 2) else .of .single (text.drop 1)

/-- the comment line `j` is above the line `i`, and neither a blank line nor a header detaches it -/
def Attached (ls : List (List Char)) (j i : ℕ) : Prop :=
  j < i ∧ IsCommentLine (ls.getD j []) ∧ ∀ k, j < k → k < i → ¬ IsBlankLine (ls.getD k []) ∧
    ¬ IsHeaderLine (ls.getD k [])

/-- the comment that waits in front of a line: that of the nearest comment line that is attached, if there is one -/
inductive Waits (ls : List (List Char)) (i : ℕ) : Doc → Prop where
  | nearest {j : ℕ} (h : Attached ls j i) (hnearest : ∀ k, Attached ls k i → k ≤ j) :
    Waits ls i (commentDoc (ls.getD j []))
  | nothing (h : ∀ j, ¬ Attached ls j i) : Waits ls i {}

variable {ls : List (List Char)} {i j : ℕ} {doc doc' : Doc}

theorem commentDoc_eq {raw : List Char} (h : commentLine? (strip (chomp raw)) = some doc) : commentDoc raw = doc := by
  unfold commentDoc
  unfold commentLine? at h
  split at h
  next rest htext => simpa [htext] using h
  next rest hno htext =>
    have hdouble : ¬ ['#', '#'] <+: '#' :: rest := by
      intro h
      obtain ⟨back, hback⟩ := h
      exact hno back (List.cons.inj hback).2.symm
    simpa [htext, hdouble] using h
  next => cases h

/-- **One line more.** It is attached itself if it is a comment, and it keeps what is attached if it is neither blank
nor a header. -/
theorem attached_succ_iff : Attached ls j (i + 1) ↔ j = i ∧ IsCommentLine (ls.getD i []) ∨
    Attached ls j i ∧ ¬ IsBlankLine (ls.getD i []) ∧ ¬ IsHeaderLine (ls.getD i []) := by
  constructor
  · intro h
    obtain ⟨hlt, hcomment, hbetween⟩ := h
    rcases Nat.lt_succ_iff_lt_or_eq.1 hlt with hlt | rfl
    · exact .inr ⟨⟨hlt, hcomment, fun k hj hi => hbetween k hj (Nat.lt_succ_of_lt hi)⟩,
        hbetween i hlt (Nat.lt_succ_self i)⟩
    · exact .inl ⟨rfl, hcomment⟩
  · intro h
    rcases h with ⟨rfl, hcomment⟩ | ⟨⟨hlt, hcomment, hbetween⟩, hlast⟩
    · exact ⟨Nat.lt_succ_self j, hcomment, fun k hj hi => by omega⟩
    · refine ⟨Nat.lt_succ_of_lt hlt, hcomment, fun k hj hi => ?_⟩
      rcases Nat.lt_succ_iff_lt_or_eq.1 hi with hi | rfl
      · exact hbetween k hj hi
      · exact hlast

theorem Waits.unique (h : Waits ls i doc) (h' : Waits ls i doc') : doc = doc' := by
  cases h with
  | @nearest j hj hnearest =>
    cases h' with
    | @nearest k hk hnearest' => rw [le_antisymm (hnearest' j hj) (hnearest k hk)]
    | nothing hno => exact absurd hj (hno j)
  | nothing hno =>
    cases h' with
    | @nearest k hk _ => exact absurd hk (hno k)
    | nothing => rfl

theorem waitingAfter_concat (waiting : Doc) (ls : List Line) (l : Line) :
    waitingAfter waiting (ls ++ [l]) = waitingAfter (waitingAfter waiting ls) [l] := by
  unfold waitingAfter
  rw [List.reverse_append, List.reverse_singleton, List.singleton_append, List.find?_cons]
  cases l <;> rfl

/-- a line that detaches, and is no comment, leaves nothing -/
theorem waits_succ_of_detached (h : IsBlankLine (ls.getD i []) ∨ IsHeaderLine (ls.getD i []))
    (hc : ¬ IsCommentLine (ls.getD i [])) :
    Waits ls (i + 1) {} := by
  refine .nothing fun j hj => ?_
  rcases attached_succ_iff.1 hj with ⟨-, hcomment⟩ | ⟨-, hb, hh⟩
  · exact hc hcomment
  · exact h.elim hb hh

/-- a line that is neither blank nor a comment nor a header changes nothing -/
theorem Waits.succ (h : Waits ls i doc) (hb : ¬ IsBlankLine (ls.getD i [])) (hh : ¬ IsHeaderLine (ls.getD i []))
    (hc : ¬ IsCommentLine (ls.getD i [])) : Waits ls (i + 1) doc := by
  have hsame : ∀ j, Attached ls j (i + 1) ↔ Attached ls j i := by
    intro j
    simp only [attached_succ_iff, hb, hh, hc, and_false, not_false_eq_true, and_true, false_or]
  cases h with
  | nearest hj hnearest => exact .nearest ((hsame _).2 hj) fun k hk => hnearest k ((hsame k).1 hk)
  | nothing hno => exact .nothing fun j hj => hno j ((hsame j).1 hj)

/-- **The comment that waits.** It is that of the nearest comment line that is attached. -/
theorem waits_waitingAfter (hi : i ≤ ls.length) : Waits ls i (waitingAfter {} ((ls.take i).map Line.classify)) := by
  induction i with
  | zero => exact .nothing fun j hj => absurd hj.1 (Nat.not_lt_zero j)
  | succ i ih =>
    have hwaits := ih (Nat.le_of_succ_le hi)
    have hline : ls.getD i [] = ls[i] := by simp [List.getD_eq_getElem?_getD, Nat.lt_of_succ_le hi]
    rw [List.take_succ_eq_append_getElem hi, List.map_append, List.map_singleton, waitingAfter_concat, ← hline]
    generalize hl : Line.classify (ls.getD i []) = l
    cases classify_eq_iff.1 hl with
    | blank hb => exact waits_succ_of_detached (.inl hb) fun hc => hc.not_blank hb
    | header hh => exact waits_succ_of_detached (.inr hh) hh.2.2.1
    | command hcommand =>
      exact hwaits.succ hcommand.1 (fun hh => hh.2.1 hcommand.2) fun hc => hc.1 hcommand.2
    | other hb _ hc hh => exact hwaits.succ hb hh hc
    | @comment doc hc hdoc =>
      rw [show waitingAfter _ [.comment doc] = doc from rfl, ← commentDoc_eq hdoc]
      refine .nearest (attached_succ_iff.2 (.inl ⟨rfl, hc⟩)) fun k hk => ?_
      exact Nat.le_of_lt_succ hk.1

/-! ## Every target -/

/-- the documentation that the header at `i` gives to its targets -/
inductive Documents (ls : List (List Char)) (i : ℕ) : Doc → Prop where
  /-- the comment inside the header, when it says something -/
  | inside {doc : Doc} (h : Inside (behindColon (ls.getD i [])) doc) (hne : doc.text ≠ "") : Documents ls i doc
  /-- the comment that waits, when the one inside says nothing -/
  | above {inline doc : Doc} (h : Inside (behindColon (ls.getD i [])) inline) (hempty : inline.text = "")
    (hdoc : Waits ls i doc) :
    Documents ls i doc

theorem documents_iff (hi : i ≤ ls.length) : Documents ls i doc ↔ doc = docAt ls i := by
  have hwaits := waits_waitingAfter hi
  have hinside := inside_inlineDoc (behindColon (ls.getD i []))
  rw [docAt, inline_headerOf]
  constructor
  · intro h
    cases h with
    | inside h hne =>
      obtain rfl := inside_iff.1 h
      rw [if_neg (by simpa using hne)]
    | above h hempty hdoc =>
      obtain rfl := inside_iff.1 h
      rw [if_pos (by simpa using hempty)]
      exact hdoc.unique hwaits
  · rintro rfl
    split
    next hempty => exact .above hinside (by simpa using hempty) hwaits
    next hne => exact .inside hinside (by simpa using hne)

/-- an assignment between them does not detach a comment, and marks behind the colon that say nothing do not replace
it -/
example : docAt ["# all of it".toList, "CC = gcc".toList, "all: a.o ## ".toList] 2 = ⟨.single, "all of it"⟩ := by
  decide +kernel

/-- the names that a makefile declares, each with the place of its header -/
def declarations (ls : List (List Char)) : List (ℕ × String) :=
  (List.range ls.length).flatMap fun i => (declaredNames (ls.getD i [])).map fun name => (i, name)

theorem ofLines_eq_map_declarations (ls : List (List Char)) : ofLines ls = (declarations ls).map fun d =>
    { name := d.2, doc := docAt ls d.1, dependencies := (headerOf (ls.getD d.1 [])).dependencies,
      recipe := recipeAfter (ls.drop (d.1 + 1)) } := by
  have hat : declaredAt {} (ls.map Line.classify) = targetsAt ls := funext (declaredAt_classify ls)
  rw [ofLines, Scan.targets_run, List.length_map, hat, declarations, List.map_flatMap]
  simp only [List.map_map]
  rfl

/-- **Where documentation comes from.** -/
theorem documents_ofLines (ls : List (List Char)) :
    List.Forall₂ (fun d t => d.1 < ls.length ∧ IsHeaderLine (ls.getD d.1 []) ∧
    t.name = d.2 ∧ ∀ doc, Documents ls d.1 doc ↔ doc = t.doc) (declarations ls) (ofLines ls) := by
  rw [ofLines_eq_map_declarations, List.forall₂_map_right_iff, List.forall₂_same]
  intro d hd
  obtain ⟨i, hi, hname⟩ := List.mem_flatMap.1 hd
  obtain ⟨name, hname, rfl⟩ := List.mem_map.1 hname
  have hlt : i < ls.length := List.mem_range.1 hi
  have hheader : IsHeaderLine (ls.getD i []) := by
    by_contra hno
    rw [declaredNames_of_not_header hno] at hname
    cases hname
  exact ⟨hlt, hheader, rfl, fun doc => documents_iff hlt.le⟩

end MakeAtlas.Makefile
