/-
Blocks. What a makefile declares, line by line, said without the reader's state.
- `targetsWith_step`: one line adds what it declares, and gives its command, if it has one, to the block that is open.
- `foldl_step_targets`, `targets_run`: so every header declares its names with the commands up to the next line that
  closes the block, and with the comment that waits there.
- `ofLines_eq_flatMap_targetsAt`: the same in terms of the text of the lines.
-/
import Mathlib.Tactic
import MakeAtlas.Makefile.Scan
import MakeAtlas.Proofs.Makefile.Kinds

namespace MakeAtlas.Makefile

open Text

/-! ## What a line declares -/

namespace Line

def closes : Line → Bool
  | blank | comment _ | header _ => true
  | command _ | other => false

def command? : Line → Option String
  | command text => some text
  | _ => none

/-- the targets that the line declares, given the comment that waits for it and the commands of its block -/
def declared (waiting : Doc) (recipe : List String) : Line → List Target
  | header h => (Scan.declared waiting h).map fun t => { t with recipe }
  | _ => []

end Line

/-- the commands up to the next line that closes the block -/
def recipeOf (ls : List Line) : List String := (ls.takeWhile (!·.closes)).filterMap (·.command?)

/-- the comment that waits after these lines, when `waiting` waits before them -/
def waitingAfter (waiting : Doc) (ls : List Line) : Doc :=
  match ls.reverse.find? (·.closes) with
  | some (.comment doc) => doc
  | some _ => {}
  | none => waiting

/-- what the line at `i` declares, when `waiting` waits before the first -/
def declaredAt (waiting : Doc) (ls : List Line) (i : ℕ) : List Target :=
  (ls.getD i .blank).declared (waitingAfter waiting (ls.take i)) (recipeOf (ls.drop (i + 1)))

theorem waitingAfter_cons (waiting : Doc) (l : Line) (ls : List Line) :
    waitingAfter waiting (l :: ls) = waitingAfter (waitingAfter waiting [l]) ls := by
  unfold waitingAfter
  rw [List.reverse_cons, List.find?_append]
  cases ls.reverse.find? (·.closes) with
  | some l' => cases l' <;> rfl
  | none => rfl

/-! ## The state between two lines -/

namespace Scan

variable (s : Scan)

/-- the targets of the lines so far, when these lines follow -/
def targetsWith (rest : List Line) : List Target :=
  s.closed ++ s.block.map fun t => { t with recipe := s.recipe ++ recipeOf rest }

theorem step_waiting (l : Line) : (s.step l).waiting = waitingAfter s.waiting [l] := by
  cases l <;> rfl

/-- **One line.** What it declares comes after all that the lines before it declare. -/
theorem targetsWith_step (l : Line) (rest : List Line) :
    (s.step l).targetsWith rest = s.targetsWith (l :: rest) ++ declaredAt s.waiting (l :: rest) 0 := by
  cases l with
  | blank => simp [targetsWith, declaredAt, step, close, targets, recipeOf, Line.closes, Line.declared]
  | command text =>
    cases hb : s.block with
    | nil => simp [targetsWith, declaredAt, step, hb, Line.declared]
    | cons t ts => simp [targetsWith, declaredAt, step, hb, recipeOf, Line.closes, Line.command?, Line.declared]
  | comment doc => simp [targetsWith, declaredAt, step, close, targets, recipeOf, Line.closes, Line.declared]
  | header h => simp [targetsWith, declaredAt, step, close, targets, recipeOf, waitingAfter, Line.closes, Line.declared]
  | other => simp [targetsWith, declaredAt, step, recipeOf, Line.closes, Line.command?, Line.declared]

/-- **All lines.** -/
theorem foldl_step_targets (ls : List Line) :
    (ls.foldl step s).targets = s.targetsWith ls ++ (List.range ls.length).flatMap (declaredAt s.waiting ls) := by
  induction ls generalizing s with
  | nil => simp [targets, targetsWith, recipeOf]
  | cons l ls ih =>
    have hlater : ∀ i, declaredAt s.waiting (l :: ls) (i + 1) = declaredAt (s.step l).waiting ls i := by
      intro i
      simp only [declaredAt, List.getD_cons_succ, List.take_succ_cons, List.drop_succ_cons]
      rw [waitingAfter_cons, step_waiting]
    rw [List.foldl_cons, ih, targetsWith_step, List.length_cons, List.range_succ_eq_map, List.flatMap_cons,
      List.flatMap_map, List.append_assoc]
    simp only [Nat.succ_eq_add_one, hlater]

theorem targets_run (ls : List Line) : (run ls).targets = (List.range ls.length).flatMap (declaredAt {} ls) := by
  rw [run, foldl_step_targets]
  rfl

end Scan

/-! ## The text of the lines -/

def declaredNames (raw : List Char) : List String :=
  if IsHeaderLine raw ∧ firstInk (namePart raw) ≠ some '.' then (fields (namePart raw)).map String.ofList else []

/-- the commands among the lines up to the next blank line, comment or header -/
def recipeAfter (rest : List (List Char)) : List String :=
  ((rest.takeWhile fun raw => ¬ (IsBlankLine raw ∨ IsCommentLine raw ∨ IsHeaderLine raw)).filter
    IsCommandLine).map commandText

/-- the comment inside the header at `i`, or else the one that waits for it -/
def docAt (ls : List (List Char)) (i : ℕ) : Doc :=
  let inline := (headerOf (ls.getD i [])).inline
  if inline.text.isEmpty then waitingAfter {} ((ls.take i).map Line.classify) else inline

def targetsAt (ls : List (List Char)) (i : ℕ) : List Target :=
  (declaredNames (ls.getD i [])).map fun name =>
    { name, doc := docAt ls i, dependencies := (headerOf (ls.getD i [])).dependencies,
      recipe := recipeAfter (ls.drop (i + 1)) }

theorem declaredNames_of_not_header {raw : List Char} (h : ¬ IsHeaderLine raw) : declaredNames raw = [] :=
  if_neg fun hd => h hd.1

theorem names_headerOf {raw : List Char} (h : IsHeaderLine raw) : (headerOf raw).names = declaredNames raw := by
  have hcolon : ':' ∈ raw := h.2.2.2.1
  simp only [headerOf, Header.of, namePart_chomp hcolon, head?_strip, fields_strip, declaredNames, h,
    true_and, beq_iff_eq]
  by_cases hdot : firstInk (namePart raw) = some '.' <;> simp [hdot]

theorem Reads.closes {raw : List Char} {l : Line} (h : Reads raw l) :
    l.closes = decide (IsBlankLine raw ∨ IsCommentLine raw ∨ IsHeaderLine raw) := by
  symm
  cases h with
  | blank h => exact decide_eq_true (.inl h)
  | command h => exact decide_eq_false (by rintro (hb | hc | hh); exacts [h.1 hb, hc.1 h.2, hh.2.1 h.2])
  | comment h => exact decide_eq_true (.inr (.inl h))
  | header h => exact decide_eq_true (.inr (.inr h))
  | other hb _ hc hh => exact decide_eq_false (by simp [hb, hc, hh])

theorem Reads.command? {raw : List Char} {l : Line} (h : Reads raw l) :
    l.command? = if IsCommandLine raw then some (commandText raw) else none := by
  cases h with
  | blank h => rw [if_neg fun hc => hc.1 h]; rfl
  | command h => rw [if_pos h]; rfl
  | comment h => rw [if_neg fun hc => h.1 hc.2]; rfl
  | header h => rw [if_neg fun hc => h.2.1 hc.2]; rfl
  | other _ ht => rw [if_neg fun hc => ht hc.2]; rfl

theorem Reads.declared {raw : List Char} {l : Line} (h : Reads raw l) (waiting : Doc) (recipe : List String) :
    l.declared waiting recipe = (declaredNames raw).map fun name =>
      { name, doc := if (headerOf raw).inline.text.isEmpty then waiting else (headerOf raw).inline,
        dependencies := (headerOf raw).dependencies, recipe } := by
  cases h with
  | header h =>
    rw [← names_headerOf h, Line.declared, Scan.declared, List.map_map]
    rfl
  | blank h => rw [declaredNames_of_not_header fun hh => hh.1 h]; rfl
  | command h => rw [declaredNames_of_not_header fun hh => hh.2.1 h.2]; rfl
  | comment h => rw [declaredNames_of_not_header fun hh => hh.2.2.1 h]; rfl
  | other _ _ _ hh => rw [declaredNames_of_not_header hh]; rfl

theorem recipeOf_classify (ls : List (List Char)) : recipeOf (ls.map Line.classify) = recipeAfter ls := by
  have hcloses : ((!·.closes) ∘ Line.classify) =
      fun raw => decide ¬ (IsBlankLine raw ∨ IsCommentLine raw ∨ IsHeaderLine raw) := by
    funext raw
    rw [Function.comp_apply, (reads_classify raw).closes, decide_not]
  have hcommand : ∀ raw, (Line.classify raw).command? = if IsCommandLine raw then some (commandText raw) else none :=
    fun raw => (reads_classify raw).command?
  unfold recipeOf recipeAfter
  rw [List.takeWhile_map, hcloses, List.filterMap_map, ← List.filterMap_eq_map, List.filterMap_filter]
  congr 1
  funext raw
  rw [Function.comp_apply, hcommand, Function.comp_apply]
  simp only [decide_eq_true_eq]

theorem declaredAt_classify (ls : List (List Char)) (i : ℕ) :
    declaredAt {} (ls.map Line.classify) i = targetsAt ls i := by
  have hline : (ls.map Line.classify).getD i .blank = Line.classify (ls.getD i []) := by
    rw [List.getD_eq_getElem?_getD, List.getD_eq_getElem?_getD, List.getElem?_map]
    cases ls[i]? <;> rfl
  rw [declaredAt, hline, ← List.map_take, ← List.map_drop, recipeOf_classify, (reads_classify _).declared]
  rfl

/-- **What a makefile declares.** Every header declares its names, in the order of the lines, with the commands up to
the next line that closes its block. -/
theorem ofLines_eq_flatMap_targetsAt (ls : List (List Char)) :
    ofLines ls = (List.range ls.length).flatMap (targetsAt ls) := by
  have hat : declaredAt {} (ls.map Line.classify) = targetsAt ls := funext (declaredAt_classify ls)
  rw [ofLines, Scan.targets_run, List.length_map, hat]

end MakeAtlas.Makefile
