/-
Replacing what a pattern matches. A text is gone through once, from left to right: where the pattern matches and takes
up some text, that text gives way to a value and the search goes on behind it; where it does not, one character is kept.
A match of nothing is no match here.
- `replace`: the text with every match replaced, for any pattern and any value of a match.
- `replaceFrom_of_some`, `replaceFrom_of_none`: one match, or one character, further.
- `Spot.beyond`, `walk_run`: a greedy run of characters takes all of them, when what follows refuses every place inside
  the run.
-/
import Mathlib.Tactic
import MakeAtlas.Proofs.Pattern.Spelling

namespace MakeAtlas.Pattern

variable {α ε : Type}

/-! ## Places -/

/-- the place one character further, of which `c` is taken and `cs` is left -/
def Spot.moved (s : Spot α) (c : α) (cs : List α) : Spot α :=
  { s with pos := s.pos + 1, past := c :: s.past, ahead := cs }

/-- the place behind the longest run of characters that pass a test -/
def Spot.beyond (s : Spot α) (p : α → Bool) : Spot α :=
  { s with pos := s.pos + (s.ahead.takeWhile p).length, past := (s.ahead.takeWhile p).reverse ++ s.past,
           ahead := s.ahead.dropWhile p }

/-- the rest refuses every place with another character of the run ahead -/
def Refuses (p : α → Bool) (k : Rest α) : Prop :=
  ∀ (t : Spot α) (c : α) (cs : List α), t.ahead = c :: cs → p c = true → k t = none

theorem beyond_of_nil {s : Spot α} {p : α → Bool} (h : s.ahead = []) : s.beyond p = s := by
  cases s
  cases h
  rfl

theorem beyond_of_cons {s : Spot α} {c : α} {cs : List α} {p : α → Bool} (h : s.ahead = c :: cs) :
    s.beyond p = if p c = true then (s.moved c cs).beyond p else s := by
  cases hc : p c with
  | true => simp [Spot.beyond, Spot.moved, h, hc, Nat.add_assoc, Nat.add_comm 1]
  | false =>
    rw [if_neg Bool.false_ne_true, Spot.beyond, h, List.takeWhile_cons_of_neg (by simp [hc]),
      List.dropWhile_cons_of_neg (by simp [hc]), ← h]
    rfl

variable [Letter α]

/-! ## Replacing -/

/-- the text of a group, if the group has taken part in the match that ends here -/
def Spot.group? (s : Spot α) (index : ℕ) : Option (List α) := (s.span? index).map s.captured

/-- where the match ends that begins between these characters, if it takes up some of those ahead -/
def matchHere (n : Node) (past ahead : List α) : Option (Spot α) :=
  (walk n (.between past ahead) some).filter fun t => t.ahead.length < ahead.length

theorem length_lt_of_matchHere {n : Node} {past ahead : List α} {t : Spot α} (h : matchHere n past ahead = some t) :
    t.ahead.length < ahead.length := by
  simpa using (Option.filter_eq_some_iff.1 h).2

/-- the text ahead with every match replaced by its value -/
def replaceFrom (n : Node) (value : Spot α → Except ε (List α)) (past ahead : List α) : Except ε (List α) :=
  match h : matchHere n past ahead with
  | some t =>
    have := length_lt_of_matchHere h
    do return (← value t) ++ (← replaceFrom n value t.past t.ahead)
  | none =>
    match ahead with
    | [] => .ok []
    | c :: cs => do return c :: (← replaceFrom n value (c :: past) cs)
termination_by ahead.length

/-- the text with every match replaced by its value; the first value that fails makes it fail -/
def replace (n : Node) (value : Spot α → Except ε (List α)) (text : List α) : Except ε (List α) :=
  replaceFrom n value [] text

theorem replaceFrom_of_some {n : Node} {past ahead : List α} {t : Spot α} (value : Spot α → Except ε (List α))
    (h : matchHere n past ahead = some t) :
    replaceFrom n value past ahead = do return (← value t) ++ (← replaceFrom n value t.past t.ahead) := by
  rw [replaceFrom]
  split
  next u hu =>
    obtain rfl := Option.some.inj (h.symm.trans hu)
    rfl
  next hnone => rw [h] at hnone; cases hnone

theorem replaceFrom_of_none {n : Node} {past ahead : List α} (value : Spot α → Except ε (List α))
    (h : matchHere n past ahead = none) : replaceFrom n value past ahead =
      match ahead with
      | [] => .ok []
      | c :: cs => do return c :: (← replaceFrom n value (c :: past) cs) := by
  rw [replaceFrom]
  split
  next hsome => rw [h] at hsome; cases hsome
  next => rfl

/-! ## Runs -/

section

variable {m : Mode} {test : Single} {s : Spot α} {k : Rest α} {c : α} {cs : List α}

theorem walk_one_of_nil (h : s.ahead = []) (k : Rest α) : walk (.one m test) s k = none := by
  rw [walk, Spot.step, h]
  rfl

theorem walk_one_of_cons (h : s.ahead = c :: cs) (k : Rest α) :
    walk (.one m test) s k = if test.holds m (code c) = true then k (s.moved c cs) else none := by
  rw [walk, Spot.step, h]
  by_cases hc : test.holds m (code c) = true
  · simp only [hc, if_true, Option.bind_some, Spot.moved]
  · simp only [hc, if_false, Option.bind_none, Bool.false_eq_true]

/-- **A run is taken as a whole.** -/
theorem mostly_run (hk : Refuses (fun c => test.holds m (code c)) k) (n : ℕ) (hn : s.ahead.length ≤ n) :
    mostly (walk (.one m test)) n s k = k (s.beyond fun c => test.holds m (code c)) := by
  induction n generalizing s with
  | zero =>
    have hnil : s.ahead = [] := List.eq_nil_of_length_eq_zero (Nat.le_zero.1 hn)
    rw [mostly, beyond_of_nil hnil]
  | succ n ih =>
    rw [mostly]
    cases hahead : s.ahead with
    | nil =>
      rw [walk_one_of_nil hahead, beyond_of_nil hahead]
      rfl
    | cons c cs =>
      rw [walk_one_of_cons hahead, beyond_of_cons hahead]
      split
      next hc =>
        -- one character further the run is shorter, and here the rest refuses
        have hlen : (s.moved c cs).ahead.length ≤ n := by
          rw [hahead] at hn
          exact Nat.le_of_succ_le_succ hn
        have hmoved : ((s.moved c cs).pos == s.pos) = false := by simp [Spot.moved]
        rw [if_neg (by simp [hmoved]), ih hlen, hk s c cs hahead hc, Option.orElse_eq_orElse, Option.orElse_eq_or,
          Option.or_none]
      next => rfl

/-- one character at least, and then as many as there are -/
theorem walk_run (hk : Refuses (fun c => test.holds m (code c)) k) : walk (.repeat .greedy 1 none (.one m test)) s k =
    if s.ahead.takeWhile (fun c => test.holds m (code c)) = [] then none
    else k (s.beyond fun c => test.holds m (code c)) := by
  change walk (.one m test) s (fun t => mostly (walk (.one m test)) (t.ahead.length + 1) t k) = _
  cases hahead : s.ahead with
  | nil => rw [walk_one_of_nil hahead, List.takeWhile_nil, if_pos rfl]
  | cons c cs =>
    rw [walk_one_of_cons hahead, beyond_of_cons hahead]
    by_cases hc : test.holds m (code c) = true
    · have hrun : (c :: cs).takeWhile (fun c => test.holds m (code c)) ≠ [] := by simp [hc]
      rw [if_pos hc, if_pos hc, if_neg hrun, mostly_run hk _ (Nat.le_succ _)]
    · have hrun : (c :: cs).takeWhile (fun c => test.holds m (code c)) = [] := by simp [hc]
      rw [if_neg hc, if_pos hrun]

end

end MakeAtlas.Pattern
