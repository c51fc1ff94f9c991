/-
The fields of a text, as its maximal runs of characters that are not blank.
- `IsRun`: a maximal run of characters that pass a test, with what stands in front of it and behind it.
- `fields_append_cons_of_blank`: a blank ends what is in front of it, and the fields behind it do not know of that.
- `fields_cons_of_ink`: the first field goes as far as no blank comes.
- `mem_fields_iff`: the fields are the maximal runs.
-/
import MakeAtlas.Proofs.Text.Blank

namespace MakeAtlas.Text

/-- a longest stretch of characters that pass the test, between these other characters -/
structure IsRun (p : Char → Bool) (front run back : List Char) : Prop where
  ne_nil : run ≠ []
  all : ∀ c ∈ run, p c = true
  before : ∀ c ∈ front.getLast?, p c = false
  after : ∀ c ∈ back.head?, p c = false

def isInk (c : Char) : Bool := !isBlank c

theorem isInk_eq_false_iff {c : Char} : isInk c = false ↔ isBlank c = true := by simp [isInk]

theorem isInk_iff {c : Char} : isInk c = true ↔ isBlank c = false := by simp [isInk]

section

variable {p : Char → Bool} {c : Char}

theorem takeWhile_append_cons_of_not (hc : p c = false) (s t : List Char) :
    (s ++ c :: t).takeWhile p = s.takeWhile p := by
  induction s with
  | nil => simp [hc]
  | cons d s ih => simp only [List.cons_append, List.takeWhile_cons, ih]

theorem dropWhile_append_cons_of_not (hc : p c = false) (s t : List Char) :
    (s ++ c :: t).dropWhile p = s.dropWhile p ++ c :: t := by
  induction s with
  | nil => simp [hc]
  | cons d s ih =>
    simp only [List.cons_append, List.dropWhile_cons, ih]
    split <;> rfl

/-- more in front, which ends outside of the run when the run stood in front before -/
theorem IsRun.behind {front run back : List Char} (h : IsRun p front run back) (pre : List Char)
    (hpre : front = [] → ∀ c ∈ pre.getLast?, p c = false) : IsRun p (pre ++ front) run back := by
  refine ⟨h.ne_nil, h.all, ?_, h.after⟩
  cases front with
  | nil => simpa using hpre rfl
  | cons d front => simpa using h.before

end

variable {c : Char} {w s : List Char}

/-- the first field goes as far as no blank comes -/
theorem fields_cons_of_ink (hc : isBlank c = false) (s : List Char) :
    fields (c :: s) = (c :: s.takeWhile isInk) :: fields (s.dropWhile isInk) := by
  induction s generalizing c with
  | nil => simp [fields, hc]
  | cons d s ih =>
    rw [fields.eq_def]
    simp only [hc, Bool.false_eq_true, if_false]
    by_cases hd : isBlank d = true
    · have hstop : isInk d = false := isInk_eq_false_iff.2 hd
      rw [List.takeWhile_cons_of_neg (by simp [hstop]), List.dropWhile_cons_of_neg (by simp [hstop])]
      cases fields (d :: s) <;> simp [hd]
    · have hgo : isInk d = true := by simp [isInk, hd]
      rw [List.takeWhile_cons_of_pos hgo, List.dropWhile_cons_of_pos hgo, ih (by simpa using hd)]
      simp [hd]

/-- a text with a character that is not blank has a field -/
theorem fields_ne_nil (hc : isBlank c = false) (h : c ∈ s) : fields s ≠ [] := by
  induction s with
  | nil => cases h
  | cons d s ih =>
    cases hd : isBlank d with
    | false => simp [fields_cons_of_ink hd]
    | true =>
      have hne : c ≠ d := by
        rintro rfl
        rw [hc] at hd
        cases hd
      rw [fields_cons_of_blank hd]
      exact ih ((List.mem_cons.1 h).resolve_left hne)

/-- **A blank separates.** -/
theorem fields_append_cons_of_blank (hc : isBlank c = true) (s t : List Char) :
    fields (s ++ c :: t) = fields s ++ fields t := by
  have hstop : isInk c = false := isInk_eq_false_iff.2 hc
  induction hlen : s.length using Nat.strong_induction_on generalizing s with
  | _ n ih =>
    cases s with
    | nil => exact fields_cons_of_blank hc t
    | cons d s =>
      rw [List.length_cons] at hlen
      cases hd : isBlank d with
      | true => rw [List.cons_append, fields_cons_of_blank hd, fields_cons_of_blank hd, ih s.length (by omega) s rfl]
      | false =>
        have hshort : (s.dropWhile isInk).length < n := by
          have := (List.dropWhile_sublist isInk (l := s)).length_le
          omega
        rw [List.cons_append, fields_cons_of_ink hd, fields_cons_of_ink hd, takeWhile_append_cons_of_not hstop,
          dropWhile_append_cons_of_not hstop, ih _ hshort _ rfl, List.cons_append]

theorem head?_dropWhile_isInk : ∀ d ∈ (s.dropWhile isInk).head?, isInk d = false := by
  intro d hd
  have hnot := List.head?_dropWhile_not isInk s
  rw [Option.mem_def.1 hd] at hnot
  simpa using hnot

/-- **Fields are maximal runs.** -/
theorem mem_fields_iff : w ∈ fields s ↔ ∃ front back, s = front ++ w ++ back ∧ IsRun isInk front w back := by
  constructor
  · intro hw
    induction hlen : s.length using Nat.strong_induction_on generalizing s with
    | _ n ih =>
      cases s with
      | nil => cases hw
      | cons c s =>
        rw [List.length_cons] at hlen
        cases hc : isBlank c with
        | true =>
          rw [fields_cons_of_blank hc] at hw
          obtain ⟨front, back, rfl, hrun⟩ := ih s.length (by omega) hw rfl
          exact ⟨c :: front, back, rfl, hrun.behind [c] fun _ => by simp [isInk, hc]⟩
        | false =>
          have hsplit : s.takeWhile isInk ++ s.dropWhile isInk = s := List.takeWhile_append_dropWhile
          rw [fields_cons_of_ink hc] at hw
          rcases List.mem_cons.1 hw with rfl | hw
          · refine ⟨[], s.dropWhile isInk, by simp [hsplit], List.cons_ne_nil _ _, ?_, by simp, head?_dropWhile_isInk⟩
            exact List.forall_mem_cons.2 ⟨isInk_iff.2 hc, fun d hd => List.mem_takeWhile_imp hd⟩
          · have hshort : (s.dropWhile isInk).length < n := by
              have := (List.dropWhile_sublist isInk (l := s)).length_le
              omega
            obtain ⟨front, back, hback, hrun⟩ := ih _ hshort hw rfl
            refine ⟨c :: s.takeWhile isInk ++ front, back, ?_, hrun.behind _ fun hfront => ?_⟩
            · rw [List.append_assoc, List.append_assoc, ← List.append_assoc front, ← hback, List.cons_append, hsplit]
            · -- what is left begins with a blank, and no run does
              obtain ⟨d, ds, rfl⟩ := List.exists_cons_of_ne_nil hrun.ne_nil
              have hhead : isInk d = false := head?_dropWhile_isInk (s := s) d (by simp [hback, hfront])
              rw [hrun.all d List.mem_cons_self] at hhead
              cases hhead
  · rintro ⟨front, back, rfl, hrun⟩
    obtain ⟨c, cs, rfl⟩ := List.exists_cons_of_ne_nil hrun.ne_nil
    have hhead : c :: cs ∈ fields (c :: cs ++ back) := by
      have hcs : ∀ d ∈ cs, isInk d = true := fun d hd => hrun.all d (List.mem_cons_of_mem _ hd)
      have hback : back.takeWhile isInk = [] := by
        cases back with
        | nil => rfl
        | cons d back => exact List.takeWhile_cons_of_neg (by simp [hrun.after d rfl])
      rw [List.cons_append, fields_cons_of_ink (isInk_iff.1 (hrun.all c List.mem_cons_self)),
        List.takeWhile_append_of_pos hcs, hback, List.append_nil]
      exact List.mem_cons_self
    rcases List.eq_nil_or_concat front with rfl | ⟨front, b, rfl⟩
    · exact hhead
    · have hb : isBlank b = true := isInk_eq_false_iff.1 (hrun.before b (by simp))
      rw [List.concat_eq_append, List.append_assoc, List.append_assoc, List.singleton_append,
        fields_append_cons_of_blank hb]
      exact List.mem_append_right _ hhead

end MakeAtlas.Text
