/-
Lists with every repetition taken out but the first. A list without repetitions stays as it is; of a list in front of
another one, only the first occurrences count.
-/
import Mathlib.Tactic

namespace MakeAtlas

variable {α : Type} [DecidableEq α]

theorem nodup_eraseDups (l : List α) : l.eraseDups.Nodup := by
  induction h : l.length using Nat.strong_induction_on generalizing l with
  | _ n ih =>
    cases l with
    | nil => simp
    | cons x l =>
      rw [List.eraseDups_cons, List.nodup_cons, List.mem_eraseDups]
      refine ⟨by simp, ih _ ?_ _ rfl⟩
      rw [← h, List.length_cons]
      exact Nat.lt_succ_of_le (List.length_filter_le _ _)

theorem eraseDups_concat (l : List α) (x : α) :
    (l ++ [x]).eraseDups = if x ∈ l then l.eraseDups else l.eraseDups ++ [x] := by
  rw [List.eraseDups_append]
  split_ifs with h <;> simp [List.removeAll, h, List.eraseDups_cons]

theorem eraseDups_eraseDups (l : List α) : l.eraseDups.eraseDups = l.eraseDups := by
  induction l using List.reverseRecOn with
  | nil => rfl
  | append_singleton l x ih =>
    rw [eraseDups_concat]
    split_ifs with hx
    · exact ih
    · rw [eraseDups_concat, if_neg (by rwa [List.mem_eraseDups]), ih]

theorem eraseDups_append_congr {l l' : List α} (h : l.eraseDups = l'.eraseDups) (more : List α) :
    (l ++ more).eraseDups = (l' ++ more).eraseDups := by
  have hmem : ∀ a, a ∈ l ↔ a ∈ l' := by
    intro a
    rw [← List.mem_eraseDups, h, List.mem_eraseDups]
  rw [List.eraseDups_append, List.eraseDups_append, h]
  simp only [List.removeAll, List.elem_eq_mem, hmem]

end MakeAtlas
