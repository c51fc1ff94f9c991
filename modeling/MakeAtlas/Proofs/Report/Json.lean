/-
Values as JSON text, on a terminal. The text has no escape character, whatever the value, so that a terminal gets all of
it; and the member of an object is found under its name.
- `escape_not_mem_write`, `escape_not_mem_render`: no value is written with an escape character.
- `plain_render`: the text of a value is shown as it is.
- `member?_verdictsJson`, `member?_targetJson`: the members of what is reported.
-/
import Mathlib.Tactic
import MakeAtlas.Command.Run
import MakeAtlas.Report

namespace MakeAtlas.Report

open Makefile (Target)
open Safety (Severity Verdict)

namespace Json

/-! ## The text of a value -/

theorem escape_not_mem_toDigits (n : ℕ) : '\x1b' ∉ Nat.toDigits 16 n := by
  have hdigit : ∀ k < 16, '\x1b' ≠ Nat.digitChar k := by decide
  induction n using Nat.strong_induction_on with
  | _ n ih =>
    by_cases hn : n < 16
    · rw [Nat.toDigits_of_lt_base hn, List.mem_singleton]
      exact hdigit n hn
    · have hrest : Nat.toDigits 16 (n / 16) ++ Nat.toDigits 16 (n % 16) = Nat.toDigits 16 (16 * (n / 16) + n % 16) :=
        Nat.toDigits_append_toDigits (by decide) (by omega) (by omega)
      rw [Nat.div_add_mod] at hrest
      rw [← hrest, List.mem_append, not_or]
      exact ⟨ih _ (by omega), ih _ (by omega)⟩

theorem escape_not_mem_unit (n : ℕ) : '\x1b' ∉ unit n := by
  simp [unit, Text.hex, escape_not_mem_toDigits]

theorem escape_not_mem_escaped (c : Char) : '\x1b' ∉ escaped c := by
  unfold escaped
  split_ifs with hquote _ _ _ _ _ hprintable
  · rcases (by simpa using hquote : c = '"' ∨ c = '\\') with rfl | rfl <;> decide
  · decide
  · decide
  · decide
  · decide
  · decide
  · rw [List.mem_singleton]
    rintro rfl
    revert hprintable
    decide
  · exact escape_not_mem_unit _
  · simp [escape_not_mem_unit]

theorem escape_not_mem_quoted (s : String) : '\x1b' ∉ (quoted s).toList := by
  simp [quoted, escape_not_mem_escaped]

theorem escape_not_mem_newLine (level : ℕ) : '\x1b' ∉ (newLine level).toList := by
  simp [newLine]

theorem not_mem_intercalate {c : Char} {sep : List Char} {ls : List (List Char)} (hsep : c ∉ sep)
    (hls : ∀ l ∈ ls, c ∉ l) :
    c ∉ sep.intercalate ls := by
  induction ls with
  | nil => simp
  | cons l ls ih =>
    have hrest : ∀ l ∈ ls, c ∉ l := fun l hl => hls l (List.mem_cons_of_mem _ hl)
    cases ls with
    | nil => simpa using hls l List.mem_cons_self
    | cons l' ls =>
      rw [List.intercalate_cons_cons, List.mem_append, List.mem_append, not_or, not_or]
      exact ⟨⟨hls l List.mem_cons_self, hsep⟩, ih hrest⟩

theorem escape_not_mem_bracketed {opening closing : String} (hopening : '\x1b' ∉ opening.toList)
    (hclosing : '\x1b' ∉ closing.toList) (level : ℕ) {members : List String}
    (hmembers : ∀ s ∈ members, '\x1b' ∉ s.toList) :
    '\x1b' ∉ (bracketed opening closing level members).toList := by
  have hinner : '\x1b' ∉ (("," ++ newLine (level + 1)).intercalate members).toList := by
    rw [String.toList_intercalate]
    refine not_mem_intercalate ?_ (List.forall_mem_map.2 hmembers)
    simp [escape_not_mem_newLine]
  unfold bracketed
  split_ifs
  · simp [hopening, hclosing]
  · simp only [String.toList_append, List.mem_append, not_or]
    exact ⟨⟨⟨⟨hopening, escape_not_mem_newLine _⟩, hinner⟩, escape_not_mem_newLine _⟩, hclosing⟩

mutual

/-- a value is written without an escape character -/
theorem escape_not_mem_write (level : ℕ) : (j : Json) → '\x1b' ∉ (j.write level).toList
  | null => by simp [write]
  | bool b => by cases b <;> simp [write]
  | nat n => by
    rw [write, Nat.toString_eq_repr, Nat.toList_repr]
    exact fun h => absurd (Nat.isDigit_of_mem_toDigits (by decide) (by decide) h) (by decide)
  | text s => escape_not_mem_quoted s
  | list xs => escape_not_mem_bracketed (by decide) (by decide) level (escape_not_mem_writeItems (level + 1) xs)
  | object es => escape_not_mem_bracketed (by decide) (by decide) level (escape_not_mem_writeEntries (level + 1) es)

theorem escape_not_mem_writeItems (level : ℕ) : (xs : List Json) → ∀ s ∈ writeItems level xs, '\x1b' ∉ s.toList
  | [] => by simp [writeItems]
  | x :: xs => by
    rw [writeItems, List.forall_mem_cons]
    exact ⟨escape_not_mem_write level x, escape_not_mem_writeItems level xs⟩

theorem escape_not_mem_writeEntries (level : ℕ) : (es : List (String × Json)) →
    ∀ s ∈ writeEntries level es, '\x1b' ∉ s.toList
  | [] => by simp [writeEntries]
  | (k, x) :: es => by
    rw [writeEntries, List.forall_mem_cons]
    refine ⟨?_, escape_not_mem_writeEntries level es⟩
    simp [escape_not_mem_quoted, escape_not_mem_write level x]

end

theorem escape_not_mem_render (j : Json) : '\x1b' ∉ j.render.toList := by
  simp [render, escape_not_mem_write]

/-- **JSON is shown as it is.** -/
theorem plain_render (j : Json) : Command.Outcome.plain j.render = j.render := by
  rw [Command.Outcome.plain, Text.withoutSequences_eq (escape_not_mem_render j), String.ofList_toList]

/-! ## Members -/

def member? (name : String) : Json → Option Json
  | object es => es.lookup name
  | _ => none

end Json

section

variable {vs : Entries Verdict}

theorem member?_verdictsJson (vs : Entries Verdict) (name : String) :
    (verdictsJson vs).member? name = (vs.value? name).map verdictJson := by
  change Entries.value? (vs.map fun e => (e.1, verdictJson e.2)) name = _
  induction vs with
  | nil => rfl
  | cons e vs ih =>
    rw [List.map_cons, Entries.value?_cons, Entries.value?_cons, ih]
    split_ifs <;> rfl

/-- the level reported under a name, null when nothing is -/
def levelUnder? (name : String) (reported : Json) : Option Json :=
  match reported.member? name with
  | some verdict => verdict.member? "danger_level"
  | none => some .null

/-- the level of the verdict -/
theorem levelUnder?_verdictsJson (vs : Entries Verdict) (name : String) :
    levelUnder? name (verdictsJson vs) = some (levelJson ((vs.value? name).map Verdict.level)) := by
  rw [levelUnder?, member?_verdictsJson]
  cases vs.value? name <;> rfl

/-- an entry of the list is about this target, and has the level reported under its name -/
structure Lists (reported : Json) (t : Target) (entry : Json) : Prop where
  name : entry.member? "name" = some (.text t.name)
  level : ∃ level, entry.member? "danger_level" = some level ∧ levelUnder? t.name reported = some level

/-- **The list and the check report the same levels.** -/
theorem lists_targetJson (vs : Entries Verdict) (t : Target) : Lists (verdictsJson vs) t (targetJson vs t) :=
  ⟨rfl, _, rfl, levelUnder?_verdictsJson vs t.name⟩

end

end MakeAtlas.Report
