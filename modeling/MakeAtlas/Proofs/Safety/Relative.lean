/-
Removing what lies below the current directory is not what the rule for forced removal is about. Such a line has the
word `rm`, options behind a dash, and then only words that begin with a word character; the rule asks for more than
that.
- `RemovesBelow`: a line with these words, whatever blanks are between them and at the ends.
- `not_removes_of_below`: behind the options the rule wants a slash, a dollar sign, a tilde or a star at the beginning
  of a word.
- `not_root_of_below`: or a command in front of `rm`, so that the options were the third word.
- `firstMatch_of_below`: the rule does not match, not in one line nor in a recipe of such lines.
Witness: two lines whose arguments have all that the rule looks for, at other places.
-/
import MakeAtlas.Proofs.Safety.Removal
import MakeAtlas.Proofs.Text.Fields

namespace MakeAtlas.Safety

open Pattern (Single)
open Text (isBlank isWordChar fields fields_append_cons_of_blank fields_cons_of_ink fields_ne_nil)

/-- the words of the line are `rm`, one that begins with a dash, and others that begin with word characters -/
def RemovesBelow (line : String) : Prop :=
  ∃ options args, fields line.toList = "rm".toList :: ('-' :: options) :: args ∧
  ∀ arg ∈ args, ∃ c ∈ arg.head?, isWordChar c.toNat = true

section

variable {line : String} {word front rest : List Char} {c : Char} {ws : List (List Char)}

theorem removesBelow_of_fields (options : List Char) (args : List (List Char))
    (hfields : fields line.toList = "rm".toList :: ('-' :: options) :: args)
    (hargs : (args.all fun arg => arg.head?.any fun c => isWordChar c.toNat) = true) : RemovesBelow line :=
  ⟨options, args, hfields, fun arg harg => (Option.any_eq_true _ _).1 (List.all_eq_true.1 hargs arg harg)⟩

/-- no word of such a line begins with anything else -/
theorem RemovesBelow.head (h : RemovesBelow line) {w : List Char} (hw : c :: w ∈ fields line.toList) :
    c = 'r' ∨ c = '-' ∨ isWordChar c.toNat = true := by
  obtain ⟨options, args, hfields, hargs⟩ := h
  rw [hfields] at hw
  rcases List.mem_cons.1 hw with hw | hw
  · exact .inl (List.cons.inj hw).1
  rcases List.mem_cons.1 hw with hw | hw
  · exact .inr (.inl (List.cons.inj hw).1)
  · obtain ⟨d, hd, hword⟩ := hargs _ hw
    obtain rfl := Option.some.inj hd
    exact .inr (.inr hword)

/-- no word behind the options begins with a dash -/
theorem RemovesBelow.fields_ne (h : RemovesBelow line) {vs : List (List Char)} (hvs : 2 ≤ vs.length) (w : List Char)
    (ws : List (List Char)) : fields line.toList ≠ vs ++ ('-' :: w) :: ws := by
  intro heq
  obtain ⟨options, args, hfields, hargs⟩ := h
  have harg : '-' :: w ∈ args := by
    have hdrop : args = (fields line.toList).drop 2 := by rw [hfields]; rfl
    rw [hdrop, heq, List.drop_append_of_le_length hvs]
    exact List.mem_append_right _ List.mem_cons_self
  obtain ⟨c, hc, hword⟩ := hargs _ harg
  obtain rfl := Option.some.inj hc
  revert hword
  decide +kernel

/-- the beginnings of what a forced removal is about -/
theorem exists_head_of_aim {aim : List Single} (haim : aim ∈ aims) {tail : List Char} (h : tail ∈ fits aim) :
    ∃ c cs, tail = c :: cs ∧ c ∈ ['/', '$', '~', '*'] := by
  simp only [aims, List.mem_cons, List.not_mem_nil, or_false] at haim
  rcases haim with rfl | rfl | rfl | rfl
  · obtain ⟨c, rfl, -⟩ := mem_fits_pathAim_iff.1 h
    exact ⟨'/', [c], rfl, by simp⟩
  all_goals
    obtain rfl := mem_fits_codes_iff.1 h
    exact ⟨_, _, rfl, by decide⟩

theorem not_removes_of_below (h : RemovesBelow line) {aim : List Single} (haim : aim ∈ aims)
    (hword : word ∈ removes aim) :
    line.toList ≠ front ++ word ++ rest := by
  intro hline
  obtain ⟨u, b, tail, rfl, hb, htail⟩ := exists_aim_of_removes hword
  obtain ⟨c, cs, rfl, hc⟩ := exists_head_of_aim haim htail
  have hother : isBlank c = false ∧ c ≠ 'r' ∧ c ≠ '-' ∧ isWordChar c.toNat = false := by
    simp only [List.mem_cons, List.not_mem_nil, or_false] at hc
    rcases hc with rfl | rfl | rfl | rfl <;> decide +kernel
  obtain ⟨hink, hr, hdash, hno⟩ := hother
  have hsplit : line.toList = (front ++ u) ++ b :: (c :: (cs ++ rest)) := by simp [hline]
  have hfield : c :: (cs ++ rest).takeWhile Text.isInk ∈ fields line.toList := by
    rw [hsplit, fields_append_cons_of_blank hb, fields_cons_of_ink hink]
    exact List.mem_append_right _ List.mem_cons_self
  rcases h.head hfield with heq | heq | hyes
  · exact hr heq
  · exact hdash heq
  · rw [hno] at hyes
    cases hyes

theorem not_root_of_below (h : RemovesBelow line) (hword : word ∈ removesAsRoot) :
    line.toList ≠ front ++ word ++ rest := by
  intro hline
  obtain ⟨gap, hgap, gap', hgap', run, -, rfl⟩ := exists_words_of_root hword
  obtain ⟨u, b, rfl, hb⟩ := endsBlank_gaps gap hgap
  obtain ⟨u', b', rfl, hb'⟩ := endsBlank_gaps gap' hgap'
  have hsplit : line.toList = (front ++ "sudo".toList ++ u) ++ b ::
    (("rm".toList ++ u') ++ b' :: ('-' :: (run ++ "rf".toList ++ rest))) := by
    simp [hline]
  have hsudo : fields (front ++ "sudo".toList ++ u) ≠ [] := fields_ne_nil (c := 's') (by decide) (by simp)
  have hrm : fields ("rm".toList ++ u') ≠ [] := fields_ne_nil (c := 'r') (by decide) (by simp)
  have hlen : 2 ≤ (fields (front ++ "sudo".toList ++ u) ++ fields ("rm".toList ++ u')).length := by
    have hpos := List.length_pos_iff.2 hsudo
    have hpos' := List.length_pos_iff.2 hrm
    rw [List.length_append]
    omega
  have hfields := congrArg fields hsplit
  rw [fields_append_cons_of_blank hb, fields_append_cons_of_blank hb', fields_cons_of_ink (by decide),
    ← List.append_assoc] at hfields
  exact h.fields_ne hlen _ _ hfields

theorem RemovesBelow.not_hits [Pattern.Dialect] (h : RemovesBelow line) : removal.hits line = false := by
  rw [← Bool.not_eq_true, hits_removal_iff]
  rintro ⟨word, hword, front, rest, hline⟩
  rcases hword with hroot | ⟨aim, haim, hword⟩
  · exact not_root_of_below h hroot hline.symm
  · exact not_removes_of_below h haim hword hline.symm

/-- **What lies below is let pass.** -/
theorem firstMatch_of_below [Pattern.Dialect] {recipe : List String} (h : ∀ line ∈ recipe, RemovesBelow line) :
    ∃ r k, catalogRule? "rm-rf-root" = some r ∧ r.compile = .ok k ∧ k.firstMatch recipe = none := by
  have hmem : removal ∈ catalog := by decide +kernel
  have hcompile : removal.compile = .ok ⟨removal, removal.readable⟩ := by
    rw [Rule.compile_eq, Rule.bad?_eq_none_iff.2 (isSome_compile_catalog removal hmem)]
  refine ⟨removal, ⟨removal, removal.readable⟩, by decide +kernel, hcompile, List.find?_eq_none.2 fun line hline => ?_⟩
  rw [matchesLine_of_compile hcompile, (h line hline).not_hits]
  exact Bool.false_ne_true

/-- arguments with `rm`, `sudo`, dashes, slashes, stars and tildes in them, and blanks of all kinds -/
theorem firstMatch_of_below_farm :
    (∀ line ∈ ["rm -rf build/ out/x.o", "\trm\t-rf farm sudo rm2/-rf~ a/*  é$HOME "], RemovesBelow line) ∧
    ∃ r k, catalogRule? "rm-rf-root" = some r ∧ r.compile = .ok k ∧
      k.firstMatch ["rm -rf build/ out/x.o", "\trm\t-rf farm sudo rm2/-rf~ a/*  é$HOME "] = none := by
  have hlines : ∀ line ∈ ["rm -rf build/ out/x.o", "\trm\t-rf farm sudo rm2/-rf~ a/*  é$HOME "], RemovesBelow line := by
    refine List.forall_mem_cons.2 ⟨?_, List.forall_mem_singleton.2 ?_⟩
    · exact removesBelow_of_fields "rf".toList ["build/".toList, "out/x.o".toList] (by decide +kernel)
        (by decide +kernel)
    · exact removesBelow_of_fields "rf".toList
        ["farm".toList, "sudo".toList, "rm2/-rf~".toList, "a/*".toList, "é$HOME".toList] (by decide +kernel)
          (by decide +kernel)
  exact ⟨hlines, firstMatch_of_below hlines⟩

end

end MakeAtlas.Safety
