/-
Settings in layers. A layer may be missing; the others are laid over one another, from the lowest. What comes out is
read off the layers alone: one value of each kind comes from the uppermost layer that gives it, and the lists of all
layers follow one another.
- `Combines`: what settings owe to the layers under them.
- `Combines.merge`: one more layer keeps it.
- `combines_overlay`: so any number of layers has it.
Witness: `house` and `shop`, with a missing layer below each; what the lower one gives and the upper one does not is
kept.
-/
import Mathlib.Data.List.ReduceOption
import Mathlib.Tactic
import MakeAtlas.Proofs.FirstOccurrence
import MakeAtlas.Settings.Basic

namespace MakeAtlas.Settings

/-! ## What comes out -/

/-- layers laid over one another, from the lowest -/
def overlay (layers : List (Option Settings)) : Option Settings :=
  layers.foldl (fun lower upper => some (merge lower upper)) none

def uppermost? {α : Type} (given : Settings → Option α) (layers : List Settings) : Option α :=
  (layers.filterMap given).getLast?

/-- what settings owe to layers, from the lowest; no name counts twice in a list of names -/
structure Combines (layers : List Settings) (s : Settings) : Prop where
  makefile : s.makefileName = (uppermost? (·.makefile) layers).getD "Makefile"
  enabled : s.policy.enabled = (uppermost? (·.checks.enabled) layers).getD true
  enabledRules : s.policy.enabledRules.eraseDups = (layers.flatMap (·.policy.enabledRules)).eraseDups
  excludedTargets : s.policy.excludedTargets.eraseDups = (layers.flatMap (·.policy.excludedTargets)).eraseDups
  /-- custom rules are kept as they are given, and as often -/
  customRules : s.checks.customRules.getD [] = layers.flatMap (·.checks.customRules.getD [])

section

variable {α : Type} {layers : List Settings} {lower upper : Settings}

theorem uppermost?_singleton (given : Settings → Option α) (s : Settings) : uppermost? given [s] = given s := by
  cases hgiven : given s <;> simp [uppermost?, hgiven]

theorem uppermost?_concat (given : Settings → Option α) (layers : List Settings) (upper : Settings) :
    uppermost? given (layers ++ [upper]) = (given upper).or (uppermost? given layers) := by
  cases hgiven : given upper <;> simp [uppermost?, hgiven]

/-! ## One layer more -/

theorem combines_nil : Combines [] {} := ⟨rfl, rfl, rfl, rfl, rfl⟩

theorem combines_singleton (s : Settings) : Combines [s] s where
  makefile := by rw [uppermost?_singleton, makefileName]
  enabled := by rw [uppermost?_singleton]; rfl
  enabledRules := by rw [List.flatMap_singleton]
  excludedTargets := by rw [List.flatMap_singleton]
  customRules := by rw [List.flatMap_singleton]

/-- names of the lower layers, with those of one more layer, each once -/
theorem eraseDups_union {xs : List String} {given : Settings → List String}
    (h : xs.eraseDups = (layers.flatMap given).eraseDups) (upper : Settings) :
    (union xs (given upper)).eraseDups = ((layers ++ [upper]).flatMap given).eraseDups := by
  rw [union, eraseDups_eraseDups, List.flatMap_append, List.flatMap_singleton]
  exact eraseDups_append_congr h _

-- what is laid under another layer gives a value of each kind, and none of them is taken for one that the upper layer
-- gives
theorem Combines.onto (h : Combines layers lower) (upper : Settings) :
    Combines (layers ++ [upper]) (upper.onto lower) where
  makefile := by
    have hlower : (upper.onto lower).makefileName = upper.makefile.getD lower.makefileName := rfl
    rw [hlower, h.makefile, uppermost?_concat]
    cases upper.makefile <;> rfl
  enabled := by
    have hlower : (upper.onto lower).policy.enabled = upper.checks.enabled.getD lower.policy.enabled := rfl
    rw [hlower, h.enabled, uppermost?_concat]
    cases upper.checks.enabled <;> rfl
  enabledRules := eraseDups_union h.enabledRules upper
  excludedTargets := eraseDups_union h.excludedTargets upper
  customRules := by
    rw [List.flatMap_append, List.flatMap_singleton, ← h.customRules]
    rfl

theorem Combines.merge (h : Combines layers lower) (upper : Option Settings) :
    Combines (layers ++ upper.toList) (merge (some lower) upper) := by
  cases upper with
  | none => rwa [Option.toList_none, List.append_nil]
  | some upper => exact h.onto upper

theorem combines_merge_none (layer : Option Settings) : Combines layer.toList (merge none layer) := by
  cases layer with
  | none => exact combines_nil
  | some s => exact combines_singleton s

end

/-! ## Any number of layers -/

theorem overlay_concat (layers : List (Option Settings)) (upper : Option Settings) :
    overlay (layers ++ [upper]) = some (merge (overlay layers) upper) := by
  rw [overlay, List.foldl_append]
  rfl

/-- **Layers combine.** Any layers but none at all make settings, which owe to each layer just what it gives. -/
theorem combines_overlay {layers : List (Option Settings)} (hne : layers ≠ []) :
    ∃ s, overlay layers = some s ∧ Combines layers.reduceOption s := by
  induction layers using List.reverseRecOn with
  | nil => exact absurd rfl hne
  | append_singleton layers upper ih =>
    refine ⟨_, overlay_concat layers upper, ?_⟩
    rw [List.reduceOption_append, List.reduceOption_singleton]
    cases layers with
    | nil => exact combines_merge_none upper
    | cons layer layers =>
      obtain ⟨lower, hlower, hcombines⟩ := ih (List.cons_ne_nil _ _)
      rw [hlower]
      exact hcombines.merge upper

/-- a layer with a makefile, a list that repeats a name, and a custom rule -/
def house : Settings :=
  { makefile := some "GNUmakefile"
    safety := some { enabled := some false, enabledRules := some ["rm-rf-root", "rm-rf-root"],
                     customRules := some [{ id := "deploy" }] } }

/-- a layer without a makefile, with the same rules in another order, and the same custom rule once more -/
def shop : Settings :=
  { safety := some { enabled := some true, enabledRules := some ["disk-wipe", "rm-rf-root"],
                     excludedTargets := some ["clean"],
                     customRules := some [{ id := "deploy" }] } }

/-- the makefile is that of the lower layer, and checks are on because of the upper one -/
theorem combines_overlay_shop : ∃ s, overlay [none, some house, none, some shop] = some s ∧ Combines [house, shop] s ∧
    s.makefileName = "GNUmakefile" ∧ s.policy.enabled = true ∧
    s.policy.enabledRules.eraseDups = ["rm-rf-root", "disk-wipe"] ∧
    s.policy.excludedTargets.eraseDups = ["clean"] ∧
    s.checks.customRules = some [{ id := "deploy" }, { id := "deploy" }] := by
  have hne : [none, some house, none, some shop] ≠ [] := by simp
  obtain ⟨s, hs, hcombines⟩ := combines_overlay hne
  have hlast : s.checks.customRules = some [{ id := "deploy" }, { id := "deploy" }] := by
    cases hs
    rfl
  exact ⟨s, hs, hcombines, hcombines.makefile, hcombines.enabled, hcombines.enabledRules,
    hcombines.excludedTargets, hlast⟩

end MakeAtlas.Settings
