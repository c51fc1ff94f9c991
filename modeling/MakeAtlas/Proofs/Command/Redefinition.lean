/-
Targets that are defined more than once. The last target of a name counts, for the checks as for the graph; and the
names of dangerous targets stand in the order in which their last definitions became dangerous, whatever stands between
them.
- `value?_enter`, `value?_checkAll`: the verdict under a name, after one target more and after all of them.
- `finalRun_concat`: one target more begins the final run of its name, goes on with it, or ends it.
- `existsUnique_finalRun`: a name whose last target is dangerous has one final run.
- `order_enter`: one target more keeps the names in the order of their final runs.
- `roster_checkAll`: names, verdicts and order after all targets, and the nodes of the graph beside them.
-/
import MakeAtlas.Proofs.Graph.Faithful
import MakeAtlas.Safety.Checker

namespace MakeAtlas.Command

open Makefile (Target)
open Safety (Checker Verdict)

/-! ## Verdicts by name -/

def lastNamed? (name : String) (ts : List Target) : Option Target := ts.reverse.find? (·.name == name)

section

variable {c : Checker} {name : String}

theorem lastNamed?_concat (name : String) (ts : List Target) (t : Target) :
    lastNamed? name (ts ++ [t]) = if t.name = name then some t else lastNamed? name ts := by
  rw [lastNamed?, List.reverse_append, List.reverse_singleton, List.singleton_append, List.find?_cons, lastNamed?]
  by_cases hname : t.name = name
  · simp [hname]
  · simp [hname, beq_false_of_ne hname]

theorem lastNamed?_eq_some {ts : List Target} {t : Target} (h : lastNamed? name ts = some t) : t ∈ ts ∧ t.name = name :=
  ⟨List.mem_reverse.1 (List.mem_of_find?_eq_some h), by simpa using List.find?_some h⟩

/-- a target puts its own verdict in place of the one of its name, or leaves none there -/
theorem value?_enter (c : Checker) (es : Entries Verdict) (t : Target) (name : String) :
    (c.enter es t).value? name = if name = t.name then c.check t else es.value? name := by
  rw [Checker.enter]
  cases hcheck : c.check t with
  | none => exact Entries.value?_erase t.name es name
  | some v => exact Entries.value?_put t.name v es name

theorem checkAll_concat (c : Checker) (ts : List Target) (t : Target) :
    c.checkAll (ts ++ [t]) = c.enter (c.checkAll ts) t := by
  rw [Checker.checkAll, List.foldl_append]
  rfl

/-- **The last target of a name counts.** -/
theorem value?_checkAll (ts : List Target) : (c.checkAll ts).value? name = (lastNamed? name ts).bind c.check := by
  induction ts using List.reverseRecOn with
  | nil => rfl
  | append_singleton ts t ih =>
    rw [checkAll_concat, value?_enter, lastNamed?_concat, ih]
    by_cases hname : t.name = name
    · simp [hname]
    · simp [hname, Ne.symm hname]

theorem value?_checkAll_of_last {ts : List Target} {t : Target} (h : lastNamed? name ts = some t) :
    (c.checkAll ts).value? name = c.check t := by
  rw [value?_checkAll, h, Option.bind_some]

theorem mem_keys_checkAll {ts : List Target} : name ∈ (c.checkAll ts).keys ↔
    ((lastNamed? name ts).bind c.check).isSome := by
  rw [Entries.mem_keys_iff, value?_checkAll]

end

/-! ## Final runs -/

/-- the targets of a name are dangerous from this place to the end, and not before it; what stands between them does not
matter -/
structure FinalRun (c : Checker) (ts : List Target) (name : String) (i : ℕ) : Prop where
  /-- a target of the name is at this place -/
  first : ∃ t, ts[i]? = some t ∧ t.name = name
  dangerous : ∀ t ∈ ts.drop i, t.name = name → (c.check t).isSome
  /-- the last target of the name before this place, if there is one, is not dangerous -/
  before : (lastNamed? name (ts.take i)).bind c.check = none

section

variable {c : Checker} {ts : List Target} {name : String} {i j : ℕ}

theorem FinalRun.lt_length (h : FinalRun c ts name i) : i < ts.length := by
  obtain ⟨t, ht, -⟩ := h.first
  exact (List.getElem?_eq_some_iff.1 ht).1

/-- one target more -/
theorem finalRun_concat (t : Target) : FinalRun c (ts ++ [t]) name i ↔ (t.name = name → (c.check t).isSome) ∧
    (FinalRun c ts name i ∨ i = ts.length ∧ t.name = name ∧ (lastNamed? name ts).bind c.check = none) := by
  rcases lt_trichotomy i ts.length with hlt | rfl | hgt
  · -- the place is among the earlier targets
    have hother : ¬ (i = ts.length ∧ t.name = name ∧ (lastNamed? name ts).bind c.check = none) := fun h => hlt.ne h.1
    rw [or_iff_left hother]
    constructor
    · intro h
      obtain ⟨hfirst, hdangerous, hbefore⟩ := h
      rw [List.getElem?_append_left hlt] at hfirst
      rw [List.drop_append_of_le_length hlt.le] at hdangerous
      rw [List.take_append_of_le_length hlt.le] at hbefore
      exact ⟨hdangerous t (by simp), hfirst, fun u hu => hdangerous u (List.mem_append_left _ hu), hbefore⟩
    · intro h
      obtain ⟨ht, hfirst, hdangerous, hbefore⟩ := h
      refine ⟨?_, ?_, ?_⟩
      · rwa [List.getElem?_append_left hlt]
      · rw [List.drop_append_of_le_length hlt.le]
        intro u hu
        rcases List.mem_append.1 hu with hu | hu
        · exact hdangerous u hu
        · rw [List.mem_singleton.1 hu]
          exact ht
      · rwa [List.take_append_of_le_length hlt.le]
  · -- the place is that of the new target
    have hother : ¬ FinalRun c ts name ts.length := fun h => lt_irrefl _ h.lt_length
    rw [or_iff_right hother, and_iff_right rfl]
    constructor
    · intro h
      obtain ⟨⟨u, hu, hname⟩, hdangerous, hbefore⟩ := h
      rw [List.getElem?_concat_length, Option.some.injEq] at hu
      rw [List.drop_left] at hdangerous
      rw [List.take_left] at hbefore
      exact ⟨hdangerous t (by simp), hu ▸ hname, hbefore⟩
    · intro h
      obtain ⟨ht, hname, hbefore⟩ := h
      refine ⟨⟨t, List.getElem?_concat_length, hname⟩, ?_, ?_⟩
      · rw [List.drop_left]
        intro u hu
        rw [List.mem_singleton.1 hu]
        exact ht
      · rwa [List.take_left]
  · -- there is no such place
    have hlen : ∀ {us : List Target}, us.length ≤ i → ¬ FinalRun c us name i := fun hle h => hle.not_gt h.lt_length
    have hconcat : (ts ++ [t]).length ≤ i := by
      rw [List.length_append]
      exact hgt
    exact iff_of_false (hlen hconcat) fun h => h.2.elim (hlen hgt.le) fun hnew => hgt.ne' hnew.1

/-- a name with a final run has a dangerous last target -/
theorem FinalRun.dangerous_last (h : FinalRun c ts name i) : ((lastNamed? name ts).bind c.check).isSome := by
  induction ts using List.reverseRecOn with
  | nil => exact absurd h.lt_length (Nat.not_lt_zero i)
  | append_singleton ts t ih =>
    obtain ⟨ht, hrun⟩ := (finalRun_concat t).1 h
    rw [lastNamed?_concat]
    split_ifs with hname
    · exact ht hname
    · exact hrun.elim ih fun hnew => absurd hnew.2.1 hname

/-- a name whose last target is dangerous has one final run -/
theorem existsUnique_finalRun (h : ((lastNamed? name ts).bind c.check).isSome) : ∃! i, FinalRun c ts name i := by
  induction ts using List.reverseRecOn with
  | nil => cases h
  | append_singleton ts t ih =>
    rw [lastNamed?_concat] at h
    have ht : t.name = name → (c.check t).isSome := by
      intro hname
      rwa [if_pos hname] at h
    simp only [finalRun_concat, and_iff_right ht]
    cases hlast : (lastNamed? name ts).bind c.check with
    | some v =>
      simpa using ih (by rw [hlast]; rfl)
    | none =>
      have hno : ∀ i, ¬ FinalRun c ts name i := by
        intro i hrun
        have hsome := hrun.dangerous_last
        rw [hlast] at hsome
        cases hsome
      have hname : t.name = name := by
        by_contra hother
        rw [if_neg hother, hlast] at h
        cases h
      simp [hno, hname]

/-! ## Order -/

/-- the final run of `a` begins before that of `b` -/
def RunsBefore (c : Checker) (ts : List Target) (a b : String) : Prop :=
  ∀ i j, FinalRun c ts a i → FinalRun c ts b j → i < j

/-- a name that has a verdict does not begin a new run -/
theorem FinalRun.of_concat {t : Target} (hname : name ∈ (c.checkAll ts).keys) (h : FinalRun c (ts ++ [t]) name i) :
    FinalRun c ts name i := by
  refine ((finalRun_concat t).1 h).2.elim id fun hnew => ?_
  rw [mem_keys_checkAll, hnew.2.2] at hname
  cases hname

theorem RunsBefore.concat {a b : String} (ha : a ∈ (c.checkAll ts).keys) (hb : b ∈ (c.checkAll ts).keys)
    (h : RunsBefore c ts a b) (t : Target) : RunsBefore c (ts ++ [t]) a b :=
  fun i j hi hj => h i j (hi.of_concat ha) (hj.of_concat hb)

/-- a name that has no verdict begins a new run behind all others -/
theorem runsBefore_of_not_mem {a : String} {t : Target} (ha : a ∈ (c.checkAll ts).keys)
    (ht : t.name ∉ (c.checkAll ts).keys) :
    RunsBefore c (ts ++ [t]) a t.name := by
  intro i j hi hj
  have hlt : i < ts.length := (hi.of_concat ha).lt_length
  rcases ((finalRun_concat t).1 hj).2 with hold | hnew
  · exact absurd (mem_keys_checkAll.2 hold.dangerous_last) ht
  · rwa [hnew.1]

/-- names without repetition, in the order of their final runs -/
structure Ordered (c : Checker) (ts : List Target) (names : List String) : Prop where
  nodup : names.Nodup
  order : names.Pairwise (RunsBefore c ts)

theorem order_enter (h : Ordered c ts (c.checkAll ts).keys) (t : Target) :
    Ordered c (ts ++ [t]) (c.enter (c.checkAll ts) t).keys := by
  have hkept : (c.checkAll ts).keys.Pairwise (RunsBefore c (ts ++ [t])) :=
    h.order.imp_of_mem fun ha hb hab => hab.concat ha hb t
  rw [Checker.enter]
  cases c.check t with
  | none =>
    rw [Entries.keys_erase]
    exact ⟨h.nodup.filter _, hkept.filter _⟩
  | some v =>
    rw [Entries.keys_put]
    split_ifs with hname
    · exact ⟨h.nodup, hkept⟩
    · refine ⟨List.nodup_append.2 ⟨h.nodup, List.nodup_singleton _, ?_⟩,
        List.pairwise_append.2 ⟨hkept, List.pairwise_singleton _ _, ?_⟩⟩
      · intro a ha b hb hab
        rw [List.mem_singleton.1 hb] at hab
        exact hname (hab ▸ ha)
      · intro a ha b hb
        rw [List.mem_singleton.1 hb]
        exact runsBefore_of_not_mem ha hname

theorem ordered_checkAll (c : Checker) (ts : List Target) : Ordered c ts (c.checkAll ts).keys := by
  induction ts using List.reverseRecOn with
  | nil => exact ⟨List.nodup_nil, List.Pairwise.nil⟩
  | append_singleton ts t ih =>
    rw [checkAll_concat]
    exact order_enter ih t

end

/-! ## All targets -/

/-- the verdicts on targets, some of which may be defined more than once -/
structure Roster (c : Checker) (ts : List Target) (es : Entries Verdict) : Prop where
  /-- a name stands there when its last target is dangerous -/
  keys : ∀ name, name ∈ es.keys ↔ ∃ t v, lastNamed? name ts = some t ∧ c.check t = some v
  value : ∀ name t, lastNamed? name ts = some t → es.value? name = c.check t
  run : ∀ name ∈ es.keys, ∃! i, FinalRun c ts name i
  /-- it stands there once, at the place that its final run has among the final runs of all names -/
  ordered : Ordered c ts es.keys
  /-- a node of the graph with a target behind it shows the target that was judged; the others have no verdict -/
  nodes : ∀ n ∈ (Graph.build ts).nodes,
    (∃ t, lastNamed? n.name ts = some t ∧ es.value? n.name = c.check t ∧ n.kind = .real ∧
      n.description = t.description ∧
      n.dependencies = t.dependencies.eraseDups) ∨ n.kind = .placeholder ∧ n.name ∉ es.keys
  /-- every name with a verdict has such a node -/
  names : ∀ name ∈ es.keys, name ∈ (Graph.build ts).names

/-- **Each name has the verdict on its last target**, in the order of the final runs, and the graph shows the same
targets. -/
theorem roster_checkAll (c : Checker) (ts : List Target) : Roster c ts (c.checkAll ts) := by
  have hfaithful := Graph.Faithful.build ts
  refine ⟨?_, fun name t => value?_checkAll_of_last, ?_, ordered_checkAll c ts, ?_, ?_⟩
  · intro name
    rw [mem_keys_checkAll, Option.isSome_iff_exists]
    simp only [Option.bind_eq_some_iff]
    exact exists_comm
  · intro name hname
    exact existsUnique_finalRun (mem_keys_checkAll.1 hname)
  · intro n hn
    cases hlast : lastNamed? n.name ts with
    | some t => exact .inl ⟨t, rfl, value?_checkAll_of_last hlast, hfaithful.real n hn t hlast⟩
    | none =>
      refine .inr ⟨(hfaithful.standIn n hn hlast).1, fun hname => ?_⟩
      rw [mem_keys_checkAll, hlast] at hname
      cases hname
  · intro name hname
    rw [mem_keys_checkAll, Option.isSome_iff_exists] at hname
    obtain ⟨v, hv⟩ := hname
    obtain ⟨t, ht, -⟩ := Option.bind_eq_some_iff.1 hv
    obtain ⟨hmem, rfl⟩ := lastNamed?_eq_some ht
    rw [hfaithful.names, Graph.definedNames, List.mem_append, List.mem_eraseDups]
    exact .inl (List.mem_map_of_mem hmem)

-- a harmless definition takes `a` out, and the dangerous one after it puts it behind `b`
example : (({ active := [⟨{ id := "rm" }, [Safety.Context.literal "rm"]⟩] } : Checker).checkAll
    [{ name := "a", recipe := ["rm x"] }, { name := "b", recipe := ["rm x"] }, { name := "a" },
      { name := "a", recipe := ["rm y"] }]).keys = ["b", "a"] := by decide +kernel

end MakeAtlas.Command
