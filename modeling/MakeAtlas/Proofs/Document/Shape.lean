/-
Replacing the variables of a document, as a whole. A document is its shape, which is all that holds something further,
with the keys, and its leaves in a row. Replacing keeps the shape and touches no leaf but the texts.
- `shape`, `append_leaves_injective`: the shape and the leaves make up the document.
- `Becomes`, `expand_eq_ok`: what a leaf becomes when its variables are replaced, and what a document becomes.
- `expandMapping_eq_ok_iff`: with room for every part, entries become those of the same shape with such leaves, and no
  others.
- `expandMapping_eq_error_iff`: the fault is that of the first part that fails.
- `expandMapping_eq_error_iff_of_room`: with room for every part, it is that of the first text that has one.
- `replaces_expandMapping`: all three, for any entries and any room.
Witness: a list of rules, in which a later text would fail too. Counterexample `lone_half_escapes`: a name that cannot
be written in bytes.
-/
import MakeAtlas.Machine
import MakeAtlas.Proofs.Document.Leaves

namespace MakeAtlas.Document

/-! ## Shapes -/

mutual

/-- the document without its leaves: what holds something further, and the keys -/
def shape : Document → Document
  | list xs => list (shapeOfItems xs)
  | mapping es => mapping (shapeOfEntries es)
  | _ => null

def shapeOfItems : List Document → List Document
  | [] => []
  | d :: ds => shape d :: shapeOfItems ds

/-- the keys as they are, each with the shape of its value -/
def shapeOfEntries : List (Document × Document) → List (Document × Document)
  | [] => []
  | (k, d) :: es => (k, shape d) :: shapeOfEntries es

end

section

variable {d d' : Document} {ds ds' : List Document}

theorem leaves_of_shape_eq_null (h : d.shape = null) : d.leaves = [d] := by
  cases d <;> simp_all [shape, leaves]

theorem append_leaf_injective (hleaf : d.shape = null) (hshape : d.shape = d'.shape)
    (hleaves : d.leaves ++ ds = d'.leaves ++ ds') :
    d = d' ∧ ds = ds' := by
  rw [leaves_of_shape_eq_null hleaf, leaves_of_shape_eq_null (hshape ▸ hleaf)] at hleaves
  exact List.cons.inj hleaves

end

mutual

/-- **The shape and the leaves make up the document.** Among documents of one shape, the leaves in front of a row tell
which it is. -/
theorem append_leaves_injective : ∀ (d d' : Document) (ds ds' : List Document), d.shape = d'.shape →
    d.leaves ++ ds = d'.leaves ++ ds' → d = d' ∧ ds = ds'
  | list xs => by
    intro d' ds ds' hshape hleaves
    cases d' with
    | list ys =>
      simp only [shape, list.injEq] at hshape
      simp only [leaves] at hleaves
      obtain ⟨rfl, hrest⟩ := append_leavesOfItems_injective _ _ _ _ hshape hleaves
      exact ⟨rfl, hrest⟩
    | _ => simp [shape] at hshape
  | mapping es => by
    intro d' ds ds' hshape hleaves
    cases d' with
    | mapping fs =>
      simp only [shape, mapping.injEq] at hshape
      simp only [leaves] at hleaves
      obtain ⟨rfl, hrest⟩ := append_leavesOfEntries_injective _ _ _ _ hshape hleaves
      exact ⟨rfl, hrest⟩
    | _ => simp [shape] at hshape
  | text _ | null | bool _ | int _ | decimal _ | bytes _ | date _ | pairs _ | set _ | endless =>
    fun _ _ _ => append_leaf_injective (by simp [shape])

theorem append_leavesOfItems_injective : ∀ xs ys ds ds' : List Document, shapeOfItems xs = shapeOfItems ys →
    leavesOfItems xs ++ ds = leavesOfItems ys ++ ds' → xs = ys ∧ ds = ds'
  | [] => by
    intro ys ds ds' hshape hleaves
    cases ys with
    | nil => exact ⟨rfl, hleaves⟩
    | cons y ys => simp [shapeOfItems] at hshape
  | x :: xs => by
    intro ys ds ds' hshape hleaves
    cases ys with
    | nil => simp [shapeOfItems] at hshape
    | cons y ys =>
      simp only [shapeOfItems, List.cons.injEq] at hshape
      simp only [leavesOfItems, List.append_assoc] at hleaves
      obtain ⟨rfl, hlater⟩ := append_leaves_injective _ _ _ _ hshape.1 hleaves
      obtain ⟨rfl, hrest⟩ := append_leavesOfItems_injective _ _ _ _ hshape.2 hlater
      exact ⟨rfl, hrest⟩

theorem append_leavesOfEntries_injective : ∀ (es fs : List (Document × Document)) (ds ds' : List Document),
    shapeOfEntries es = shapeOfEntries fs → leavesOfEntries es ++ ds = leavesOfEntries fs ++ ds' →
      es = fs ∧ ds = ds'
  | [] => by
    intro fs ds ds' hshape hleaves
    cases fs with
    | nil => exact ⟨rfl, hleaves⟩
    | cons f fs => simp [shapeOfEntries] at hshape
  | (k, d) :: es => by
    intro fs ds ds' hshape hleaves
    cases fs with
    | nil => simp [shapeOfEntries] at hshape
    | cons f fs =>
      simp only [shapeOfEntries, List.cons.injEq, Prod.mk.injEq] at hshape
      obtain ⟨⟨rfl, hd⟩, hes⟩ := hshape
      simp only [leavesOfEntries, List.append_assoc] at hleaves
      obtain ⟨rfl, hlater⟩ := append_leaves_injective _ _ _ _ hd hleaves
      obtain ⟨rfl, hrest⟩ := append_leavesOfEntries_injective _ _ _ _ hes hlater
      exact ⟨rfl, hrest⟩

end

theorem eq_of_shapeOfEntries {es fs : List (Document × Document)} (hshape : shapeOfEntries es = shapeOfEntries fs)
    (hleaves : leavesOfEntries es = leavesOfEntries fs) : es = fs :=
  (append_leavesOfEntries_injective _ _ _ _ hshape (congrArg (· ++ []) hleaves)).1

/-! ## What becomes of a document -/

/-- what becomes of a leaf: a text has its variables replaced, and anything else stays -/
inductive Becomes (env : Environment) : Document → Document → Prop where
  | text {s t : Points} (h : env.expand s = .ok t) : Becomes env (text s) (text t)
  | kept {d : Document} (htext : ∀ s, d ≠ text s) (hfinite : d ≠ endless) : Becomes env d d

section

variable {α β γ : Type} {calls : Calls} {env : Environment} {room : ℕ} {d d' d'' : Document}
  {es fs : List (Document × Document)}

theorem bind_eq_ok_iff {a : Except ExpandFault α} {g : α → β} {z : β} : (do return g (← a)) = .ok z ↔
    ∃ x, a = .ok x ∧ g x = z := by
  cases a <;> simp [bind, Except.bind, pure, Except.pure]

/-- two steps, one after the other -/
theorem bind_bind_eq_ok_iff {a : Except ExpandFault α} {b : Except ExpandFault β} {g : α → β → γ} {z : γ} :
    (do
      let x ← a
      return g x (← b)) = .ok z ↔ ∃ x y, a = .ok x ∧ b = .ok y ∧ g x y = z := by
  cases a <;> cases b <;> simp [bind, Except.bind, pure, Except.pure]

theorem enter_eq_ok {need : ℕ} {next : ℕ → Except ExpandFault α} {x : α} (h : Calls.enter room need next = .ok x) :
    next (room - need) = .ok x := by
  rw [Calls.enter] at h
  split at h
  · cases h
  · exact h

theorem Becomes.unique (h : Becomes env d d') (h' : Becomes env d d'') : d' = d'' := by
  cases h with
  | text h =>
    cases h' with
    | text h' =>
      rw [h, Except.ok.injEq] at h'
      rw [h']
    | kept htext => exact absurd rfl (htext _)
  | kept htext =>
    cases h' with
    | text => exact absurd rfl (htext _)
    | kept => rfl

theorem becomes_of_expand (hleaf : d.shape = null) (h : d.expand calls env room = .ok d') :
    d'.shape = null ∧ Becomes env d d' := by
  cases d with
  | list xs | mapping es => simp [shape] at hleaf
  | text s =>
    rw [expand] at h
    obtain ⟨t, ht, rfl⟩ := bind_eq_ok_iff.1 (enter_eq_ok h)
    exact ⟨by simp [shape], .text ht⟩
  | endless => simp [expand] at h
  | _ =>
    simp only [expand] at h
    have hd' := enter_eq_ok h
    obtain rfl := Except.ok.inj hd'
    exact ⟨by simp [shape], .kept (by simp) (by simp)⟩

theorem expand_leaf_eq_ok (hleaf : d.shape = null) (h : d.expand calls env room = .ok d') :
    d'.shape = d.shape ∧ List.Forall₂ (Becomes env) d.leaves d'.leaves := by
  obtain ⟨hleaf', hbecomes⟩ := becomes_of_expand hleaf h
  rw [leaves_of_shape_eq_null hleaf, leaves_of_shape_eq_null hleaf', hleaf, hleaf']
  exact ⟨rfl, .cons hbecomes .nil⟩

theorem unique_of_forall₂_becomes {ds ds' ds'' : List Document} (h : List.Forall₂ (Becomes env) ds ds')
    (h' : List.Forall₂ (Becomes env) ds ds'') : ds' = ds'' := by
  induction h generalizing ds'' with
  | nil => cases h'; rfl
  | cons hd _ ih =>
    cases h' with
    | cons hd' hds' => rw [hd.unique hd', ih hds']

end

mutual

/-- **What a document becomes.** It keeps its shape, and every leaf becomes what it becomes by itself. -/
theorem expand_eq_ok (calls : Calls) (env : Environment) : ∀ (room : ℕ) (d d' : Document),
    d.expand calls env room = .ok d' →
      d'.shape = d.shape ∧ List.Forall₂ (Becomes env) d.leaves d'.leaves
  | room, list xs => by
    intro d' h
    rw [expand] at h
    obtain ⟨ys, hys, rfl⟩ := bind_eq_ok_iff.1 (enter_eq_ok h)
    obtain ⟨hshape, hleaves⟩ := expandItems_eq_ok calls env _ xs ys hys
    exact ⟨by rw [shape, shape, hshape], by rwa [leaves, leaves]⟩
  | room, mapping es => by
    intro d' h
    rw [expand] at h
    obtain ⟨fs, hfs, rfl⟩ := bind_eq_ok_iff.1 (enter_eq_ok h)
    obtain ⟨hshape, hleaves⟩ := expandEntries_eq_ok calls env _ es fs hfs
    exact ⟨by rw [shape, shape, hshape], by rwa [leaves, leaves]⟩
  | room, text _ | room, null | room, bool _ | room, int _ | room, decimal _ | room, bytes _ | room, date _
  | room, pairs _ | room, set _ | room, endless => fun _ => expand_leaf_eq_ok (by simp [shape])

theorem expandItems_eq_ok (calls : Calls) (env : Environment) : ∀ (room : ℕ) (xs ys : List Document),
    expandItems calls env room xs = .ok ys →
      shapeOfItems ys = shapeOfItems xs ∧ List.Forall₂ (Becomes env) (leavesOfItems xs) (leavesOfItems ys)
  | _, [] => by
    intro ys h
    rw [expandItems, Except.ok.injEq] at h
    subst h
    exact ⟨rfl, .nil⟩
  | room, x :: xs => by
    intro ys h
    rw [expandItems, bind_bind_eq_ok_iff] at h
    obtain ⟨y, ys, hy, hys, rfl⟩ := h
    obtain ⟨hshape, hleaves⟩ := expand_eq_ok calls env room x y hy
    obtain ⟨hshapes, hlater⟩ := expandItems_eq_ok calls env room xs ys hys
    exact ⟨by rw [shapeOfItems, shapeOfItems, hshape, hshapes], List.rel_append hleaves hlater⟩

theorem expandEntries_eq_ok (calls : Calls) (env : Environment) : ∀ (room : ℕ) (es fs : List (Document × Document)),
    expandEntries calls env room es = .ok fs →
      shapeOfEntries fs = shapeOfEntries es ∧ List.Forall₂ (Becomes env) (leavesOfEntries es) (leavesOfEntries fs)
  | _, [] => by
    intro fs h
    rw [expandEntries, Except.ok.injEq] at h
    subst h
    exact ⟨rfl, .nil⟩
  | room, (k, d) :: es => by
    intro fs h
    rw [expandEntries, bind_bind_eq_ok_iff] at h
    obtain ⟨d', fs, hd, hfs, rfl⟩ := h
    obtain ⟨hshape, hleaves⟩ := expand_eq_ok calls env room d d' hd
    obtain ⟨hshapes, hlater⟩ := expandEntries_eq_ok calls env room es fs hfs
    exact ⟨by rw [shapeOfEntries, shapeOfEntries, hshape, hshapes], List.rel_append hleaves hlater⟩

end

/-! ## All entries -/

section

variable {calls : Calls} {env : Environment} {d d' : Document} {es fs : List (Document × Document)} {f : ExpandFault}

theorem fault?_of_becomes (h : Becomes env d d') : fault? env d = none := by
  cases h with
  | text h => rw [fault?, h, faultOf]
  | kept htext hfinite => cases d <;> simp_all [fault?]

theorem findSome?_of_forall₂_becomes {ds ds' : List Document} (h : List.Forall₂ (Becomes env) ds ds') :
    ds.findSome? (fault? env) = none := by
  induction h with
  | nil => rfl
  | cons hd _ ih => rw [List.findSome?_cons, fault?_of_becomes hd, ih]

theorem expandMapping_eq_error_iff : expandMapping calls env es = .error f ↔ ∃ before p after,
    partsOfMapping calls env es = before ++ p :: after ∧ (∀ q ∈ before, ∀ g, ¬ q.Fails env g) ∧ p.Fails env f := by
  rw [← faultOf_eq_some_iff, faultOf_expandMapping, List.findSome?_eq_some_iff]
  simp only [Part.fault?_eq_some_iff, Part.fault?_eq_none_iff, and_comm (a := Part.Fails _ _ _)]

theorem need_le_room (h : expandMapping calls env es = .ok fs) :
    ∀ p ∈ partsOfMapping calls env es, p.need ≤ p.room := by
  have hnone := faultOf_expandMapping calls env es
  rw [h, faultOf, eq_comm, List.findSome?_eq_none_iff] at hnone
  intro p hp
  exact Nat.not_lt.1 fun hshort => Part.fault?_eq_none_iff.1 (hnone p hp) _ (.noRoom hshort)

theorem expandMapping_eq_ok_iff : expandMapping calls env es = .ok fs ↔
    (∀ p ∈ partsOfMapping calls env es, p.need ≤ p.room) ∧
    shapeOfEntries fs = shapeOfEntries es ∧ List.Forall₂ (Becomes env) (leavesOfEntries es) (leavesOfEntries fs) := by
  constructor
  · intro h
    exact ⟨need_le_room h, expandEntries_eq_ok calls env _ es fs (enter_eq_ok h)⟩
  · rintro ⟨hroom, hshape, hleaves⟩
    have hnone := faultOf_expandMapping_of_room calls env hroom
    rw [findSome?_of_forall₂_becomes hleaves, faultOf_eq_none_iff] at hnone
    obtain ⟨gs, hgs⟩ := hnone
    obtain ⟨hshape', hleaves'⟩ := expandEntries_eq_ok calls env _ es gs (enter_eq_ok hgs)
    rw [hgs, eq_of_shapeOfEntries (hshape'.trans hshape.symm) (unique_of_forall₂_becomes hleaves' hleaves)]

theorem fault?_eq_some_iff (hfinite : d ≠ endless) : fault? env d = some f ↔ ∃ s, d = text s ∧
    env.expand s = .error f := by
  cases d <;> simp [fault?, faultOf_eq_some_iff] at hfinite ⊢

theorem fault?_eq_none_iff (hfinite : d ≠ endless) : fault? env d = none ↔ ∀ s, d = text s →
    ∃ t, env.expand s = .ok t := by
  cases d <;> simp [fault?, faultOf_eq_none_iff] at hfinite ⊢

theorem expandMapping_eq_error_iff_of_room (hroom : ∀ p ∈ partsOfMapping calls env es, p.need ≤ p.room)
    (hfinite : endless ∉ leavesOfEntries es) : expandMapping calls env es = .error f ↔ ∃ before s after,
      leavesOfEntries es = before ++ text s :: after ∧ (∀ t, text t ∈ before → ∃ u, env.expand t = .ok u) ∧
      env.expand s = .error f := by
  have hne : ∀ d ∈ leavesOfEntries es, d ≠ endless := fun d hd heq => hfinite (heq ▸ hd)
  rw [← faultOf_eq_some_iff, faultOf_expandMapping_of_room calls env hroom, List.findSome?_eq_some_iff]
  constructor
  · rintro ⟨before, d, after, hsplit, hd, hbefore⟩
    obtain ⟨s, rfl, hs⟩ := (fault?_eq_some_iff (hne d (by simp [hsplit]))).1 hd
    refine ⟨before, s, after, hsplit, fun t ht => ?_, hs⟩
    exact (fault?_eq_none_iff (by simp)).1 (hbefore _ ht) t rfl
  · rintro ⟨before, s, after, hsplit, hbefore, hs⟩
    refine ⟨before, text s, after, hsplit, (fault?_eq_some_iff (by simp)).2 ⟨s, rfl, hs⟩, fun d hd => ?_⟩
    refine (fault?_eq_none_iff (hne d (by simp [hsplit, hd]))).2 ?_
    rintro t rfl
    exact hbefore t hd

/-- **Replacing as a whole.** With room for every part, entries keep their shape, and each leaf becomes what it becomes
by itself. The fault is that of the first part that fails, from the outside in and from left to right; with room for
every part, and no value inside itself, that is the first text that has a fault. -/
theorem replaces_expandMapping (calls : Calls) (env : Environment) (es : List (Document × Document)) :
    (∀ fs, expandMapping calls env es = .ok fs ↔ (∀ p ∈ partsOfMapping calls env es, p.need ≤ p.room) ∧
      shapeOfEntries fs = shapeOfEntries es ∧ List.Forall₂ (Becomes env) (leavesOfEntries es) (leavesOfEntries fs)) ∧
    (∀ f, expandMapping calls env es = .error f ↔ ∃ before p after, partsOfMapping calls env es = before ++ p :: after ∧
      (∀ q ∈ before, ∀ g, ¬ q.Fails env g) ∧ p.Fails env f) ∧
    ((∀ p ∈ partsOfMapping calls env es, p.need ≤ p.room) → endless ∉ leavesOfEntries es →
      ∀ f, expandMapping calls env es = .error f ↔ ∃ before s after, leavesOfEntries es = before ++ text s :: after ∧
        (∀ t, text t ∈ before → ∃ u, env.expand t = .ok u) ∧ env.expand s = .error f) :=
  ⟨fun _ => expandMapping_eq_ok_iff, fun _ => expandMapping_eq_error_iff,
    fun hroom hfinite _ => expandMapping_eq_error_iff_of_room hroom hfinite⟩

end

/-- a list of rules in which the second text with a variable is the first that lacks a value -/
def nested : List (Document × Document) :=
  [(ofString "$\x7bKEY\x7d", list [mapping [(ofString "id", ofString "$\x7bHOST\x7d:1"), (ofString "on", bool true)],
    ofString "a$\x7bPORT\x7d"]), (ofString "last", ofString "$\x7bUSER\x7d")]

/-- the first fault in depth-first order, and what the entries become once there is none -/
theorem replaces_expandMapping_nested :
    expandMapping .usual (.ofTexts [("HOST", "db")]) nested = .error (.unset (.ofString "PORT")) ∧
    expandMapping .usual (.ofTexts [("HOST", "db"), ("PORT", "$\x7bHOST\x7d"), ("USER", "")]) nested =
      .ok [(ofString "$\x7bKEY\x7d", list [mapping [(ofString "id", ofString "db:1"), (ofString "on", bool true)],
        ofString "a$\x7bHOST\x7d"]), (ofString "last", ofString "")] := by
  have hfinite : endless ∉ leavesOfEntries nested := by simp [nested, ofString, leavesOfEntries, leaves, leavesOfItems]
  constructor
  · let env := Environment.ofTexts [("HOST", "db")]
    have hroom : ∀ p ∈ partsOfMapping .usual env nested, p.need ≤ p.room := by decide +kernel
    have hhost : env.expand (.ofString "$\x7bHOST\x7d:1") = .ok (.ofString "db:1") := by decide +kernel
    have hport : env.expand (.ofString "a$\x7bPORT\x7d") = .error (.unset (.ofString "PORT")) := by decide +kernel
    obtain ⟨-, -, herror⟩ := replaces_expandMapping .usual env nested
    refine (herror hroom hfinite _).2 ⟨[ofString "$\x7bHOST\x7d:1", bool true], _, [ofString "$\x7bUSER\x7d"], rfl,
      fun t ht => ?_, hport⟩
    obtain rfl : t = .ofString "$\x7bHOST\x7d:1" := by simpa [ofString] using ht
    exact ⟨_, hhost⟩
  · let env := Environment.ofTexts [("HOST", "db"), ("PORT", "$\x7bHOST\x7d"), ("USER", "")]
    have hroom : ∀ p ∈ partsOfMapping .usual env nested, p.need ≤ p.room := by decide +kernel
    have hhost : env.expand (.ofString "$\x7bHOST\x7d:1") = .ok (.ofString "db:1") := by decide +kernel
    have hport : env.expand (.ofString "a$\x7bPORT\x7d") = .ok (.ofString "a$\x7bHOST\x7d") := by decide +kernel
    have huser : env.expand (.ofString "$\x7bUSER\x7d") = .ok (.ofString "") := by decide +kernel
    have hkept : Becomes env (bool true) (bool true) := .kept (by simp) (by simp)
    obtain ⟨hok, -, -⟩ := replaces_expandMapping .usual env nested
    refine (hok _).2 ⟨hroom, by simp [nested, ofString, shapeOfEntries, shape, shapeOfItems], ?_⟩
    simp only [nested, ofString, leavesOfEntries, leaves, leavesOfItems, List.append_nil, List.cons_append,
      List.nil_append]
    exact .cons (.text hhost) (.cons hkept (.cons (.text hport) (.cons (.text huser) .nil)))

/-- **A value that is missed is not always told about.** A leaf can refer to a variable without a value, under a name
that cannot be written in bytes. -/
theorem lone_half_escapes : ¬ ∀ (env : Environment) (es : List (Document × Document)),
    (∃ name, expandMapping .usual env es = .error (.unset name)) ↔ ∃ s ps name, text s ∈ leavesOfEntries es ∧
      Environment.Scans s ps ∧ .reference name ∈ ps ∧ ∀ value, env.find name ≠ .ok value := by
  intro h
  let es : List (Document × Document) := [(ofString "makefile", text Environment.loneText)]
  have hlacks := (h [] es).2 ⟨_, _, _, List.mem_singleton.2 rfl, Environment.scans_loneText, List.mem_singleton.2 rfl,
    Environment.find_loneHalf_ne_ok⟩
  obtain ⟨name, hname⟩ := hlacks
  have hroom : ∀ p ∈ partsOfMapping .usual [] es, p.need ≤ p.room := by decide +kernel
  have hfault := faultOf_expandMapping_of_room .usual [] hroom
  rw [hname, show leavesOfEntries es = [text Environment.loneText] from rfl, List.findSome?_singleton, fault?,
    Environment.expand_loneText] at hfault
  cases hfault

end MakeAtlas.Document
