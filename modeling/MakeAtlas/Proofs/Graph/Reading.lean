/-
A drawing read back. From the text the entries are read line by line, and from the entries the graph: what stands one
step deeper than a name, before the next line that does not, are its children.
- `readPlace_place`, `isTail_labelTail`, `read_text`: a line is read as the entry that it was written for.
- `readEntries_render`: so is a whole text.
- `Draws.open_eq`, `Draws.childrenBelow_eq`: the entries give the tasks that they were drawn for, and below a name in
  full its children.
- `eq_of_render`: two parts with one text have the same names, the same roots and, for each name, the same children, in
  order.
Witness: `hook`, a graph with the text of a part of `crossing`, where a node waits for names outside the part.
-/
import MakeAtlas.Proofs.Graph.Drawing

namespace MakeAtlas.Graph

open Makefile (Target)

/-! ## Lines -/

/-- a place as read from the characters before a name, after what stands above it -/
def readPlace : List Bool → List Char → Option (Place × List Char)
  | above, ' ' :: ' ' :: ' ' :: ' ' :: cs => readPlace (above ++ [true]) cs
  | above, '│' :: ' ' :: ' ' :: ' ' :: cs => readPlace (above ++ [false]) cs
  | above, '└' :: '─' :: '─' :: ' ' :: cs => some (⟨above, true⟩, cs)
  | above, '├' :: '─' :: '─' :: ' ' :: cs => some (⟨above, false⟩, cs)
  | _, _ => none

/-- an entry as read from its line: a name ends at the first space, and a reference says where to look -/
def Entry.read (line : List Char) : Option Entry :=
  if line.isEmpty then some .gap
  else
    (readPlace [] line).map fun (place, cs) =>
      let name := String.ofList (cs.takeWhile (· != ' '))
      if cs.dropWhile (· != ' ') = " (see above)".toList then .reference place name else .full place name

def readEntries (text : String) : List (Option Entry) := (text.toList.dropLast.splitOn '\n').map Entry.read

/-- a place is read back from its text -/
theorem readPlace_place (above above' : List Bool) (last : Bool) (cs : List Char) :
    readPlace above ((Place.text ⟨above', last⟩).toList ++ cs) = some (⟨above ++ above', last⟩, cs) := by
  induction above' generalizing above with
  | nil => cases last <;> simp [Place.text, readPlace]
  | cons b above' ih =>
    have hcut : (Place.text ⟨b :: above', last⟩).toList =
        (if b then [' ', ' ', ' ', ' '] else ['│', ' ', ' ', ' ']) ++ (Place.text ⟨above', last⟩).toList := by
      cases b <;> simp [Place.text]
    rw [hcut]
    cases b with
    | true => simpa [readPlace] using ih (above ++ [true])
    | false => simpa [readPlace] using ih (above ++ [false])

theorem place_ne_nil (place : Place) : place.text.toList ≠ [] := by
  cases hlast : place.last <;> simp [Place.text, hlast]

/-! ## Labels -/

/-- what follows a name on its line: nothing, or a space and what is not the beginning of a reference -/
def IsTail (cs : List Char) : Prop := cs = [] ∨ ∃ c rest, cs = ' ' :: c :: rest ∧ c ≠ '('

/-- the marks of a node, as drawn beside its name -/
def markWords (m : Marks) (n : Node) : List String :=
  (if m.order && n.order != 0 then ["[" ++ toString n.order ++ "]"] else []) ++
    (if m.critical && n.critical then [criticalSign] else []) ++
    (if m.parallel && n.parallel then [parallelSign] else [])

theorem label_eq (m : Marks) (n : Node) : label m n =
    " ".intercalate (n.name :: markWords m n) ++ (if n.description.isEmpty then "" else " — " ++ n.description) := by
  simp only [label, markWords, List.cons_append, List.nil_append, List.append_assoc]

theorem intercalate_cons (c : Char) (l : List Char) (ls : List (List Char)) :
    [c].intercalate (l :: ls) = l ++ ls.flatMap (c :: ·) := by
  induction ls generalizing l with
  | nil => simp
  | cons l' ls ih =>
    rw [List.intercalate_cons_cons, ih, List.flatMap_cons]
    simp

theorem lineFeed_not_mem_toString (k : ℕ) : '\n' ∉ (toString k).toList := by
  intro h
  have hdigits : '\n' ∈ Nat.toDigits 10 k := by rwa [← Nat.toList_repr]
  have := Nat.isDigit_of_mem_toDigits (by decide) (by decide) hdigits
  revert this
  decide

/-- a mark begins no reference and stays on its line -/
theorem markWords_spec (m : Marks) (n : Node) :
    ∀ w ∈ markWords m n, (∃ c rest, w.toList = c :: rest ∧ c ≠ '(') ∧ '\n' ∉ w.toList := by
  intro w hw
  simp only [markWords, List.mem_append] at hw
  rcases hw with (hw | hw) | hw <;> split at hw
  next =>
    rw [List.mem_singleton.1 hw]
    refine ⟨⟨'[', (toString n.order ++ "]").toList, by simp, by decide⟩, ?_⟩
    simpa using lineFeed_not_mem_toString n.order
  next => cases hw
  next =>
    rw [List.mem_singleton.1 hw]
    exact ⟨⟨'★', [], rfl, by decide⟩, by decide⟩
  next => cases hw
  next =>
    rw [List.mem_singleton.1 hw]
    exact ⟨⟨'∥', [], rfl, by decide⟩, by decide⟩
  next => cases hw

/-- what a label has after the name -/
def labelTail (m : Marks) (n : Node) : List Char :=
  (markWords m n).flatMap (fun w => ' ' :: w.toList) ++
    (if n.description.isEmpty then "" else " — " ++ n.description).toList

theorem toList_label (m : Marks) (n : Node) : (label m n).toList = n.name.toList ++ labelTail m n := by
  have hwords : [' '].intercalate (n.name.toList :: (markWords m n).map String.toList) =
      n.name.toList ++ (markWords m n).flatMap fun w => ' ' :: w.toList := by
    rw [intercalate_cons, List.flatMap_map]
  rw [label_eq, labelTail, String.toList_append, String.toList_intercalate, List.map_cons, ← List.append_assoc]
  exact congrArg (· ++ _) hwords

theorem isTail_labelTail (m : Marks) (n : Node) : IsTail (labelTail m n) := by
  rw [labelTail]
  cases hwords : markWords m n with
  | nil =>
    split
    · exact .inl (by simp)
    · exact .inr ⟨'—', ' ' :: n.description.toList, by simp, by decide⟩
  | cons w ws =>
    obtain ⟨⟨c, rest, hw, hc⟩, -⟩ := markWords_spec m n w (by rw [hwords]; exact List.mem_cons_self)
    exact .inr ⟨c, _, by rw [List.flatMap_cons, hw]; rfl, hc⟩

/-- a label is on one line if the description is -/
theorem lineFeed_not_mem_labelTail (m : Marks) {n : Node} (h : '\n' ∉ n.description.toList) : '\n' ∉ labelTail m n := by
  intro hmem
  rcases List.mem_append.1 hmem with hmem | hmem
  · obtain ⟨w, hw, hin⟩ := List.mem_flatMap.1 hmem
    exact (markWords_spec m n w hw).2 (List.mem_of_ne_of_mem (by decide) hin)
  · split at hmem
    · simp at hmem
    · simp [h] at hmem

/-! ## Texts -/

/-- names that end at the first space, and names and descriptions that stay on one line -/
structure Legible (g : Graph) : Prop where
  name : ∀ a ∈ g.names, ' ' ∉ a.toList ∧ '\n' ∉ a.toList
  description : ∀ n ∈ g.nodes, '\n' ∉ n.description.toList

variable {g : Graph} {m : Marks}

/-- a name in full is the name and a tail, on one line -/
theorem exists_tail_full (h : Legible g) (place : Place) {a : String} (ha : a ∈ g.names) : ∃ tail,
    ((Entry.full place a).text g m).toList = place.text.toList ++ (a.toList ++ tail) ∧ IsTail tail ∧ '\n' ∉ tail := by
  rw [Entry.text]
  cases hl : lookup g.store a with
  | none => exact ⟨[], by simp, .inl rfl, by simp⟩
  | some n =>
    have hmem : n ∈ g.nodes := List.mem_filterMap.2 ⟨a, ha, hl⟩
    refine ⟨labelTail m n, ?_, isTail_labelTail m n, lineFeed_not_mem_labelTail m (h.description n hmem)⟩
    rw [Option.map_some, Option.getD_some, String.toList_append, toList_label, lookup_name hl]

theorem IsTail.head? {tail : List Char} (h : IsTail tail) : ∀ c ∈ tail.head?, c = ' ' := by
  intro c hc
  rcases h with rfl | ⟨d, rest, rfl, -⟩
  · cases hc
  · exact (Option.some.inj hc).symm

theorem IsTail.ne_reference {tail : List Char} (h : IsTail tail) : tail ≠ " (see above)".toList := by
  rintro rfl
  rcases h with h | ⟨c, rest, h, hc⟩
  · cases h
  · have hhead : '(' = c := (List.cons.inj (List.cons.inj h).2).1
    exact hc hhead.symm

/-- a name without a space is cut off where a space follows -/
theorem cut_name {cs tail : List Char} (hcs : ' ' ∉ cs) (htail : ∀ c ∈ tail.head?, c = ' ') :
    (cs ++ tail).takeWhile (· != ' ') = cs ∧ (cs ++ tail).dropWhile (· != ' ') = tail := by
  have hname : ∀ c ∈ cs, (c != ' ') = true := by
    intro c hc
    simpa using fun h : c = ' ' => hcs (h ▸ hc)
  rw [List.takeWhile_append_of_pos hname, List.dropWhile_append_of_pos hname]
  cases tail with
  | nil => simp
  | cons c tail => simp [htail c rfl]

theorem read_place {place : Place} {cs tail : List Char} (hcs : ' ' ∉ cs) (htail : ∀ c ∈ tail.head?, c = ' ') :
    Entry.read (place.text.toList ++ (cs ++ tail)) =
      some (if tail = " (see above)".toList then .reference place (String.ofList cs)
      else .full place (String.ofList cs)) := by
  have hne : ¬ (place.text.toList ++ (cs ++ tail)).isEmpty = true := by
    rw [List.isEmpty_iff]
    exact List.append_ne_nil_of_left_ne_nil (place_ne_nil place) _
  obtain ⟨hname, hrest⟩ := cut_name hcs htail
  rw [Entry.read, if_neg hne, readPlace_place [] place.above place.last]
  simp only [Option.map_some, hname, hrest, List.nil_append]

/-- **A line is read back.** -/
theorem read_text (h : Legible g) {e : Entry} (he : ∀ a ∈ e.name?, a ∈ g.names) :
    Entry.read (e.text g m).toList = some e := by
  cases e with
  | gap => rfl
  | full place a =>
    have ha := he a rfl
    obtain ⟨tail, htext, htail, -⟩ := exists_tail_full (m := m) h place ha
    rw [htext, read_place (h.name a ha).1 htail.head?, if_neg htail.ne_reference, String.ofList_toList]
  | reference place a =>
    have ha := he a rfl
    have htext : ((Entry.reference place a).text g m).toList = place.text.toList ++
      (a.toList ++ " (see above)".toList) := by
      simp [Entry.text]
    rw [htext, read_place (h.name a ha).1 (by simp), if_pos rfl, String.ofList_toList]

example : Entry.read "│   └── a [2] ★".toList = some (.full ⟨[false], true⟩ "a") := by decide

example : Entry.read "├── a (see above)".toList = some (.reference ⟨[], false⟩ "a") := by decide

theorem lineFeed_not_mem_place (place : Place) : '\n' ∉ place.text.toList := by
  have hlast : '\n' ∉ (if place.last then "└── " else "├── ").toList := by
    split <;> decide
  have habove : ∀ b ∈ place.above, '\n' ∉ (if b then "    " else "│   ").toList := by
    intro b _
    split <;> decide
  rw [Place.text, String.toList_append, String.toList_join, List.flatMap_map, List.mem_append, not_or, List.mem_flatMap]
  refine ⟨fun hsome => ?_, hlast⟩
  obtain ⟨b, hb, hmem⟩ := hsome
  exact habove b hb hmem

/-- an entry is one line -/
theorem lineFeed_not_mem_text (h : Legible g) {e : Entry} (he : ∀ a ∈ e.name?, a ∈ g.names) :
    '\n' ∉ (e.text g m).toList := by
  cases e with
  | gap => simp [Entry.text]
  | full place a =>
    have ha := he a rfl
    obtain ⟨tail, htext, -, hline⟩ := exists_tail_full (m := m) h place ha
    rw [htext, List.mem_append, List.mem_append]
    rintro (hplace | hname | htail)
    · exact lineFeed_not_mem_place place hplace
    · exact (h.name a ha).2 hname
    · exact hline htail
  | reference place a =>
    have ha := he a rfl
    rw [Entry.text, String.toList_append, String.toList_append, List.mem_append, List.mem_append]
    rintro ((hplace | hname) | htail)
    · exact lineFeed_not_mem_place place hplace
    · exact (h.name a ha).2 hname
    · revert htail
      decide

/-- **A text is read back.** -/
theorem readEntries_text (h : Legible g) {es : List Entry} (hne : es ≠ [])
    (hes : ∀ e ∈ es, ∀ a ∈ e.name?, a ∈ g.names) :
    readEntries ("\n".intercalate (es.map (Entry.text g m)) ++ "\n") = es.map some := by
  have hlines : ∀ l ∈ (es.map (Entry.text g m)).map String.toList, '\n' ∉ l := by
    intro l hl
    simp only [List.mem_map] at hl
    obtain ⟨-, ⟨e, he, rfl⟩, rfl⟩ := hl
    exact lineFeed_not_mem_text h (hes e he)
  have hsplit : (("\n".intercalate (es.map (Entry.text g m)) ++ "\n").toList.dropLast).splitOn '\n' =
      (es.map (Entry.text g m)).map String.toList := by
    rw [String.toList_append, String.toList_intercalate]
    exact (congrArg _ (List.dropLast_concat)).trans (List.splitOn_intercalate '\n' hlines (by simpa using hne))
  rw [readEntries, hsplit, List.map_map, List.map_map]
  apply List.map_congr_left
  intro e he
  exact read_text h (hes e he)

/-! ## Trees -/

/-- the tasks that entries were drawn for: those that stand no deeper than any entry above them -/
def openTasks : List Entry → List Task
  | [] => []
  | .gap :: es => openTasks es
  | .full place name :: es => (place, name) :: (openTasks es).filter (·.1.above.length ≤ place.above.length)
  | .reference place name :: es => (place, name) :: (openTasks es).filter (·.1.above.length ≤ place.above.length)

/-- the names one step deeper than a place, as the entries below it show them -/
def childrenBelow (place : Place) (below : List Entry) : List String :=
  ((openTasks below).filter (place.above.length < ·.1.above.length)).map (·.2)

/-- no task is deeper than one before it -/
def Descending (tasks : List Task) : Prop := tasks.Pairwise fun t u => u.1.above.length ≤ t.1.above.length

theorem above_childTasks {g : Graph} {place : Place} {name : String} {t : Task} (ht : t ∈ childTasks g place name) :
    t.1.above.length = place.above.length + 1 := by
  simp only [childTasks, List.mem_map] at ht
  obtain ⟨c, -, rfl⟩ := ht
  simp

section Open

variable {drawn drawn' : List String} {place : Place} {name : String} {tasks : List Task} {es : List Entry}

theorem Descending.children (h : Descending ((place, name) :: tasks)) :
    Descending (childTasks g place name ++ tasks) := by
  rw [Descending, List.pairwise_cons] at h
  rw [Descending, List.pairwise_append]
  refine ⟨?_, h.2, ?_⟩
  · apply List.pairwise_of_forall_mem_list
    intro t ht u hu
    rw [above_childTasks ht, above_childTasks hu]
  · intro t ht u hu
    have hle : u.1.above.length ≤ place.above.length := h.1 u hu
    rw [above_childTasks ht]
    omega

/-- the tasks behind one are those that are not deeper, once its children are cut off -/
theorem Descending.filter_children (h : Descending ((place, name) :: tasks)) :
    (childTasks g place name ++ tasks).filter (·.1.above.length ≤ place.above.length) = tasks ∧
      (childTasks g place name ++ tasks).filter (place.above.length < ·.1.above.length) = childTasks g place name := by
  rw [Descending, List.pairwise_cons] at h
  have hdeeper : ∀ t ∈ childTasks g place name, place.above.length < t.1.above.length := by
    intro t ht
    rw [above_childTasks ht]
    omega
  constructor
  · rw [List.filter_append, List.filter_eq_nil_iff.2 fun t ht => by simpa using hdeeper t ht,
      List.filter_eq_self.2 fun t ht => by simpa using h.1 t ht, List.nil_append]
  · rw [List.filter_append, List.filter_eq_self.2 fun t ht => by simpa using hdeeper t ht,
      List.filter_eq_nil_iff.2 fun t ht => by simpa using h.1 t ht, List.append_nil]

/-- **Entries give the tasks that they were drawn for.** -/
theorem Draws.open_eq (h : Draws g drawn tasks es drawn') (hdesc : Descending tasks) : openTasks es = tasks := by
  induction h with
  | done => rfl
  | again _ _ ih =>
    rw [openTasks, ih (List.pairwise_cons.1 hdesc).2, List.filter_eq_self.2]
    intro t ht
    simpa using (List.pairwise_cons.1 hdesc).1 t ht
  | first _ _ ih => rw [openTasks, ih hdesc.children, hdesc.filter_children.1]

/-- **Below a name in full stand its children.** -/
theorem Draws.childrenBelow_eq (h : Draws g drawn tasks es drawn') (hdesc : Descending tasks) {above below : List Entry}
    (hes : es = above ++ .full place name :: below) : childrenBelow place below = g.children name := by
  induction h generalizing above with
  | done => simp at hes
  | again _ _ ih =>
    cases above with
    | nil => cases hes
    | cons e above =>
      rw [List.cons_append, List.cons.injEq] at hes
      exact ih (List.pairwise_cons.1 hdesc).2 hes.2
  | first _ rest ih =>
    cases above with
    | nil =>
      cases hes
      rw [childrenBelow, rest.open_eq hdesc.children, hdesc.filter_children.2, names_childTasks]
    | cons e above =>
      rw [List.cons_append, List.cons.injEq] at hes
      exact ih hdesc.children hes.2

end Open

theorem descending_rootTasks (roots : List String) : Descending (rootTasks roots) := by
  apply List.pairwise_of_forall_mem_list
  intro t ht u hu
  obtain ⟨r, -, rfl⟩ := List.mem_map.1 ht
  obtain ⟨r', -, rfl⟩ := List.mem_map.1 hu
  exact le_rfl

/-! ## Graphs -/

variable {g' : Graph}

/-- **Drawings tell graphs apart.** -/
theorem eq_of_drawing (h : Rooted g) (h' : Rooted g') (heq : g.drawing = g'.drawing) :
    (∀ a, a ∈ g.names ↔ a ∈ g'.names) ∧ g.roots = g'.roots ∧ ∀ a ∈ g.names, g.children a = g'.children a := by
  obtain ⟨drawn, hd⟩ := draws_drawing h
  obtain ⟨drawn', hd'⟩ := draws_drawing h'
  rw [← heq] at hd'
  refine ⟨fun a => ?_, ?_, fun a ha => ?_⟩
  · rw [← (perm_full_drawing h).mem_iff, heq, (perm_full_drawing h').mem_iff]
  · have htasks : rootTasks g.roots = rootTasks g'.roots := by
      rw [← hd.open_eq (descending_rootTasks _), hd'.open_eq (descending_rootTasks _)]
    have hnames : ∀ roots : List String, (rootTasks roots).map (·.2) = roots := by
      intro roots
      simp [rootTasks, Function.comp_def]
    rw [← hnames g.roots, htasks, hnames]
  · rw [← (perm_full_drawing h).mem_iff, ← filterMap_filter_gap _ rfl] at ha
    obtain ⟨e, he, hfull⟩ := List.mem_filterMap.1 ha
    obtain ⟨place, rfl⟩ : ∃ place, e = .full place a := by
      cases e with
      | full place name =>
        cases hfull
        exact ⟨place, rfl⟩
      | gap => cases hfull
      | reference => cases hfull
    obtain ⟨above, below, hsplit⟩ := List.append_of_mem he
    rw [← hd.childrenBelow_eq (descending_rootTasks _) hsplit, hd'.childrenBelow_eq (descending_rootTasks _) hsplit]

/-- the drawing of a part without a loop is read back from its text -/
theorem readEntries_render (h : Rooted g) (hcycle : g.cycle = none) (hne : g.names ≠ []) (hleg : Legible g) :
    readEntries (g.render m) = g.drawing.map some := by
  have hshows := shows_of_rooted h
  have hdrawing : g.drawing ≠ [] := by
    intro hnil
    have honce := hshows.once
    rw [hnil] at honce
    exact hne (List.nil_perm.1 honce)
  rw [render, hcycle, if_neg (by simpa using hne)]
  exact readEntries_text hleg hdrawing hshows.inside

/-- **The text tells graphs apart.** Two parts of graphs without a loop that have one text have the same names, the same
roots in order, and for each name the same children in order, if no name has a space or a line feed and no description a
line feed. -/
theorem eq_of_render {ts ts' : List Target} (hg : PartOf ts g) (hg' : PartOf ts' g') (hac : ¬ Cyclic (Depends ts))
    (hac' : ¬ Cyclic (Depends ts')) (hne : g.names ≠ []) (hne' : g'.names ≠ []) (hleg : Legible g) (hleg' : Legible g')
    (htext : g.render m = g'.render m) :
    (∀ a, a ∈ g.names ↔ a ∈ g'.names) ∧ g.roots = g'.roots ∧ ∀ a ∈ g.names, g.children a = g'.children a := by
  have hread : readEntries (g.render m) = g.drawing.map some :=
    readEntries_render (hg.rooted hac) (hg.cycle hac) hne hleg
  have hread' : readEntries (g'.render m) = g'.drawing.map some :=
    readEntries_render (hg'.rooted hac') (hg'.cycle hac') hne' hleg'
  rw [htext, hread'] at hread
  have hdrawing : g.drawing = g'.drawing := (List.map_injective_iff.2 (Option.some_injective _) hread).symm
  exact eq_of_drawing (hg.rooted hac) (hg'.rooted hac') hdrawing

/-- one name with two children, one of them unknown -/
def hook : List Target := [{ name := "lint", dependencies := ["test", "linter"] }, { name := "test" }]

theorem not_cyclic_hook : ¬ Cyclic (Depends hook) := not_cyclic_of_rank (["linter", "test", "lint"].idxOf ·) (by decide)

theorem render_crossing : ((build crossing).focus "lint" 1).render {} = (build hook).render {} := by
  rw [build_of_acyclic not_cyclic_crossing, build_of_acyclic not_cyclic_hook]
  decide +kernel

theorem legible_crossing : Legible ((build crossing).focus "lint" 1) := by
  rw [build_of_acyclic not_cyclic_crossing]
  exact ⟨by decide +kernel, by decide +kernel⟩

theorem legible_hook : Legible (build hook) := by
  rw [build_of_acyclic not_cyclic_hook]
  exact ⟨by decide +kernel, by decide +kernel⟩

/-- what is next to one name, and another graph with that text -/
theorem eq_of_render_crossing :
    PartOf crossing ((build crossing).focus "lint" 1) ∧ PartOf hook (build hook) ∧ ¬ Cyclic (Depends crossing) ∧
      ¬ Cyclic (Depends hook) ∧ ((build crossing).focus "lint" 1).names ≠ [] ∧ (build hook).names ≠ [] ∧
      Legible ((build crossing).focus "lint" 1) ∧ Legible (build hook) ∧
      ((build crossing).focus "lint" 1).render {} = (build hook).render {} ∧
      (∀ a, a ∈ ((build crossing).focus "lint" 1).names ↔ a ∈ (build hook).names) ∧
      ((build crossing).focus "lint" 1).roots = (build hook).roots ∧
      ∀ a ∈ ((build crossing).focus "lint" 1).names,
        ((build crossing).focus "lint" 1).children a = (build hook).children a := by
  have hpart : PartOf crossing ((build crossing).focus "lint" 1) := ⟨[("lint", 1)], rfl⟩
  have hwhole : PartOf hook (build hook) := ⟨[], rfl⟩
  have hne : ((build crossing).focus "lint" 1).names ≠ [] := List.ne_nil_of_mem (mem_names_focus has_crossing 1)
  have hne' : (build hook).names ≠ [] :=
    List.ne_nil_of_mem (List.contains_iff_mem.1 (has_build (a := "lint") (by decide)))
  exact ⟨hpart, hwhole, not_cyclic_crossing, not_cyclic_hook, hne, hne', legible_crossing, legible_hook,
    render_crossing, eq_of_render hpart hwhole not_cyclic_crossing not_cyclic_hook hne hne' legible_crossing
      legible_hook render_crossing⟩

end MakeAtlas.Graph
