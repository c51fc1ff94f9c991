/-
What the search for a loop keeps true at every step, and what it has found when it stops.
- `Search.Inv`: the gray names are exactly the path, the links lead down it, a name left for good has been looked at in
  full and waits only for names left for good, and none of these lies on a loop.
- `Search.step_inv`, `Search.run_ends`, `search_ends`: one step keeps it, so does a path from its first name to its end,
  so does the whole search.
- `Search.step_error`: a step stops the search only outside the graph, or at a loop that it gives back as a simple
  closed walk.
- `search_ok`, `closed_of_search_ok`: a search that comes to its end has left every name for good, and then there is no
  loop, and no edge that leaves the graph.
-/
import MakeAtlas.Graph.Cycle
import MakeAtlas.Proofs.Graph.Edges

namespace MakeAtlas.Graph

open Relation

/-- a walk along edges that ends where it began and meets no name twice before -/
structure IsLoop (r : String → String → Prop) (walk : List String) : Prop where
  two_le : 2 ≤ walk.length
  closed : walk.head? = walk.getLast?
  edges : walk.IsChain r
  simple : walk.dropLast.Nodup

/-- a loop takes a first edge, and then goes on to where that began -/
theorem IsLoop.exists_cons {r : String → String → Prop} {walk : List String} (h : IsLoop r walk) :
    ∃ a b rest, walk = a :: b :: rest ∧ r a b ∧ (b :: rest).IsChain r ∧ (b :: rest).getLast (by simp) = a := by
  obtain ⟨h2, hc, he, -⟩ := h
  match walk, h2 with
  | a :: b :: rest, _ =>
    rw [List.isChain_cons_cons] at he
    rw [List.head?_cons, List.getLast?_eq_getLast_of_ne_nil (by simp), List.getLast_cons (by simp),
      Option.some.injEq] at hc
    exact ⟨a, b, rest, rfl, he.1, he.2, hc.symm⟩

theorem IsLoop.cyclic {r : String → String → Prop} {walk : List String} (h : IsLoop r walk) : Cyclic r := by
  obtain ⟨a, b, rest, -, hab, hchain, hlast⟩ := h.exists_cons
  exact ⟨a, TransGen.head' hab (List.relationReflTransGen_of_exists_isChain_cons rest hchain hlast)⟩

/-- what a search that stopped has found: a loop, or an edge that leaves the graph -/
def Halt.Justified (g : Graph) : Halt → Prop
  | .loop walk => IsLoop g.Waits walk
  | .outside dep => dep ∉ g.names ∧ ∃ name, g.Waits name dep
  | .astray _ => False

/-! ## Reading a loop back -/

/-- the links of a path are climbed from its innermost name to its outermost -/
theorem climb_path {entry : String} (below : List String) {parents : Entries String} {name : String}
    (hl : (below ++ [entry]).IsChain fun a b => parents.value? a = some b) (hd : (below ++ [entry]).Nodup)
    (hn : (below ++ [entry]).head? = some name) : climb parents entry name = some below := by
  induction below generalizing parents name with
  | nil =>
    obtain rfl : entry = name := by simpa using hn
    rw [climb, if_pos (by simp)]
  | cons a below ih =>
    obtain rfl : a = name := by simpa using hn
    obtain ⟨next, hnext⟩ : ∃ next, (below ++ [entry]).head? = some next := by cases below <;> simp
    rw [List.cons_append, List.nodup_cons] at hd
    rw [List.cons_append, List.isChain_cons] at hl
    -- the link of `a` is used up, but no link further out begins at `a`
    have hkept : (below ++ [entry]).IsChain fun b c => (parents.erase a).value? b = some c := by
      refine List.IsChain.imp_of_mem_imp (fun b c hb _ hbc => ?_) hl.2
      have hba : b ≠ a := fun h => hd.1 (h ▸ hb)
      rw [Entries.value?_erase_of_ne hba, hbc]
    have hup := ih hkept hd.2 hnext
    have hne : ¬ (a == entry) = true := by simpa using fun h : a = entry => hd.1 (by simp [h])
    have hfirst : parents.value? a = some next := hl.1 next hnext
    rw [climb, if_neg hne]
    split
    next h => rw [hfirst] at h; cases h
    next parent h =>
      rw [hfirst] at h
      cases h
      rw [hup, Option.map_some]

/-- a path from `entry` down to a name that waits for `entry` closes to a loop -/
theorem isLoop_closedWalk {r : String → String → Prop} {entry : String} {below : List String}
    (he : (below ++ [entry]).IsChain fun a b => r b a) (hnd : (below ++ [entry]).Nodup)
    (hback : ∀ name, (below ++ [entry]).head? = some name → r name entry) : IsLoop r (closedWalk entry below) := by
  have hrev : entry :: below.reverse = (below ++ [entry]).reverse := by simp
  refine ⟨by simp [closedWalk], ?_, ?_, ?_⟩
  · rw [closedWalk, List.cons_append, List.head?_cons, ← List.cons_append, List.getLast?_concat]
  · rw [closedWalk, hrev, List.isChain_append]
    refine ⟨List.isChain_reverse.2 he, .singleton _, fun name hname b hb => ?_⟩
    rw [List.getLast?_reverse] at hname
    obtain rfl : entry = b := by simpa using hb
    exact hback name hname
  · rw [closedWalk, List.dropLast_concat, hrev, List.nodup_reverse]
    exact hnd

/-! ## What every step keeps -/

namespace Search

/-- the names on the path, innermost first -/
def onPath (s : Search) : List String := s.path.map (·.1)

/-- the innermost name of `path` has looked only at black names and `inner`, each other name only at black names and the
next name further in -/
def Looked (g : Graph) (colors : Entries Color) : Option String → List (String × List String) → Prop
  | _, [] => True
  | inner, (name, rest) :: path =>
    (∃ looked, g.dependencies name = looked ++ rest ∧ ∀ d ∈ looked, colors.value? d = some .black ∨ inner = some d) ∧
      Looked g colors (some name) path

structure Inv (g : Graph) (s : Search) : Prop where
  owned : ∀ n, (s.colors.value? n).isSome ↔ n ∈ g.names
  gray : ∀ n, s.colors.value? n = some .gray ↔ n ∈ s.onPath
  nodup : s.onPath.Nodup
  links : s.onPath.IsChain fun a b => s.parents.value? a = some b ∧ a ∈ g.dependencies b
  looked : Looked g s.colors none s.path
  /-- a name left for good waits only for such names -/
  black : ∀ n, s.colors.value? n = some .black → ∀ d ∈ g.dependencies n, s.colors.value? d = some .black
  loopless : ∀ n, s.colors.value? n = some .black → ¬ TransGen g.Waits n n

theorem Looked.mono {g : Graph} {colors colors' : Entries Color} {path : List (String × List String)}
    (hb : ∀ d, colors.value? d = some .black → colors'.value? d = some .black) {inner inner' : Option String}
    (hi : ∀ d, inner = some d → colors'.value? d = some .black ∨ inner' = some d) (h : Looked g colors inner path) :
    Looked g colors' inner' path := by
  induction path generalizing inner inner' with
  | nil => trivial
  | cons frame path ih =>
    obtain ⟨⟨looked, hdeps, hl⟩, hrest⟩ := h
    refine ⟨⟨looked, hdeps, fun d hd => ?_⟩, ih (fun d hd => .inr hd) hrest⟩
    rcases hl d hd with hd | hd
    · exact .inl (hb d hd)
    · exact hi d hd

theorem owned_put {g : Graph} {s : Search} (h : Inv g s) {name : String} (hname : name ∈ g.names) (c : Color)
    (n : String) :
    ((s.colors.put name c).value? n).isSome ↔ n ∈ g.names := by
  rw [Entries.value?_put, ← h.owned]
  split_ifs with hn
  · simp [hn, (h.owned name).2 hname]
  · rfl

theorem black_put_gray {colors : Entries Color} {name : String} (hw : colors.value? name = some .white) (n : String) :
    (colors.put name .gray).value? n = some .black ↔ colors.value? n = some .black := by
  rw [Entries.value?_put]
  split_ifs with hn
  · simp [hn, hw]
  · rfl

/-- what is left for good leads only to what is left for good -/
theorem Inv.black_of_reaches {g : Graph} {s : Search} (h : Inv g s) {a b : String}
    (ha : s.colors.value? a = some .black) (hab : ReflTransGen g.Waits a b) : s.colors.value? b = some .black := by
  induction hab with
  | refl => exact ha
  | tail _ hstep ih => exact h.black _ ih _ hstep.2

/-- the innermost name has looked at all and is left for good -/
theorem Inv.leave {g : Graph} {s : Search} {name : String} {path : List (String × List String)} (h : Inv g s)
    (hp : s.path = (name, []) :: path) : Inv g { s with colors := s.colors.put name .black, path } := by
  have hpath : s.onPath = name :: path.map (·.1) := by simp [onPath, hp]
  have hgray : s.colors.value? name = some .gray := (h.gray name).2 (by simp [hpath])
  have hout : name ∉ path.map (·.1) := (List.nodup_cons.1 (hpath ▸ h.nodup)).1
  have hkeep : ∀ d, s.colors.value? d = some .black → (s.colors.put name .black).value? d = some .black := by
    intro d hd
    rw [Entries.value?_put]
    split_ifs
    · rfl
    · exact hd
  have hlooked := h.looked
  rw [hp] at hlooked
  obtain ⟨⟨looked, hdeps, hl⟩, hrest⟩ := hlooked
  rw [List.append_nil] at hdeps
  have hbelow : ∀ d ∈ g.dependencies name, s.colors.value? d = some .black := by
    intro d hd
    simpa using hl d (hdeps ▸ hd)
  refine ⟨owned_put h ((h.owned name).1 (by simp [hgray])) .black, fun n => ?_, ?_, ?_, ?_, fun n hn d hd => ?_,
    fun n hn => ?_⟩
  · rw [Entries.value?_put]
    split_ifs with hname
    · rw [hname]
      exact iff_of_false (by simp) hout
    · rw [h.gray, hpath, List.mem_cons, or_iff_right hname]
      rfl
  · exact (List.nodup_cons.1 (hpath ▸ h.nodup)).2
  · exact (hpath ▸ h.links).tail
  · exact Looked.mono hkeep (fun d hd => .inl (by rw [← Option.some.inj hd]; simp)) hrest
  · rw [Entries.value?_put] at hn
    split_ifs at hn with hname
    · exact hkeep d (hbelow d (hname ▸ hd))
    · exact hkeep d (h.black n hn d hd)
  · -- the names left for good are closed under edges, so a loop through `name` would have left `name` for good before
    rw [Entries.value?_put] at hn
    split_ifs at hn with hname
    · intro hloop
      rw [hname] at hloop
      obtain ⟨d, hd, hback⟩ := TransGen.head'_iff.1 hloop
      have := h.black_of_reaches (hbelow d hd.2) hback
      rw [hgray] at this
      cases this
    · exact h.loopless n hn

/-- the innermost name looks at a dependency that is left for good -/
theorem Inv.pass {g : Graph} {s : Search} {name dep : String} {deps : List String} {path : List (String × List String)}
    (h : Inv g s) (hp : s.path = (name, dep :: deps) :: path) (hd : s.colors.value? dep = some .black) :
    Inv g { s with path := (name, deps) :: path } := by
  have hpath : s.onPath = onPath { s with path := (name, deps) :: path } := by simp [onPath, hp]
  have hlooked := h.looked
  rw [hp] at hlooked
  obtain ⟨⟨looked, hdeps, hl⟩, hrest⟩ := hlooked
  refine { h with
    gray := hpath ▸ h.gray
    nodup := hpath ▸ h.nodup
    links := hpath ▸ h.links
    looked := ⟨⟨looked ++ [dep], ?_, ?_⟩, hrest⟩ }
  · rw [hdeps]; simp
  · intro d hdm
    rcases List.mem_append.1 hdm with hdm | hdm
    · exact hl d hdm
    · rw [List.mem_singleton.1 hdm]; exact .inl hd

/-- a path begins at a name that was not met -/
theorem Inv.enter {g : Graph} {s : Search} {name : String} (h : Inv g s) (hp : s.path = [])
    (hw : s.colors.value? name = some .white) : Inv g (s.enter g name) := by
  have hname : name ∈ g.names := (h.owned name).1 (by simp [hw])
  have hb := black_put_gray hw
  refine ⟨owned_put h hname .gray, fun n => ?_, by simp [Search.enter, onPath], by simp [Search.enter, onPath],
    ⟨⟨[], rfl, by simp⟩, trivial⟩, ?_, ?_⟩
  · simp only [Search.enter, Entries.value?_put]
    split_ifs with hn
    · simp [hn, onPath]
    · rw [h.gray]
      simp [onPath, hp, hn]
  · exact fun n hn d hd => (hb d).2 (h.black n ((hb n).1 hn) d hd)
  · exact fun n hn => h.loopless n ((hb n).1 hn)

/-- a path goes down to a name that was not met -/
theorem Inv.descend {g : Graph} {s : Search} {name dep : String} {deps : List String}
    {path : List (String × List String)} (h : Inv g s) (hp : s.path = (name, dep :: deps) :: path)
    (hd : s.colors.value? dep = some .white) :
    Inv g
      { colors := s.colors.put dep .gray
        parents := s.parents.put dep name
        path := (dep, g.dependencies dep) :: (name, deps) :: path } := by
  have hpath : s.onPath = name :: path.map (·.1) := by simp [onPath, hp]
  have hnew : dep ∉ s.onPath := fun hm => by
    have := (h.gray dep).2 hm
    rw [hd] at this
    cases this
  have hname : dep ∈ g.names := (h.owned dep).1 (by simp [hd])
  have hb := black_put_gray hd
  have hlooked := h.looked
  rw [hp] at hlooked
  obtain ⟨⟨looked, hdeps, hl⟩, hrest⟩ := hlooked
  refine ⟨owned_put h hname .gray, fun n => ?_, ?_, ?_,
    ⟨⟨[], rfl, by simp⟩, ⟨looked ++ [dep], ?_, fun d hdm => ?_⟩, ?_⟩, ?_, ?_⟩
  · rw [Entries.value?_put]
    split_ifs with hn
    · simp [hn, onPath]
    · rw [h.gray, hpath]
      simp [onPath, hn]
  · show (dep :: name :: path.map (·.1)).Nodup
    rw [← hpath]
    exact List.nodup_cons.2 ⟨hnew, h.nodup⟩
  · -- the links of the old path stay, for `dep` is not on it
    have hold : s.onPath.IsChain fun a b => (s.parents.put dep name).value? a = some b ∧ a ∈ g.dependencies b := by
      refine List.IsChain.imp_of_mem_imp (fun a b ha _ hab => ?_) h.links
      rw [Entries.value?_put_of_ne (fun e : a = dep => hnew (e ▸ ha))]
      exact hab
    rw [hpath] at hold
    exact List.isChain_cons_cons.2 ⟨⟨by simp, by rw [hdeps]; simp⟩, hold⟩
  · rw [hdeps]; simp
  · rcases List.mem_append.1 hdm with hdm | hdm
    · exact .inl ((hb d).2 (by simpa using hl d hdm))
    · exact .inr (by rw [List.mem_singleton.1 hdm])
  · exact Looked.mono (fun d => (hb d).2) (fun d hd => .inr hd) hrest
  · exact fun n hn d hdm => (hb d).2 (h.black n ((hb n).1 hn) d hdm)
  · exact fun n hn => h.loopless n ((hb n).1 hn)

theorem step_inv {g : Graph} {s s' : Search} (h : Inv g s) (hs : s.step g = .ok s') : Inv g s' := by
  unfold step at hs
  split at hs
  next => cases hs; exact h
  next name path hp => cases hs; exact h.leave hp
  next name dep deps path hp =>
    split at hs
    next => cases hs
    next => split at hs <;> cases hs
    next hd => cases hs; exact h.descend hp hd
    next hd => cases hs; exact h.pass hp hd

theorem Inv.mem_names {g : Graph} {s : Search} (h : Inv g s) {n : String} (hn : n ∈ s.onPath) : n ∈ g.names :=
  (h.owned n).1 (by simp [(h.gray n).2 hn])

/-- **A step stops only for a reason.** Either an edge leaves the graph, or an edge leads back to the path; then the
links give the loop back. -/
theorem step_error {g : Graph} {s : Search} {e : Halt} (h : Inv g s) (hs : s.step g = .error e) : e.Justified g := by
  unfold step at hs
  split at hs
  next => cases hs
  next => cases hs
  next name dep deps path hp =>
    have hpath : s.onPath = name :: path.map (·.1) := by simp [onPath, hp]
    have hwaits : g.Waits name dep := by
      obtain ⟨⟨looked, hdeps, -⟩, -⟩ : Looked g s.colors none ((name, dep :: deps) :: path) := hp ▸ h.looked
      exact ⟨h.mem_names (by simp [hpath]), by rw [hdeps]; simp⟩
    split at hs
    next hd =>
      cases hs
      refine ⟨fun hm => ?_, name, hwaits⟩
      have := (h.owned dep).2 hm
      rw [hd] at this
      cases this
    next hd =>
      obtain ⟨below, outer, hsplit, hnew⟩ := List.eq_append_cons_of_mem ((h.gray dep).1 hd)
      have hinner : below ++ [dep] ++ outer = s.onPath := by rw [List.append_assoc, List.singleton_append, ← hsplit]
      have hhead : (below ++ [dep]).head? = some name := by
        rw [hpath] at hinner
        cases below <;> simpa using congrArg List.head? hinner
      have hlinks : (below ++ [dep]).IsChain fun a b => s.parents.value? a = some b ∧ a ∈ g.dependencies b :=
        (hinner ▸ h.links).left_of_append
      have hnodup : (below ++ [dep]).Nodup := (hinner ▸ h.nodup).sublist (List.sublist_append_left _ _)
      have hclimb : climb s.parents dep name = some below :=
        climb_path below (hlinks.imp fun _ _ hab => hab.1) hnodup hhead
      rw [hclimb] at hs
      cases hs
      refine isLoop_closedWalk ?_ hnodup fun n hn => ?_
      · refine List.IsChain.imp_of_mem_imp (fun a b _ hb hab => ⟨h.mem_names ?_, hab.2⟩) hlinks
        rw [← hinner]
        exact List.mem_append_left _ hb
      · rw [hhead] at hn
        exact Option.some.inj hn ▸ hwaits
    next => cases hs
    next => cases hs

/-! ## Whole runs -/

def Met (s : Search) (n : String) : Prop := s.colors.value? n ≠ some .white

/-- how a search ends that set out from `s`: with nothing on the path, and with `names` and all that was met before met;
or for a reason -/
def Ends (g : Graph) (s : Search) (names : List String) : Except Halt Search → Prop
  | .ok s' => Inv g s' ∧ s'.path = [] ∧ ∀ n, n ∈ names ∨ s.Met n → s'.Met n
  | .error e => e.Justified g

/-- a search that sets out later and meets less ends in the same way -/
theorem Ends.mono {g : Graph} {s t : Search} {names others : List String}
    (hmet : ∀ n, n ∈ names ∨ s.Met n → n ∈ others ∨ t.Met n) {o : Except Halt Search} (h : Ends g t others o) :
    Ends g s names o := by
  cases o with
  | ok s' => exact ⟨h.1, h.2.1, fun n hn => h.2.2 n (hmet n hn)⟩
  | error e => exact h

/-- a met name stays met -/
theorem step_met {g : Graph} {s s' : Search} {n : String} (hs : s.step g = .ok s') (hn : s.Met n) : s'.Met n := by
  have hput : ∀ name color, color ≠ .white → (s.colors.put name color).value? n ≠ some .white := by
    intro name color hc
    rw [Entries.value?_put]
    split_ifs
    · simpa using hc
    · exact hn
  unfold step at hs
  split at hs
  next => cases hs; exact hn
  next => cases hs; exact hput _ _ (by decide)
  next =>
    split at hs
    next => cases hs
    next => split at hs <;> cases hs
    next => cases hs; exact hput _ _ (by decide)
    next => cases hs; exact hn

theorem run_of_path_nil {g : Graph} {s : Search} (hp : s.path = []) : s.run g = .ok s := by
  rw [run, dif_pos hp]

theorem run_of_path_ne_nil {g : Graph} {s : Search} (hp : s.path ≠ []) : s.run g = (s.step g).bind (run g) := by
  rw [run, dif_neg hp]
  split
  next he => rw [he]; rfl
  next ht => rw [ht]; rfl

/-- **Steps until the path is empty.** -/
theorem run_ends {g : Graph} {s : Search} (h : Inv g s) : Ends g s [] (s.run g) := by
  induction s using run.induct g with
  | case1 s hp =>
    rw [run_of_path_nil hp]
    exact ⟨h, hp, fun n hn => hn.resolve_left List.not_mem_nil⟩
  | case2 s hp e he =>
    rw [run_of_path_ne_nil hp, he]
    exact step_error h he
  | case3 s hp t ht ih =>
    rw [run_of_path_ne_nil hp, ht]
    exact Ends.mono (fun n hn => hn.imp_right (step_met ht)) (ih (step_inv h ht))

theorem visit_ends {g : Graph} {s : Search} {name : String} (h : Inv g s) (hp : s.path = []) :
    Ends g s [name] (s.visit g name) := by
  rw [visit]
  split_ifs with hw
  · refine Ends.mono (fun n hn => .inr ?_) (run_ends (h.enter hp hw))
    rw [Met, Search.enter, Entries.value?_put]
    split_ifs with hname
    · simp
    · exact hn.resolve_left (fun hmem => hname (List.mem_singleton.1 hmem))
  · refine ⟨h, hp, fun n hn => ?_⟩
    rcases hn with hn | hn
    · rw [List.mem_singleton.1 hn]
      exact hw
    · exact hn

/-- **Every name visited in turn.** -/
theorem foldlM_visit {g : Graph} (names : List String) {s : Search} (h : Inv g s) (hp : s.path = []) :
    Ends g s names (names.foldlM (visit g) s) := by
  induction names generalizing s with
  | nil => exact ⟨h, hp, fun n hn => hn.resolve_left List.not_mem_nil⟩
  | cons name names ih =>
    have hv : Ends g s [name] (s.visit g name) := visit_ends h hp
    rw [List.foldlM_cons]
    cases ht : s.visit g name with
    | error e =>
      rw [ht] at hv
      exact hv
    | ok t =>
      rw [ht] at hv
      obtain ⟨hi, hpath, hmet⟩ := hv
      refine Ends.mono (fun n hn => ?_) (ih hi hpath)
      rcases hn with hn | hn
      · rcases List.mem_cons.1 hn with rfl | hn
        · exact .inr (hmet n (.inl (List.mem_singleton_self n)))
        · exact .inl hn
      · exact .inr (hmet n (.inr hn))

theorem start_inv (g : Graph) : Inv g (start g) := by
  have hcolor := Entries.value?_map (fun _ => Color.white) g.names
  refine ⟨fun n => ?_, fun n => ?_, by simp [start, onPath], by simp [start, onPath], trivial, fun n hn => ?_,
    fun n hn => ?_⟩
  · rw [start, hcolor]; simp
  · rw [start, hcolor]; simp [onPath]
  · rw [start, hcolor] at hn; simp at hn
  · rw [start, hcolor] at hn; simp at hn

end Search

/-! ## The whole search -/

theorem search_ends (g : Graph) : Search.Ends g (.start g) g.names (search g) :=
  Search.foldlM_visit g.names (Search.start_inv g) rfl

theorem search_error {g : Graph} {e : Halt} (hs : search g = .error e) : e.Justified g := by
  have h := search_ends g
  rw [hs] at h
  exact h

/-- a search that comes to its end has left every name for good -/
theorem search_ok_inv {g : Graph} {s : Search} (hs : search g = .ok s) :
    Search.Inv g s ∧ ∀ a ∈ g.names, s.colors.value? a = some .black := by
  have h := search_ends g
  rw [hs] at h
  obtain ⟨hi, hpath, hmet⟩ := h
  refine ⟨hi, fun a ha => ?_⟩
  obtain ⟨c, hc⟩ := Option.isSome_iff_exists.1 ((hi.owned a).2 ha)
  cases c with
  | white => exact absurd hc (hmet a (.inl ha))
  | gray =>
    have := (hi.gray a).1 hc
    simp [Search.onPath, hpath] at this
  | black => exact hc

/-- **A search that comes to its end has seen that there is no loop.** -/
theorem search_ok {g : Graph} {s : Search} (hs : search g = .ok s) : ¬ Cyclic g.Waits := by
  obtain ⟨hi, hblack⟩ := search_ok_inv hs
  intro hsome
  obtain ⟨a, ha⟩ := hsome
  obtain ⟨b, hab, -⟩ := TransGen.head'_iff.1 ha
  exact hi.loopless a (hblack a hab.1) ha

/-- **And that no edge leaves the graph.** -/
theorem closed_of_search_ok {g : Graph} {s : Search} (hs : search g = .ok s) : g.Closed := by
  obtain ⟨hi, hblack⟩ := search_ok_inv hs
  intro a ha b hb
  have hleft : s.colors.value? b = some .black := hi.black a (hblack a ha) b hb
  exact (hi.owned b).1 (by simp [hleft])

end MakeAtlas.Graph
