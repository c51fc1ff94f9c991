/-
How a file can be written. A text is cut at its slashes, and its pieces are followed from a directory: nothing and a dot
stay where they are, two dots go up, every other piece is the name of a directory, the last of them that of the file. A
tilde in front stands for a home directory. A disk has no links, so that two dots lead back the way that a name led.
- `Follows`, `HomeOf`, `Spells`: pieces that lead to a file of the disk, the home directory that a tilde stands for, and
  the texts that lead to a file.
- `Follows.foldl_enter`, `Follows.free_of_nul`: the names that remain of the pieces resolve to that file; none of them
  holds NUL.
- `exists_expandHome_of_spells`: so a text that leads to a file can be expanded, and resolves to the names of the file.
- `ends_of_walk`, `ends_of_find`: and so does every path at which the disk finds a file.
-/
import Mathlib.Tactic
import MakeAtlas.Workspace.Host
import MakeAtlas.Workspace.Surroundings

namespace MakeAtlas

/-! ## Texts that lead to a file -/

/-- nothing between two slashes, or a dot -/
def Stays (piece : List Char) : Prop := piece = [] ∨ piece = ['.']

def IsName (piece : List Char) : Prop := ¬ Stays piece ∧ piece ≠ ['.', '.']

/-- a text with a slash in front -/
def Absolute (t : String) : Prop := t.toList.head? = some '/'

/-- a text cut at its slashes -/
def pieces (t : String) : List (List Char) := t.toList.splitOn '/'

instance (piece : List Char) : Decidable (Stays piece) := inferInstanceAs (Decidable (_ ∨ _))

instance (piece : List Char) : Decidable (IsName piece) := inferInstanceAs (Decidable (_ ∧ _))

instance (t : String) : Decidable (Absolute t) := inferInstanceAs (Decidable (_ = _))

/-- no name on the disk holds the character that no name may hold -/
def Disk.FreeOfNul (d : Disk) : Prop := ∀ e ∈ d, ∀ name ∈ e.1, Char.ofNat 0 ∉ name.toList

instance (d : Disk) : Decidable d.FreeOfNul := inferInstanceAs (Decidable (∀ e ∈ d, ∀ name ∈ e.1, _))

/-- the pieces lead from a directory to a file; what comes behind the file may only stay there -/
inductive Disk.Follows (d : Disk) (file : List String) : List String → List (List Char) → Prop
  | stay {dir : List String} {piece : List Char} {rest : List (List Char)} (hpiece : Stays piece)
    (h : Follows d file dir rest) :
    Follows d file dir (piece :: rest)
  | up {dir : List String} {rest : List (List Char)} (h : Follows d file dir.dropLast rest) :
    Follows d file dir (['.', '.'] :: rest)
  | enter {dir : List String} {piece : List Char} {rest : List (List Char)} (hname : IsName piece)
    (hentry : d.entry? (dir ++ [String.ofList piece]) = some .directory)
      (h : Follows d file (dir ++ [String.ofList piece]) rest) :
    Follows d file dir (piece :: rest)
  | reach {dir : List String} {piece : List Char} {rest : List (List Char)} {bytes : List UInt8} (hname : IsName piece)
    (hentry : d.entry? (dir ++ [String.ofList piece]) = some (.file bytes))
      (hfile : dir ++ [String.ofList piece] = file)
    (hrest : ∀ piece ∈ rest, Stays piece) : Follows d file dir (piece :: rest)

namespace Surroundings

/-- the directory from which a text is followed -/
def startOf (s : Surroundings) (t : String) : List String := if Absolute t then [] else s.cwd.parts

/-- the home directory of a user; without a name, of the user who runs the program -/
inductive HomeOf (s : Surroundings) : List Char → String → Prop
  | own : HomeOf s [] s.home
  | account {user : List Char} {home : String} (hne : user ≠ []) (hnul : Char.ofNat 0 ∉ user)
    (haccount : s.accounts.value? (String.ofList user) = some home) : HomeOf s user home

/-- A text leads to a file of the disk. The first piece of a relative text may begin with a tilde, which then stands for
a home directory; a dot in front of it changes nothing. -/
inductive Spells (s : Surroundings) (d : Disk) (file : List String) (t : String) : Prop
  | plain (hplain : ∀ dots user rest, pieces t = dots ++ ('~' :: user) :: rest → (∀ dot ∈ dots, Stays dot) → Absolute t)
    (h : d.Follows file (s.startOf t) (pieces t))
  | home {dots rest : List (List Char)} {user : List Char} {home : String} (hrelative : ¬ Absolute t)
    (hpieces : pieces t = dots ++ ('~' :: user) :: rest) (hdots : ∀ dot ∈ dots, Stays dot) (hhome : s.HomeOf user home)
    (h : d.Follows file (s.startOf home) (pieces home ++ rest))

end Surroundings

/-! ## The names among the pieces -/

namespace Path

/-- a directory by its names from the top -/
structure FromTop (p : Path) : Prop where
  root : p.root ≠ .here
  parts : ".." ∉ p.parts

/-- the names among the pieces, and two dots as they stand -/
def partsOf (pieces : List (List Char)) : List String :=
  (pieces.filter fun piece => piece != [] && piece != ['.']).map String.ofList

variable {piece : List Char} {rest : List (List Char)} {t first : String} {parts : List String}

theorem partsOf_cons_of_stays (h : Stays piece) : partsOf (piece :: rest) = partsOf rest := by
  rcases h with rfl | rfl <;> rfl

theorem partsOf_cons_of_not_stays (h : ¬ Stays piece) :
    partsOf (piece :: rest) = String.ofList piece :: partsOf rest := by
  rw [Stays, not_or] at h
  rw [partsOf, List.filter_cons_of_pos (by simp [h.1, h.2])]
  rfl

theorem partsOf_append (before after : List (List Char)) :
    partsOf (before ++ after) = partsOf before ++ partsOf after := by
  rw [partsOf, List.filter_append, List.map_append]
  rfl

theorem partsOf_eq_nil (h : ∀ piece ∈ rest, Stays piece) : partsOf rest = [] := by
  induction rest with
  | nil => rfl
  | cons piece rest ih =>
    rw [partsOf_cons_of_stays (h piece List.mem_cons_self)]
    exact ih fun p hp => h p (List.mem_cons_of_mem _ hp)

/-- in front of the first name there are pieces that stay -/
theorem exists_first_of_partsOf {ps : List (List Char)} (h : partsOf ps = first :: parts) :
    ∃ dots piece rest, ps = dots ++ piece :: rest ∧ (∀ dot ∈ dots, Stays dot) ∧ first = String.ofList piece := by
  induction ps with
  | nil => cases h
  | cons piece ps ih =>
    by_cases hpiece : Stays piece
    · rw [partsOf_cons_of_stays hpiece] at h
      obtain ⟨dots, name, rest, rfl, hdots, hname⟩ := ih h
      refine ⟨piece :: dots, name, rest, rfl, fun dot hdot => ?_, hname⟩
      rcases List.mem_cons.1 hdot with rfl | hdot
      · exact hpiece
      · exact hdots dot hdot
    · rw [partsOf_cons_of_not_stays hpiece] at h
      exact ⟨[], piece, ps, rfl, by simp, (List.cons.inj h).1.symm⟩

theorem cut_eq_splitOn (cs : List Char) : cut cs = cs.splitOn '/' := by
  induction cs with
  | nil => rfl
  | cons c cs ih =>
    obtain ⟨p, ps, hp⟩ := List.exists_cons_of_ne_nil (List.splitOn_ne_nil '/' cs)
    rw [cut, ih, hp, List.splitOn_cons_eq_if_modifyHead, hp]
    rfl

theorem parts_ofText (t : String) : (ofText t).parts = partsOf (pieces t) := by
  rw [ofText, cut_eq_splitOn]
  rfl

theorem rootOf_eq_here_iff (n : ℕ) : rootOf n = .here ↔ n = 0 := by
  unfold rootOf
  split <;> simp_all

theorem root_ofText_eq_here_iff (t : String) : (ofText t).root = .here ↔ ¬ Absolute t := by
  have hroot : (ofText t).root = rootOf (t.toList.takeWhile (· == '/')).length := rfl
  rw [hroot, rootOf_eq_here_iff, List.length_eq_zero_iff, Absolute]
  cases t.toList with
  | nil => simp
  | cons c cs => by_cases hc : c = '/' <;> simp [hc]

/-! ## Where names lead -/

theorem enter_ofList (h : IsName piece) (dir : List String) :
    enter dir (String.ofList piece) = dir ++ [String.ofList piece] := by
  have hne : String.ofList piece ≠ ".." := fun hup => h.2 (String.ofList_injective hup)
  rw [enter, if_neg (by simpa using hne)]

theorem foldl_enter_of_not_mem (dir : List String) {names : List String} (h : ".." ∉ names) :
    names.foldl enter dir = dir ++ names := by
  induction names generalizing dir with
  | nil => simp
  | cons name names ih =>
    rw [List.mem_cons, not_or] at h
    rw [List.foldl_cons, ih _ h.2, enter, if_neg (by simpa using Ne.symm h.1), List.append_assoc, List.singleton_append]

/-- names are followed from the current directory, unless they start at the top -/
theorem resolve_eq {cwd : Path} (hcwd : cwd.FromTop) (p : Path) :
    p.resolve cwd = p.parts.foldl enter (if p.root = .here then cwd.parts else []) := by
  have hstart : (if p.root = .here then cwd.parts else []).foldl enter [] = if p.root = .here
    then cwd.parts else [] := by
    rw [foldl_enter_of_not_mem, List.nil_append]
    split_ifs
    · exact hcwd.parts
    · exact List.not_mem_nil
  simp only [resolve, beq_iff_eq]
  rw [List.foldl_append, hstart]

end Path

namespace Disk

open MakeAtlas.Path

variable {d : Disk} {dir parts file names : List String} {ps : List (List Char)} {cwd p : Path} {e : DiskEntry}

theorem mem_of_found {name : String} (h : d.entry? (dir ++ [name]) = some e) : (dir ++ [name], e) ∈ d := by
  unfold entry? at h
  rw [if_neg (by simp)] at h
  obtain ⟨before, after, hd, -⟩ := List.lookup_eq_some_iff.1 h
  rw [hd]
  exact List.mem_append_right _ List.mem_cons_self

theorem FreeOfNul.not_mem (hd : d.FreeOfNul) {name : String} (h : d.entry? (dir ++ [name]) = some e) :
    Char.ofNat 0 ∉ name.toList :=
  hd _ (mem_of_found h) name (by simp)

theorem Follows.foldl_enter (h : d.Follows file dir ps) : (partsOf ps).foldl Path.enter dir = file := by
  induction h with
  | stay hpiece _ ih => rw [partsOf_cons_of_stays hpiece, ih]
  | up _ ih =>
    rw [partsOf_cons_of_not_stays (by decide), List.foldl_cons]
    exact ih
  | enter hname _ _ ih => rw [partsOf_cons_of_not_stays hname.1, List.foldl_cons, enter_ofList hname, ih]
  | reach hname _ hfile hrest =>
    rw [partsOf_cons_of_not_stays hname.1, partsOf_eq_nil hrest, List.foldl_cons, enter_ofList hname,
      List.foldl_nil, hfile]

theorem Follows.free_of_nul (hd : d.FreeOfNul) (h : d.Follows file dir ps) :
    ∀ name ∈ partsOf ps, Char.ofNat 0 ∉ name.toList := by
  induction h with
  | stay hpiece _ ih => rwa [partsOf_cons_of_stays hpiece]
  | up _ ih =>
    rw [partsOf_cons_of_not_stays (by decide), List.forall_mem_cons]
    exact ⟨by decide, ih⟩
  | enter hname hentry _ ih =>
    rw [partsOf_cons_of_not_stays hname.1, List.forall_mem_cons]
    exact ⟨hd.not_mem hentry, ih⟩
  | reach hname hentry _ hrest =>
    rw [partsOf_cons_of_not_stays hname.1, partsOf_eq_nil hrest, List.forall_mem_singleton]
    exact hd.not_mem hentry

/-- a walk ends where its names resolve to, and at a file of the disk if at a file -/
theorem ends_of_walk (h : d.walk dir parts = .ok (names, e)) :
    parts.foldl enter dir = names ∧ (e = .directory ∨ (names, e) ∈ d) := by
  induction parts generalizing dir with
  | nil =>
    cases h
    exact ⟨rfl, .inl rfl⟩
  | cons name rest ih =>
    rw [walk] at h
    rw [List.foldl_cons, enter]
    by_cases hup : name = ".."
    · rw [if_pos (by simpa using hup)] at h ⊢
      exact ih h
    · rw [if_neg (by simpa using hup)] at h ⊢
      by_cases hlong : nameLimit < Text.Utf8.size name.toList
      · rw [if_pos hlong] at h
        cases h
      · rw [if_neg hlong] at h
        split at h
        next => cases h
        next => exact ih h
        next hentry =>
          split_ifs at h with hrest
          cases h
          rw [List.isEmpty_iff.1 hrest]
          exact ⟨rfl, .inr (mem_of_found hentry)⟩

/-- what is found at a path is where the path resolves to -/
theorem ends_of_find (hcwd : cwd.FromTop) (h : d.find cwd p = .ok (names, e)) :
    p.resolve cwd = names ∧ (e = .directory ∨ (names, e) ∈ d) := by
  unfold find at h
  split_ifs at h with hlong hroot
  · rw [resolve_eq hcwd, if_pos (by simpa using hroot)]
    exact ends_of_walk h
  · rw [resolve_eq hcwd, if_neg (by simpa using hroot)]
    exact ends_of_walk h

end Disk

/-! ## Where texts lead -/

namespace Surroundings

open MakeAtlas.Path

variable {s : Surroundings} {d : Disk} {file : List String} {t home : String} {user : List Char}

theorem HomeOf.homeNamed (h : s.HomeOf user home) : s.homeNamed user = .ok (ofText home) := by
  cases h with
  | own => rfl
  | account hne hnul haccount => simp [Surroundings.homeNamed, hne, hnul, haccount]

theorem start_ofText (s : Surroundings) (t : String) :
    (if (ofText t).root = .here then s.cwd.parts else []) = s.startOf t := by
  rw [startOf]
  by_cases ht : Absolute t
  · rw [if_pos ht, if_neg ((root_ofText_eq_here_iff t).not.2 (not_not.2 ht))]
  · rw [if_neg ht, if_pos ((root_ofText_eq_here_iff t).2 ht)]

/-- a tilde in front of a text that is not absolute is replaced -/
theorem expandHome_of_tilde {dots rest : List (List Char)} (hrelative : ¬ Absolute t)
    (hpieces : pieces t = dots ++ ('~' :: user) :: rest) (hdots : ∀ dot ∈ dots, Stays dot)
    (hhome : s.HomeOf user home) :
    s.expandHome (ofText t) = .ok { ofText home with parts := partsOf (pieces home ++ rest) } := by
  have hroot := (root_ofText_eq_here_iff t).2 hrelative
  have hparts : (ofText t).parts = String.ofList ('~' :: user) :: partsOf rest := by
    rw [parts_ofText, hpieces, partsOf_append, partsOf_eq_nil hdots, partsOf_cons_of_not_stays (by simp [Stays])]
    rfl
  simp [expandHome, hroot, hparts, hhome.homeNamed, partsOf_append, parts_ofText]

/-- without a tilde in front a text is kept -/
theorem expandHome_of_plain
    (hplain : ∀ dots user rest, pieces t = dots ++ ('~' :: user) :: rest → (∀ dot ∈ dots, Stays dot) → Absolute t) :
    s.expandHome (ofText t) = .ok (ofText t) := by
  unfold expandHome
  split
  next first parts hroot hparts =>
    split
    next user hfirst =>
      rw [parts_ofText] at hparts
      obtain ⟨dots, piece, rest, hpieces, hdots, rfl⟩ := exists_first_of_partsOf hparts
      rw [String.toList_ofList] at hfirst
      exact absurd (hplain dots user rest (hfirst ▸ hpieces) hdots) ((root_ofText_eq_here_iff t).1 hroot)
    next => rfl
  next => rfl

/-- **A text that leads to a file resolves to it.** -/
theorem exists_expandHome_of_spells (hcwd : s.cwd.FromTop) (hd : d.FreeOfNul) (h : s.Spells d file t) :
    ∃ p, s.expandHome (ofText t) = .ok p ∧ p.hasNul = false ∧ p.resolve s.cwd = file := by
  obtain ⟨p, root, ps, hexpand, hroot, hparts, hfollows⟩ : ∃ (p : Path) (root : String) (ps : List (List Char)),
      s.expandHome (ofText t) = .ok p ∧ p.root = (ofText root).root ∧ p.parts = partsOf ps ∧
        d.Follows file (s.startOf root) ps := by
    cases h with
    | plain hplain h => exact ⟨_, t, pieces t, expandHome_of_plain hplain, rfl, parts_ofText t, h⟩
    | home hrelative hpieces hdots hhome h =>
      exact ⟨_, _, _, expandHome_of_tilde hrelative hpieces hdots hhome, rfl, rfl, h⟩
  refine ⟨p, hexpand, ?_, ?_⟩
  · rw [hasNul, hparts, List.any_eq_false]
    intro name hname
    simpa using hfollows.free_of_nul hd name hname
  · rw [resolve_eq hcwd, hroot, hparts, start_ofText]
    exact hfollows.foldl_enter

end Surroundings

end MakeAtlas
