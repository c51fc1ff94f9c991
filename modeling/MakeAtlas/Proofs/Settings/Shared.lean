/-
A settings file that is the user's and the project's. The project's file can be named in many ways: by an option, by a
variable, or by standing in the current directory. However the user's own file is named there, it counts once.
- `NamesProject`: what is around the program names a file of the disk as the project's.
- `chosen?_of_names`: it is chosen as a path without NUL that resolves to the names of that file, or looked for where it
  stands.
- `run_locate_of_shared`: when the file is the user's, the project is left without one.
- `loadMerged_of_shared`: so the settings in force are those of the user's file alone, or its failure.
Witness: `shelf`, where a file with a custom rule is named by an option with a tilde, by a variable from the current
directory, and by standing there.
-/
import MakeAtlas.Load
import MakeAtlas.Machine
import MakeAtlas.Proofs.Workspace.Spelling

namespace MakeAtlas.Settings

/-- A file of the disk is named as the project's: by the text of an option, else by that of the variable, unless it is
empty, else by standing in the current directory. -/
inductive NamesProject (s : Surroundings) (d : Disk) (file : List String) : Option String → Prop
  | option {t : String} (h : s.Spells d file t) : NamesProject s d file (some t)
  | environment {t : String} (hvalue : s.environment.value? fileVariable = some t) (hne : t ≠ "")
    (h : s.Spells d file t) :
    NamesProject s d file none
  | current (hvalue : ∀ t, s.environment.value? fileVariable = some t → t = "")
    (hfile : file = s.cwd.parts ++ [fileName]) :
    NamesProject s d file none

def userFile (s : Surroundings) : Path := s.homePath.below fileName

section

variable [Machine] {m : Type → Type} [Monad m] [LawfulMonad m]

/-- without a file of the project the user's file counts as it is -/
theorem loadBoth_none (h : Host m) (env : Environment) (user : Path) :
    loadBoth h env (some user) none = load h env user := by
  rw [← bind_pure (load h env user)]
  simp only [loadBoth, loadOptional, bind_assoc, pure_bind]
  refine bind_congr fun loaded => ?_
  obtain ⟨result, n⟩ := loaded
  cases result <;> rfl

end

section

variable {s : Surroundings} {d : Disk} {file : List String} {bytes : List UInt8} {explicit : Option String}
  {p user : Path}

theorem distinct_of_resolve (hnul : p.hasNul = false) (h : p.resolve s.cwd = user.resolve s.cwd) :
    distinct s (some user) (some p) = .ok none := by
  simp [distinct, hnul, h]

theorem distinct_none (s : Surroundings) (user : Option Path) : distinct s user none = .ok none := by
  cases user <;> rfl

theorem run_fileBelow? (d : Disk) (cwd dir : Path) : (fileBelow? (Disk.host cwd) dir).run d =
    pure (match d.look cwd (dir.below fileName) with
      | .file _ => some (dir.below fileName)
      | .unreadable _ => some (dir.below fileName)
      | _ => none, d) := by
  simp only [fileBelow?, Disk.host, StateT.run_bind]
  cases hlook : d.look cwd (dir.below fileName) <;> simp [hlook]

theorem run_load [Machine] (env : Environment) (hnul : p.hasNul = false)
    (h : d.find s.cwd p = .ok (file, .file bytes)) :
    (load (Disk.host s.cwd) env p).run d = pure (ofBytes env p bytes, d) := by
  have hlook : d.look s.cwd p = .file bytes := by rw [Disk.look, h]
  simp [load, hnul, Disk.host, hlook, ofLook]

/-- what names a file is chosen and resolves to it, or nothing is chosen and the file stands in the current directory -/
theorem chosen?_of_names (hcwd : s.cwd.FromTop) (hd : d.FreeOfNul) (h : NamesProject s d file explicit) :
    (∃ p, chosen? s (explicit.map Path.ofText) = .ok (some p) ∧ p.hasNul = false ∧ p.resolve s.cwd = file) ∨
      chosen? s (explicit.map Path.ofText) = .ok none ∧ file = s.cwd.parts ++ [fileName] := by
  cases h with
  | option h =>
    obtain ⟨p, hp, hnul, hresolve⟩ := Surroundings.exists_expandHome_of_spells hcwd hd h
    exact .inl ⟨p, by simp [chosen?, hp], hnul, hresolve⟩
  | environment hvalue hne h =>
    obtain ⟨p, hp, hnul, hresolve⟩ := Surroundings.exists_expandHome_of_spells hcwd hd h
    exact .inl ⟨p, by simp [chosen?, hvalue, hne, hp], hnul, hresolve⟩
  | current hvalue hfile =>
    refine .inr ⟨?_, hfile⟩
    cases hv : s.environment.value? fileVariable with
    | none => simp [chosen?, hv]
    | some t => simp [chosen?, hv, hvalue t hv]

/-- a file of the disk that stands in the current directory is found there under its own names -/
theorem resolve_below_cwd (hcwd : s.cwd.FromTop) (hd : d.FreeOfNul)
    (hmem : (s.cwd.parts ++ [fileName], DiskEntry.file bytes) ∈ d) :
    (s.cwd.below fileName).hasNul = false ∧ (s.cwd.below fileName).resolve s.cwd = s.cwd.parts ++ [fileName] := by
  have hparts : (s.cwd.below fileName).parts = s.cwd.parts ++ [fileName] := rfl
  constructor
  · rw [Path.hasNul, hparts, List.any_eq_false]
    intro name hname
    simpa using hd _ hmem name hname
  · have hup : ".." ∉ s.cwd.parts ++ [fileName] := by
      rw [List.mem_append, not_or]
      exact ⟨hcwd.parts, by decide⟩
    rw [Path.resolve_eq hcwd, hparts, Path.foldl_enter_of_not_mem _ hup]
    exact (congrArg (· ++ _) (if_neg hcwd.root)).trans (List.nil_append _)

/-- **The user's file is no file of the project.** -/
theorem run_locate_of_shared (hcwd : s.cwd.FromTop) (hd : d.FreeOfNul)
    (huser : d.find s.cwd (userFile s) = .ok (file, .file bytes)) (hproject : NamesProject s d file explicit) :
    (locate (Disk.host s.cwd) s (explicit.map Path.ofText)).run d = pure (.ok (some (userFile s), none), d) := by
  obtain ⟨hresolve, hdir | hmem⟩ := Disk.ends_of_find hcwd huser
  · cases hdir
  have hfound : (fileBelow? (Disk.host s.cwd) s.homePath).run d = pure (some (userFile s), d) := by
    have hlook : d.look s.cwd (s.homePath.below fileName) = .file bytes := by
      rw [Disk.look, show d.find s.cwd (s.homePath.below fileName) = _ from huser]
    rw [run_fileBelow?, hlook]
    rfl
  rw [locate, StateT.run_bind, hfound, pure_bind]
  rcases chosen?_of_names hcwd hd hproject with ⟨p, hchosen, hnul, hp⟩ | ⟨hchosen, rfl⟩
  · simp [hchosen, distinct_of_resolve hnul (hp.trans hresolve.symm), Except.map]
  · -- the file in the current directory is looked at once more, and whatever is found there is the user's file
    obtain ⟨hnul, hp⟩ := resolve_below_cwd hcwd hd hmem
    have hdistinct := distinct_of_resolve hnul (hp.trans hresolve.symm)
    simp only [hchosen, StateT.run_bind, run_fileBelow?, pure_bind]
    split <;> simp [hdistinct, distinct_none, Except.map]

/-- **A settings file is never laid over itself.** On a disk where the user's file is there, and is also named as the
project's, by whatever text or by standing in the current directory, the project has no file, and the settings in force
come to what the user's file alone comes to. -/
theorem loadMerged_of_shared [Machine] (hcwd : s.cwd.FromTop) (hd : d.FreeOfNul)
    (huser : d.find s.cwd (userFile s) = .ok (file, .file bytes)) (hproject : NamesProject s d file explicit) :
    (locate (Disk.host s.cwd) s (explicit.map Path.ofText)).run d = pure (.ok (some (userFile s), none), d) ∧
      (loadMerged (Disk.host s.cwd) s (explicit.map Path.ofText)).run d =
        (load (Disk.host s.cwd) s.env (userFile s)).run d := by
  have hlocate := run_locate_of_shared hcwd hd huser hproject
  refine ⟨hlocate, ?_⟩
  rw [loadMerged, StateT.run_bind, hlocate, pure_bind]
  exact congrArg (StateT.run · d) (loadBoth_none _ _ _)

end

/-- a custom rule -/
def shelfBytes : List UInt8 := Text.Utf8.encode "safety:\n  custom_rules:\n    - id: r\n      patterns: [x]\n".toList

/-- a user with this rule, and a project without a file -/
def shelf : Disk :=
  [(["home"], .directory), (["home", "u"], .directory), (["home", "u", fileName], .file shelfBytes),
    (["work"], .directory)]

def atWork : Surroundings :=
  { cwd := ⟨.top, ["work"]⟩, home := "/home/u/", environment := [(fileVariable, "./..//home/u/.lazymake.yaml")] }

def atHome : Surroundings := { cwd := ⟨.top, ["home", "u"]⟩, home := "/home/u/" }

theorem follows_home : shelf.Follows ["home", "u", fileName] [] [[], "home".toList, ['u'], fileName.toList] :=
  .stay (by decide) (.enter (by decide) rfl (.enter (by decide) rfl (.reach (by decide) rfl rfl (by simp))))

/-- up from the home directory and down again, with a dot on the way -/
theorem spells_tilde : atWork.Spells shelf ["home", "u", fileName] "~/../u/./.lazymake.yaml" := by
  have hpieces : pieces "~/../u/./.lazymake.yaml" = [] ++ ['~'] :: [['.', '.'], ['u'], ['.'], fileName.toList] := by
    decide
  refine .home (by decide) hpieces (by simp) .own ?_
  have hhome : pieces atWork.home = [[], "home".toList, ['u'], []] := by decide
  rw [hhome]
  exact .stay (by decide) (.enter (by decide) rfl
    (.enter (by decide) rfl (.stay (by decide) (.up (.enter (by decide) rfl
    (.stay (by decide) (.reach (by decide) rfl rfl (by simp))))))))

/-- up from the current directory, with a dot in front and a slash too many -/
theorem spells_variable : atWork.Spells shelf ["home", "u", fileName] "./..//home/u/.lazymake.yaml" := by
  have hpieces : pieces "./..//home/u/.lazymake.yaml" = [['.'], ['.', '.'], [], "home".toList, ['u'],
    fileName.toList] := by decide
  have hplain : ∀ piece ∈ pieces "./..//home/u/.lazymake.yaml", piece.head? ≠ some '~' := by decide
  refine .plain (fun dots user rest h _ => ?_) ?_
  · exact absurd rfl (hplain ('~' :: user) (by rw [h]; simp))
  · rw [hpieces]
    exact .stay (by decide) (.up follows_home)

theorem find_shelf {s : Surroundings} (hhome : s.home = "/home/u/") :
    shelf.find s.cwd (userFile s) = .ok (["home", "u", fileName], .file shelfBytes) := by
  have hpath : userFile s = ⟨.top, ["home", "u", fileName]⟩ := by
    rw [userFile, Surroundings.homePath, hhome]
    decide +kernel
  rw [hpath]
  rfl

/-- the rule is given once in the file -/
theorem load_shelf : ∃ n, (load (Disk.host atHome.cwd) [] (userFile atHome)).run shelf =
    pure (⟨.ok { safety := some { customRules := some [{ id := "r", patterns := some ["x"] }] } }, n⟩, shelf) := by
  have hrule : (ofBytes [] (userFile atHome) shelfBytes).result =
      .ok { safety := some { customRules := some [{ id := "r", patterns := some ["x"] }] } } := by decide +kernel
  have hnul : (userFile atHome).hasNul = false := by decide +kernel
  have hload := run_load (s := atHome) [] hnul (find_shelf rfl)
  generalize ofBytes [] (userFile atHome) shelfBytes = loaded at hrule hload
  obtain ⟨result, n⟩ := loaded
  cases hrule
  exact ⟨n, hload⟩

theorem loadMerged_of_shared_shelf :
    (atWork.cwd.FromTop ∧ shelf.FreeOfNul ∧
      shelf.find atWork.cwd (userFile atWork) = .ok (["home", "u", fileName], .file shelfBytes) ∧
      ∀ explicit ∈ [some "~/../u/./.lazymake.yaml", none], NamesProject atWork shelf ["home", "u", fileName] explicit ∧
        (locate (Disk.host atWork.cwd) atWork (explicit.map Path.ofText)).run shelf =
          pure (.ok (some (userFile atWork), none), shelf) ∧
        (loadMerged (Disk.host atWork.cwd) atWork (explicit.map Path.ofText)).run shelf =
          (load (Disk.host atWork.cwd) atWork.env (userFile atWork)).run shelf) ∧
      NamesProject atHome shelf ["home", "u", fileName] none ∧
      ∃ n, (loadMerged (Disk.host atHome.cwd) atHome none).run shelf =
        pure (⟨.ok { safety := some { customRules := some [{ id := "r", patterns := some ["x"] }] } }, n⟩, shelf) := by
  have hnul : shelf.FreeOfNul := by decide
  have hwork : atWork.cwd.FromTop := ⟨by decide, by decide⟩
  have hhome : atHome.cwd.FromTop := ⟨by decide, by decide⟩
  have hcurrent : NamesProject atHome shelf ["home", "u", fileName] none := .current (by simp [atHome]) rfl
  refine ⟨⟨hwork, hnul, find_shelf rfl, fun explicit hexplicit => ?_⟩, hcurrent, ?_⟩
  · have hnames : NamesProject atWork shelf ["home", "u", fileName] explicit := by
      rcases List.mem_cons.1 hexplicit with rfl | hlast
      · exact .option spells_tilde
      · rw [List.mem_singleton.1 hlast]
        exact .environment rfl (by decide) spells_variable
    exact ⟨hnames, loadMerged_of_shared hwork hnul (find_shelf rfl) hnames⟩
  · obtain ⟨n, hload⟩ := load_shelf
    exact ⟨n, (loadMerged_of_shared hhome hnul (find_shelf rfl) hcurrent).2.trans hload⟩

end MakeAtlas.Settings
