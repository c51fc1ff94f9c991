/-
What the bytes of a settings file come to, whatever the machine makes of texts and entries. A file is told about when
loading gives settings or a diagnosis that names the file. Some bytes have a failure that nobody has foreseen instead.
- `Unforeseen`: bytes of no text, values that cannot be built, parts of a document that fail otherwise than for want of
  a value, and entries that cannot be judged.
- `told_ofEntries`, `told_ofDocument`, `told_ofBytes`: one step of loading after the other.
- `loadMerged_of_reads`: a failure in a settings file that is read is the failure of all settings.
- `perform_of_failure`: and of every request about a makefile.
- `told_load_iff`: all other bytes are told about, and the status of every request is then that of wrong settings.
Witness: a variable without a value. Counterexample `stray_byte_breaks`: a byte that starts no character.
-/
import MakeAtlas.Command.Run
import MakeAtlas.Machine
import MakeAtlas.Proofs.Document.Shape
import MakeAtlas.Proofs.Text.Utf8

namespace MakeAtlas.Settings

open Command (Outcome Request Source answered perform)
open Document (Part expandMapping partsOfMapping)
open Text

/-! ## Bytes -/

/-- the failure names the file, and says that its settings are no good -/
def Tells (p : Path) (f : Failure) (message : String) : Prop :=
  f.diagnosis? = .ok ⟨.configInvalid, message, some p.text⟩

/-- settings, or a failure that tells about the file -/
def Told (p : Path) : Except Failure Settings → Prop
  | .ok _ => True
  | .error f => ∃ message, Tells p f message

/-- the document holds these entries; an empty one holds none -/
inductive Holds : Document → List (Document × Document) → Prop where
  | mapping (es : List (Document × Document)) : Holds (.mapping es) es
  | null : Holds .null []

section

variable [Machine]

/-- the text is that of a document with these entries -/
def Written (text : List Char) (es : List (Document × Document)) : Prop :=
  ∃ d, Machine.parse (unifyNewlines text) = .ok d ∧ Holds d es

/-- the bytes have a failure that nobody has foreseen -/
inductive Unforeseen (env : Environment) (bytes : List UInt8) : Prop
  /-- they are those of no text, and nothing is malformed in front of the first byte that is wrong -/
  | notText (hbytes : ∀ text, bytes ≠ Utf8.encode text) (hfault : Machine.undecoded bytes ≠ .malformed)
  /-- the text is well written, and holds a value that cannot be built -/
  | value (text : List Char) (fault : Yaml.Fault) (hbytes : bytes = Utf8.encode text)
    (hparse : Machine.parse (unifyNewlines text) = .error fault) (hfault : fault ≠ .malformed)
  /-- the first part that fails does not fail for want of a value -/
  | part (text : List Char) (es : List (Document × Document)) (before after : List Part) (p : Part) (f : ExpandFault)
    (hbytes : bytes = Utf8.encode text) (hwritten : Written text es)
    (hsplit : partsOfMapping Machine.calls env es = before ++ p :: after) (hbefore : ∀ q ∈ before, ∀ g, ¬ q.Fails env g)
    (hfails : p.Fails env f) (hother : ∀ name, f ≠ .unset name)
  /-- the entries cannot be judged -/
  | judging (text : List Char) (es fs : List (Document × Document)) (hbytes : bytes = Utf8.encode text)
    (hwritten : Written text es)
    (hexpand : expandMapping Machine.calls env es = .ok fs) (hjudge : (Machine.judge fs).result = .error .broken)

/-- entries that cannot be expanded or judged, in a way that is not told about -/
def Fatal (env : Environment) (es : List (Document × Document)) : Prop :=
  (∃ f, expandMapping Machine.calls env es = .error f ∧ ∀ name, f ≠ .unset name) ∨
    ∃ fs, expandMapping Machine.calls env es = .ok fs ∧ (Machine.judge fs).result = .error .broken

end

section

variable {env : Environment} {p : Path} {es : List (Document × Document)} {d : Document} {bytes : List UInt8}

theorem told_refused (p : Path) (message : String) : Told p (Loaded.refused p message).result := ⟨message, rfl⟩

theorem not_told_broken (p : Path) (b : Breakdown) : ¬ Told p (.error (.broken b)) := by
  rintro ⟨message, h⟩
  cases h

theorem told_mapError {r : Except Refusal Settings} : Told p (r.mapError (refusalAt p)) ↔ r ≠ .error .broken := by
  cases r with
  | ok s => exact iff_of_true trivial (by simp)
  | error refusal =>
    cases refusal with
    | misfits issues => exact iff_of_true ⟨_, rfl⟩ (by simp)
    | broken => exact iff_of_false (not_told_broken p _) (by simp)

theorem told_faultAt {f : ExpandFault} : Told p (.error (faultAt p f)) ↔ ∃ name, f = .unset name := by
  cases f with
  | unset name => exact iff_of_true ⟨_, rfl⟩ ⟨name, rfl⟩
  | unwritable name => exact iff_of_false (not_told_broken p _) (by simp)
  | tooDeep => exact iff_of_false (not_told_broken p _) (by simp)

theorem told_unparsed {fault : Yaml.Fault} : Told p (unparsed p fault).result ↔ fault = .malformed := by
  cases fault with
  | malformed => exact iff_of_true (told_refused p _) rfl
  | _ => exact iff_of_false (not_told_broken p _) (by simp)

variable [Machine]

theorem told_ofEntries : Told p (ofEntries env p es).result ↔ ¬ Fatal env es := by
  unfold ofEntries Fatal
  cases hexpand : expandMapping Machine.calls env es with
  | error f =>
    change Told p (.error (faultAt p f)) ↔ _
    rw [told_faultAt]
    simp
  | ok fs =>
    change Told p ((Machine.judge fs).result.mapError (refusalAt p)) ↔ _
    rw [told_mapError]
    simp

theorem told_ofDocument : Told p (ofDocument env p d).result ↔ ∀ es, Holds d es → ¬ Fatal env es := by
  cases d with
  | mapping es =>
    refine told_ofEntries.trans ⟨fun h fs hfs => ?_, fun h => h es (.mapping es)⟩
    cases hfs
    exact h
  | null =>
    refine told_ofEntries.trans ⟨fun h fs hfs => ?_, fun h => h [] .null⟩
    cases hfs
    exact h
  | _ => exact iff_of_true (told_refused p _) fun es hes => nomatch hes

theorem unforeseen_encode_iff {text : List Char} : Unforeseen env (Utf8.encode text) ↔
    (∃ fault, Machine.parse (unifyNewlines text) = .error fault ∧ fault ≠ .malformed) ∨ ∃ es, Written text es ∧
    Fatal env es := by
  constructor
  · rintro (⟨hno, -⟩ | ⟨text', fault, hbytes, hparse, hfault⟩ |
      ⟨text', es, before, after, p, f, hbytes, hwritten, hsplit, hbefore, hfails, hother⟩ |
      ⟨text', es, fs, hbytes, hwritten, hexpand, hjudge⟩)
    · exact absurd rfl (hno text)
    · rw [Utf8.encode_injective hbytes]
      exact .inl ⟨fault, hparse, hfault⟩
    · rw [Utf8.encode_injective hbytes]
      have herror := Document.expandMapping_eq_error_iff.2 ⟨before, p, after, hsplit, hbefore, hfails⟩
      exact .inr ⟨es, hwritten, .inl ⟨f, herror, hother⟩⟩
    · rw [Utf8.encode_injective hbytes]
      exact .inr ⟨es, hwritten, .inr ⟨fs, hexpand, hjudge⟩⟩
  · rintro (⟨fault, hparse, hfault⟩ | ⟨es, hwritten, ⟨f, herror, hother⟩ | ⟨fs, hexpand, hjudge⟩⟩)
    · exact .value text fault rfl hparse hfault
    · obtain ⟨before, p, after, hsplit, hbefore, hfails⟩ := Document.expandMapping_eq_error_iff.1 herror
      exact .part text es before after p f rfl hwritten hsplit hbefore hfails hother
    · exact .judging text es fs rfl hwritten hexpand hjudge

theorem told_ofBytes_encode {text : List Char} :
    Told p (ofBytes env p (Utf8.encode text)).result ↔ ¬ Unforeseen env (Utf8.encode text) := by
  rw [unforeseen_encode_iff, ofBytes, Utf8.decode?_encode]
  simp only [Written]
  cases Machine.parse (unifyNewlines text) with
  | ok d => simpa using told_ofDocument
  | error fault => simpa using told_unparsed

theorem told_ofBytes : Told p (ofBytes env p bytes).result ↔ ¬ Unforeseen env bytes := by
  cases htext : Utf8.decode? bytes with
  | none =>
    have hno : ∀ text, bytes ≠ Utf8.encode text := by
      intro text hbytes
      rw [Utf8.decode?_eq_some_iff.2 hbytes] at htext
      cases htext
    have hunforeseen : Unforeseen env bytes ↔ Machine.undecoded bytes ≠ .malformed := by
      refine ⟨fun h => ?_, .notText hno⟩
      cases h with
      | notText _ hfault => exact hfault
      | _ => exact absurd ‹bytes = _› (hno _)
    rw [ofBytes, htext, hunforeseen, not_not]
    exact told_unparsed
  | some text =>
    rw [Utf8.decode?_eq_some_iff.1 htext]
    exact told_ofBytes_encode

end

/-! ## Requests -/

def source? : Request → Option Source
  | .list source _ => some source
  | .graph source _ _ _ => some source
  | .check source _ => some source
  | _ => none

section

variable [Machine] {m : Type → Type} [Monad m] [LawfulMonad m] {h : Host m} {around : Surroundings}
  {p : Path} {f : Failure}

/-- the settings file is read: it is the user's, or it is the project's and nothing is wrong with the user's -/
def Reads (h : Host m) (around : Surroundings) (explicit : Option Path) (p : Path) : Prop :=
  ∃ user project, locate h around explicit = pure (.ok (user, project)) ∧
    (user = some p ∨ project = some p ∧ ∀ u ∈ user, ∃ s n, load h around.env u = pure ⟨.ok s, n⟩)

/-- a failure in a settings file that is read is the failure of all settings -/
theorem loadMerged_of_reads {explicit : Option Path} {n : ℕ} (hread : Reads h around explicit p)
    (hload : load h around.env p = pure ⟨.error f, n⟩) :
    ∃ k, loadMerged h around explicit = pure ⟨.error f, k⟩ := by
  have hfailed : loadOptional h around.env (some p) = pure ⟨.error f, n⟩ := by
    simp [loadOptional, hload, Loaded.map, Except.map]
  obtain ⟨user, project, hlocate, rfl | ⟨rfl, huser⟩⟩ := hread
  · refine ⟨n, ?_⟩
    simp [loadMerged, hlocate, loadBoth, hfailed]
  · -- the user's file, if there is one, has been read before
    obtain ⟨lower, k, hlower⟩ : ∃ lower k, loadOptional h around.env user = pure ⟨.ok lower, k⟩ := by
      cases user with
      | none => exact ⟨none, 0, rfl⟩
      | some u =>
        obtain ⟨s, k, hu⟩ := huser u rfl
        exact ⟨some s, k, by simp [loadOptional, hu, Loaded.map, Except.map]⟩
    refine ⟨k + n, ?_⟩
    simp [loadMerged, hlocate, loadBoth, hlower, hfailed, Except.map]

theorem perform_of_failure {source : Source} {r : Request} {n : ℕ} (hr : source? r = some source)
    (hload : loadMerged h around source.settings = pure ⟨.error f, n⟩) :
    perform h around r = pure (Outcome.ofFailure Outcome.wrong f) := by
  have hanswered : ∀ answer, answered h around source answer = pure (Outcome.ofFailure Outcome.wrong f) := by
    intro answer
    rw [answered, hload, pure_bind]
  cases r with
  | list | graph | check =>
    obtain rfl := Option.some.inj hr
    rw [perform]
    exact hanswered _
  | _ => cases hr

theorem load_of_look {bytes : List UInt8} (env : Environment) (hnul : p.hasNul = false)
    (hlook : h.look p = pure (.file bytes)) :
    load h env p = pure (ofBytes env p bytes) := by
  simp [load, hnul, hlook, ofLook]

/-- **All bytes but the unforeseen ones are told about.** Then a request that reads the file ends with the status of
wrong settings, unless the file holds settings. -/
theorem told_load_iff (h : Host m) (env : Environment) {p : Path} {bytes : List UInt8} (hnul : p.hasNul = false)
    (hlook : h.look p = pure (.file bytes)) :
    ∃ l, load h env p = pure l ∧ (Told p l.result ↔ ¬ Unforeseen env bytes) ∧
      ∀ around source r f message, around.env = env → Reads h around source.settings p → source? r = some source →
        l.result = .error f → Tells p f message →
          perform h around r = pure (.ok
            (.told Outcome.wrong (Diagnosis.text ⟨.configInvalid, message, some p.text⟩))) := by
  have hload := load_of_look env hnul hlook
  refine ⟨_, hload, told_ofBytes, ?_⟩
  rintro around source r f message rfl hread hr hf htells
  have hfailed : load h around.env p = pure ⟨.error f, (ofBytes around.env p bytes).unknownSeverities⟩ := by
    rw [hload, ← hf]
  obtain ⟨n, hmerged⟩ := loadMerged_of_reads hread hfailed
  rw [perform_of_failure hr hmerged, Outcome.ofFailure, htells]
  rfl

end

/-- a host that finds one file and nothing else -/
def lone (p : Path) (bytes : List UInt8) : Host Id :=
  ⟨fun q => pure (if q = p then .file bytes else .fault .missing), fun _ _ => pure none⟩

theorem look_lone (p : Path) (bytes : List UInt8) :
    (lone p bytes).look p = pure (.file bytes) := congrArg pure (if_pos rfl)

/-- a settings file that is named in a request for a check -/
def named : Path := ⟨.here, ["c.yaml"]⟩

def workplace : Surroundings := { cwd := ⟨.top, ["work"]⟩, home := "/home/u" }

def namedCheck : Request := .check { settings := some named } false

theorem reads_named (bytes : List UInt8) : Reads (lone named bytes) workplace (some named) named := by
  refine ⟨none, some named, ?_, .inr ⟨rfl, by simp⟩⟩
  have hhome : workplace.homePath.below fileName ≠ named := by decide +kernel
  have hkept : workplace.expandHome named = .ok named := rfl
  simp [locate, fileBelow?, lone, hhome, chosen?, hkept, distinct, Except.map]

/-- a variable that has no value -/
def unsetBytes : List UInt8 := Utf8.encode "makefile: $\x7bNOPE\x7d\n".toList

theorem ofBytes_unset : (ofBytes [] named unsetBytes).result = .error (.unset "c.yaml" (.ofString "NOPE")) := by
  decide +kernel

/-- a variable without a value is told about, with the status of wrong settings -/
theorem told_load_iff_unset : named.hasNul = false ∧ (lone named unsetBytes).look named = pure (.file unsetBytes) ∧
    ∃ l, load (lone named unsetBytes) [] named = pure l ∧ (Told named l.result ↔ ¬ Unforeseen [] unsetBytes) ∧
    Told named l.result ∧
      perform (lone named unsetBytes) workplace namedCheck =
        pure (.ok (.told 2 "[c.yaml] [CONFIG_INVALID] Environment variable 'NOPE' not set")) := by
  have hnul : named.hasNul = false := by decide
  obtain ⟨l, hload, htold, hperform⟩ := told_load_iff (lone named unsetBytes) [] hnul (look_lone named unsetBytes)
  have hresult : l.result = .error (.unset "c.yaml" (.ofString "NOPE")) := by
    have hsame : (pure l : Id _) = pure (ofBytes [] named unsetBytes) :=
      hload.symm.trans (load_of_look [] hnul (look_lone named unsetBytes))
    rw [show l = ofBytes [] named unsetBytes from hsame, ofBytes_unset]
  have htells : Tells named (.unset "c.yaml" (.ofString "NOPE")) "Environment variable 'NOPE' not set" := by
    have hpath : named.text = "c.yaml" := by decide +kernel
    have hname : Points.shown (.ofString "NOPE") = "NOPE" := by decide +kernel
    rw [Tells, hpath, Failure.diagnosis?, hname]
    rfl
  have htext : Diagnosis.text ⟨.configInvalid, "Environment variable 'NOPE' not set", some named.text⟩ =
      "[c.yaml] [CONFIG_INVALID] Environment variable 'NOPE' not set" := by decide +kernel
  refine ⟨hnul, look_lone named unsetBytes, l, hload, htold, ?_, ?_⟩
  · rw [hresult]
    exact ⟨_, htells⟩
  · rw [← htext]
    exact hperform workplace _ namedCheck _ _ rfl (reads_named _) rfl hresult htells

/-- a file with a byte that starts no character -/
def strayBytes : List UInt8 := [0x6D, 0x61, 0x6B, 0x65, 0x66, 0x69, 0x6C, 0x65, 0x3A, 0x20, 0xFF, 0x0A]

/-- **A stray byte is not told about.** -/
theorem stray_byte_breaks : ¬ ∀ (h : Host Id) (env : Environment) (p : Path) (bytes : List UInt8),
    p.hasNul = false → h.look p = pure (.file bytes) → ∃ l, load h env p = pure l ∧ Told p l.result := by
  intro hall
  have hnul : named.hasNul = false := by decide
  obtain ⟨l, hload, htold⟩ := hall (lone named strayBytes) [] named strayBytes hnul (look_lone named strayBytes)
  have hsame : (pure l : Id _) = pure (ofBytes [] named strayBytes) :=
    hload.symm.trans (load_of_look [] hnul (look_lone named strayBytes))
  have hbroken : (ofBytes [] named strayBytes).result = .error (.broken (.yaml .undecodable)) := by decide +kernel
  rw [show l = ofBytes [] named strayBytes from hsame, hbroken] at htold
  exact not_told_broken named _ htold

end MakeAtlas.Settings
