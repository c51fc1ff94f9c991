/-
References to variables, in two ways. As a pattern, every leftmost match of which gives way to a value; and as one scan
of the text, which takes a reference where one begins and else one character. Both come to the same, and what is put in
for a reference is not read again.
- `Begins`, `cases_of_not_begins`: a reference at the head of a text, and what stands there otherwise.
- `Scans`, `exists_scans`, `Scans.unique`: the scan cuts a text into pieces, in one way only.
- `expand_of_scans`: each piece gives way to its text, and the first that has none is the fault.
- `find_eq_unset_iff`, `find_eq_unwritable_iff`: a name has no value, or it cannot be written in bytes.
- `referenceNode`, `matchHere_of_begins`, `matchHere_of_not_begins`: the pattern matches just where a reference begins,
  and takes just the reference.
- `replaceFrom_reference`: so replacing its matches expands the text.
- `scans_expand`: the scan, the faults, the pattern and the expansion of a text.
Counterexample `lone_half_breaks`: a name that is half of a surrogate pair.
-/
import MakeAtlas.Document.Variables
import MakeAtlas.Pattern.Reader
import MakeAtlas.Proofs.Pattern.Replacing
import MakeAtlas.Proofs.Text.Blank

namespace MakeAtlas

/-! ## Faults -/

def faultOf {α : Type} : Except ExpandFault α → Option ExpandFault
  | .ok _ => none
  | .error f => some f

section

variable {α β γ : Type}

theorem faultOf_eq_some_iff {r : Except ExpandFault α} {f : ExpandFault} : faultOf r = some f ↔ r = .error f := by
  cases r <;> simp [faultOf]

theorem faultOf_eq_none_iff {r : Except ExpandFault α} : faultOf r = none ↔ ∃ x, r = .ok x := by
  cases r <;> simp [faultOf]

theorem faultOf_bind (a : Except ExpandFault α) (g : α → β) : faultOf (do return g (← a)) = faultOf a := by
  cases a <;> rfl

/-- of two steps, one after the other, the first that fails gives the fault -/
theorem faultOf_bind_bind (a : Except ExpandFault α) (b : Except ExpandFault β) (g : α → β → γ) :
    faultOf (do
      let x ← a
      return g x (← b)) = (faultOf a).or (faultOf b) := by
  cases a with
  | error f => rfl
  | ok x => exact faultOf_bind b (g x)

theorem faultOf_mapM (g : α → Except ExpandFault β) (l : List α) :
    faultOf (l.mapM g) = l.findSome? fun a => faultOf (g a) := by
  induction l with
  | nil => rfl
  | cons a l ih =>
    rw [List.mapM_cons, faultOf_bind_bind, ih, List.findSome?_cons]
    cases faultOf (g a) <;> rfl

theorem mapM_eq_ok_iff {g : α → Except ExpandFault β} {l : List α} {ts : List β} :
    l.mapM g = .ok ts ↔ List.Forall₂ (fun a t => g a = .ok t) l ts := by
  induction l generalizing ts with
  | nil => simp [pure, Except.pure, eq_comm]
  | cons a l ih =>
    rw [List.mapM_cons, List.forall₂_cons_left_iff]
    cases hhead : g a with
    | error e => simp [bind, Except.bind]
    | ok b =>
      cases hl : l.mapM g with
      | error e => simp [bind, Except.bind, ← ih, hl]
      | ok bs => simp [bind, Except.bind, pure, Except.pure, ← ih, hl, eq_comm]

end

namespace Environment

open Pattern (Node Spot Single code)
open Text

/-! ## Pieces -/

/-- a reference with this name begins the text, and `rest` stands behind it: a dollar sign and, in braces, a name that
is not empty -/
def Begins (name rest text : Points) : Prop :=
  name ≠ [] ∧ closing ∉ name ∧ text = dollar :: opening :: (name ++ closing :: rest)

/-- a piece of a text with variables -/
inductive Piece where
  | plain (p : CodePoint)
  | reference (name : Points)
  deriving DecidableEq

/-- the text that stands for a piece: a reference stands for the value of its name -/
inductive Stands (env : Environment) : Piece → Points → Prop where
  | plain (p : CodePoint) : Stands env (.plain p) [p]
  | reference {name : Points} {bytes value : List UInt8} (hname : name.encode? = some bytes)
    (hvalue : env.lookup bytes = some value) :
    Stands env (.reference name) (.decode value)

/-- why no text stands for a piece: its name has no value, or cannot be written in bytes -/
inductive Fails (env : Environment) : Piece → ExpandFault → Prop where
  | unset {name : Points} {bytes : List UInt8} (hname : name.encode? = some bytes) (hvalue : env.lookup bytes = none) :
    Fails env (.reference name) (.unset name)
  | unwritable {name : Points} (hname : ∃ p ∈ name, p.bytes? = none) : Fails env (.reference name) (.unwritable name)

/-- one scan from left to right: a reference is taken as a whole, and another code point by itself -/
inductive Scans : Points → List Piece → Prop where
  | done : Scans [] []
  | reference {name rest text : Points} {ps : List Piece} (h : Begins name rest text) (hrest : Scans rest ps) :
    Scans text (.reference name :: ps)
  | plain {p : CodePoint} {text : Points} {ps : List Piece} (h : ∀ name rest, ¬ Begins name rest (p :: text))
    (hrest : Scans text ps) : Scans (p :: text) (.plain p :: ps)

section

variable {env : Environment} {text name rest cs : Points} {ps qs : List Piece} {c : CodePoint}

/-- where no reference begins, the braces are empty, or never closed, or not opened at all -/
theorem cases_of_not_begins (h : ∀ name rest, ¬ Begins name rest text) :
    (∃ rest, text = dollar :: opening :: closing :: rest) ∨
    (∃ cs, closing ∉ cs ∧ text = dollar :: opening :: cs) ∨ ∀ cs, text ≠ dollar :: opening :: cs := by
  by_cases hopen : ∃ cs, text = dollar :: opening :: cs
  · obtain ⟨cs, rfl⟩ := hopen
    by_cases hclose : closing ∈ cs
    · obtain ⟨name, rest, rfl, hno⟩ := List.eq_append_cons_of_mem hclose
      cases name with
      | nil => exact .inl ⟨rest, rfl⟩
      | cons n ns => exact absurd ⟨List.cons_ne_nil n ns, hno, rfl⟩ (h (n :: ns) rest)
    · exact .inr (.inl ⟨cs, hclose, rfl⟩)
  · exact .inr (.inr fun cs hcs => hopen ⟨cs, hcs⟩)

theorem reference?_opened (cs : Points) : reference? (dollar :: opening :: cs) = closed? cs := by
  rw [reference?, if_pos (by decide)]

theorem reference?_of_begins (h : Begins name rest text) : reference? text = some (name, rest) := by
  obtain ⟨hne, hno, rfl⟩ := h
  obtain ⟨n, ns, rfl⟩ := List.exists_cons_of_ne_nil hne
  rw [reference?_opened, closed?, takeWhile_bne_append_cons hno, dropWhile_bne_append_cons hno]

theorem reference?_of_not_begins (h : ∀ name rest, ¬ Begins name rest text) : reference? text = none := by
  rcases cases_of_not_begins h with ⟨rest, rfl⟩ | ⟨cs, hno, rfl⟩ | hno
  · rw [reference?_opened, closed?, List.takeWhile_cons_of_neg (by simp)]
  · rw [reference?_opened, closed?, dropWhile_bne_eq_nil hno]
    cases cs.takeWhile (· != closing) <;> rfl
  · unfold reference?
    split
    next d b cs =>
      refine if_neg fun hopen => hno cs ?_
      obtain ⟨hd, hb⟩ := Bool.and_eq_true_iff.1 hopen
      rw [beq_iff_eq.1 hd, beq_iff_eq.1 hb]
    next => rfl

theorem Begins.unique {name' rest' : Points} (h : Begins name rest text) (h' : Begins name' rest' text) :
    name = name' ∧ rest = rest' := by
  have hsame := reference?_of_begins h
  rw [reference?_of_begins h', Option.some.injEq, Prod.mk.injEq] at hsame
  exact ⟨hsame.1.symm, hsame.2.symm⟩

theorem Begins.length_lt (h : Begins name rest text) : rest.length < text.length :=
  length_lt_of_reference? (reference?_of_begins h)

/-! ## The scan -/

theorem exists_scans (text : Points) : ∃ ps, Scans text ps := by
  induction hlen : text.length using Nat.strong_induction_on generalizing text with
  | _ n ih =>
    by_cases hbegins : ∃ name rest, Begins name rest text
    · obtain ⟨name, rest, h⟩ := hbegins
      obtain ⟨ps, hps⟩ := ih rest.length (hlen ▸ h.length_lt) rest rfl
      exact ⟨_, .reference h hps⟩
    · cases text with
      | nil => exact ⟨[], .done⟩
      | cons c cs =>
        obtain ⟨ps, hps⟩ := ih cs.length (hlen ▸ Nat.lt_succ_self _) cs rfl
        exact ⟨_, .plain (fun name rest h => hbegins ⟨name, rest, h⟩) hps⟩

theorem Scans.unique (h : Scans text ps) (h' : Scans text qs) : ps = qs := by
  induction h generalizing qs with
  | done =>
    cases h' with
    | done => rfl
    | reference h => cases h.2.2
  | reference h _ ih =>
    cases h' with
    | done => cases h.2.2
    | reference h' hrest' =>
      obtain ⟨rfl, rfl⟩ := h.unique h'
      rw [ih hrest']
    | plain hno => exact absurd h (hno _ _)
  | plain hno _ ih =>
    cases h' with
    | reference h => exact absurd h (hno _ _)
    | plain _ hrest' => rw [ih hrest']

/-- the names in a text are made of what the text is made of -/
theorem Scans.subset (h : Scans text ps) (hname : .reference name ∈ ps) : name ⊆ text := by
  induction h with
  | done => cases hname
  | @reference found rest text ps h _ ih =>
    obtain ⟨-, -, rfl⟩ := h
    rcases List.mem_cons.1 hname with heq | hlater
    · obtain rfl := Piece.reference.inj heq
      intro p hp
      simp [hp]
    · intro p hp
      have hrest := ih hlater hp
      simp [hrest]
  | plain _ _ ih =>
    have hlater := (List.mem_cons.1 hname).resolve_left (by simp)
    exact List.subset_cons_of_subset _ (ih hlater)

/-! ## The expansion -/

theorem expand_of_begins (env : Environment) (h : Begins name rest text) :
    env.expand text = do return (← env.find name) ++ (← env.expand rest) := by
  have href := reference?_of_begins h
  rw [expand]
  split
  next name' rest' h' =>
    rw [href, Option.some.injEq, Prod.mk.injEq] at h'
    obtain ⟨rfl, rfl⟩ := h'
    rfl
  next h' =>
    rw [href] at h'
    cases h'

theorem expand_of_plain (env : Environment) (h : ∀ name rest, ¬ Begins name rest (c :: cs)) :
    env.expand (c :: cs) = do return c :: (← env.expand cs) := by
  have href := reference?_of_not_begins h
  rw [expand]
  split
  next h' =>
    rw [href] at h'
    cases h'
  next => rfl

def Piece.textIn (env : Environment) : Piece → Except ExpandFault Points
  | plain p => .ok [p]
  | reference name => env.find name

theorem encode?_eq_none_iff : name.encode? = none ↔ ∃ p ∈ name, p.bytes? = none := by
  rw [Points.encode?, Option.map_eq_none_iff]
  induction name with
  | nil => simp
  | cons p ps ih =>
    rw [List.mapM_cons, List.exists_mem_cons_iff, ← ih]
    cases p.bytes? <;> cases ps.mapM CodePoint.bytes? <;> simp

theorem textIn_of_stands {p : Piece} (h : Stands env p text) : p.textIn env = .ok text := by
  cases h with
  | plain => rfl
  | reference hname hvalue => simp only [Piece.textIn, find, hname, hvalue]

theorem textIn_of_fails {p : Piece} {f : ExpandFault} (h : Fails env p f) : p.textIn env = .error f := by
  cases h with
  | unset hname hvalue => simp only [Piece.textIn, find, hname, hvalue]
  | unwritable hname => simp only [Piece.textIn, find, encode?_eq_none_iff.2 hname]

theorem stands_or_fails (env : Environment) (p : Piece) : (∃ t, Stands env p t) ∨ ∃ f, Fails env p f := by
  cases p with
  | plain p => exact .inl ⟨_, .plain p⟩
  | reference name =>
    cases hname : name.encode? with
    | none => exact .inr ⟨_, .unwritable (encode?_eq_none_iff.1 hname)⟩
    | some bytes =>
      cases hvalue : env.lookup bytes with
      | none => exact .inr ⟨_, .unset hname hvalue⟩
      | some value => exact .inl ⟨_, .reference hname hvalue⟩

theorem textIn_eq_ok_iff {p : Piece} : p.textIn env = .ok text ↔ Stands env p text := by
  refine ⟨fun h => ?_, textIn_of_stands⟩
  rcases stands_or_fails env p with ⟨t, ht⟩ | ⟨f, hf⟩
  · rw [textIn_of_stands ht, Except.ok.injEq] at h
    exact h ▸ ht
  · rw [textIn_of_fails hf] at h
    cases h

theorem textIn_eq_error_iff {p : Piece} {f : ExpandFault} : p.textIn env = .error f ↔ Fails env p f := by
  refine ⟨fun h => ?_, textIn_of_fails⟩
  rcases stands_or_fails env p with ⟨t, ht⟩ | ⟨g, hg⟩
  · rw [textIn_of_stands ht] at h
    cases h
  · rw [textIn_of_fails hg, Except.error.injEq] at h
    exact h ▸ hg

/-- **The expansion, piece by piece.** -/
theorem expand_of_scans (env : Environment) (h : Scans text ps) :
    env.expand text = (ps.mapM (Piece.textIn env)).map List.flatten := by
  induction h with
  | done =>
    rw [expand]
    rfl
  | @reference name rest text ps h _ ih =>
    rw [expand_of_begins env h, List.mapM_cons, ih, Piece.textIn]
    cases env.find name with
    | error f => rfl
    | ok value => cases ps.mapM (Piece.textIn env) <;> rfl
  | plain h _ ih =>
    rw [expand_of_plain env h, List.mapM_cons, ih]
    cases List.mapM (Piece.textIn env) _ <;> rfl

theorem expand_eq_ok_iff (h : Scans text ps) {t : Points} :
    env.expand text = .ok t ↔ ∃ ts, List.Forall₂ (Stands env) ps ts ∧ t = ts.flatten := by
  have hmap : (ps.mapM (Piece.textIn env)).map List.flatten = .ok t ↔ ∃ ts, ps.mapM (Piece.textIn env) = .ok ts ∧
    t = ts.flatten := by
    cases ps.mapM (Piece.textIn env) <;> simp [Except.map, eq_comm]
  simp only [expand_of_scans env h, hmap, mapM_eq_ok_iff, textIn_eq_ok_iff]

theorem expand_eq_error_iff (h : Scans text ps) {f : ExpandFault} : env.expand text = .error f ↔
    ∃ before p after, ps = before ++ p :: after ∧ (∀ q ∈ before, ∃ t, Stands env q t) ∧ Fails env p f := by
  have hmap : faultOf ((ps.mapM (Piece.textIn env)).map List.flatten) = faultOf (ps.mapM (Piece.textIn env)) := by
    cases ps.mapM (Piece.textIn env) <;> rfl
  rw [← faultOf_eq_some_iff, expand_of_scans env h, hmap, faultOf_mapM, List.findSome?_eq_some_iff]
  simp only [faultOf_eq_some_iff, faultOf_eq_none_iff, textIn_eq_ok_iff, textIn_eq_error_iff,
    and_comm (a := Fails _ _ _)]

/-- a text that can be written in bytes fails for want of a value only -/
theorem exists_unset_of_writable (hwritable : ∀ p ∈ text, p.bytes? ≠ none) {f : ExpandFault}
    (h : env.expand text = .error f) :
    ∃ name, f = .unset name := by
  obtain ⟨ps, hps⟩ := exists_scans text
  obtain ⟨before, p, after, rfl, -, hfails⟩ := (expand_eq_error_iff hps).1 h
  cases hfails with
  | unset => exact ⟨_, rfl⟩
  | unwritable hname =>
    obtain ⟨p, hp, hnone⟩ := hname
    have hmem := hps.subset (List.mem_append_right _ List.mem_cons_self) hp
    exact absurd hnone (hwritable p hmem)

/-! ## The pattern -/

/-- the pattern of a reference; the name is its first group -/
def referenceNode : Node :=
  .ofSeq [.one {} (.code (code dollar)), .one {} (.code (code opening)),
    .group 1 (.repeat .greedy 1 none (.one {} (.notCode (code closing)))), .one {} (.code (code closing))]

theorem compile_reference [Pattern.Dialect] : Pattern.compile "\\$\\\x7b([^\x7d]+)\\\x7d" = .ok referenceNode := by
  rw [Pattern.compile_of_everywhere rfl (by decide +kernel)]
  decide +kernel

/-- the value of the name in a match -/
def valueOf (env : Environment) (t : Spot CodePoint) : Except ExpandFault Points := env.find ((t.group? 1).getD [])

/-- the place in a match where the name begins -/
def opened (past cs : Points) : Spot CodePoint :=
  { pos := past.length + 2, past := opening :: dollar :: past, ahead := cs, begun := [(1, past.length + 2)] }

/-- the place behind a match -/
def closed (past name rest : Points) : Spot CodePoint :=
  { pos := past.length + 2 + name.length + 1, past := closing :: (name.reverse ++ opening :: dollar :: past),
    ahead := rest, begun := [(1, past.length + 2)], ended := [(1, past.length + 2 + name.length)] }

theorem ahead_closed (past name rest : Points) : (closed past name rest).ahead = rest := rfl

theorem group?_closed (past name rest : Points) : (closed past name rest).group? 1 = some name := by
  have hall : (closed past name rest).past.reverse ++ rest = (past.reverse ++ [dollar, opening]) ++
    (name ++ closing :: rest) := by
    simp [closed]
  have hspan : (closed past name rest).span? 1 = some (past.length + 2, past.length + 2 + name.length) := by
    simp [closed, Spot.span?]
  rw [Spot.group?, hspan, Option.map_some, Spot.captured, ahead_closed, hall, List.drop_left' (by simp),
    Nat.add_sub_cancel_left, List.take_left]

theorem code_inj {p q : CodePoint} : code p = code q ↔ p = q := by
  cases p
  cases q
  simp [code]

theorem holds_code_iff {p q : CodePoint} : (Single.code (code p)).holds {} (code q) = true ↔ p = q := by
  change (code q == code p || false) = true ↔ p = q
  rw [Bool.or_false, beq_iff_eq, code_inj, eq_comm]

theorem holds_notCode_iff {p q : CodePoint} : (Single.notCode (code p)).holds {} (code q) = true ↔ q ≠ p := by
  change (!(code q == code p || false)) = true ↔ q ≠ p
  rw [Bool.or_false, Bool.not_eq_true', beq_eq_false_iff_ne, Ne, code_inj]

/-- behind the opening brace a run is taken as a whole, and a closing brace must follow -/
theorem walk_opened (past cs : Points) : Pattern.walk referenceNode (.between past (dollar :: opening :: cs)) some =
    if cs.takeWhile (· != closing) = [] then none
    else Pattern.walk (.one {} (.code (code closing))) (((opened past cs).beyond (· != closing)).finish 1) some := by
  have htest : (fun p : CodePoint => (Single.notCode (code closing)).holds {} (code p)) = (· != closing) := by
    funext p
    rw [Bool.eq_iff_iff, holds_notCode_iff, bne_iff_ne]
  have hrefuses : Pattern.Refuses (· != closing) fun t => Pattern.walk (.one {} (.code (code closing)))
    (t.finish 1) some := by
    intro t p cs hahead hp
    have hclose : ¬ (Single.code (code closing)).holds {} (code p) = true :=
      fun h => bne_iff_ne.1 hp (holds_code_iff.1 h).symm
    exact (Pattern.walk_one_of_cons (s := t.finish 1) hahead some).trans (if_neg hclose)
  rw [← htest] at hrefuses ⊢
  exact Pattern.walk_run hrefuses

theorem walk_of_not_opened (past : Points) (h : ∀ cs, text ≠ dollar :: opening :: cs) :
    Pattern.walk referenceNode (.between past text) some = none := by
  cases text with
  | nil => exact Pattern.walk_one_of_nil rfl _
  | cons c cs =>
    refine (Pattern.walk_one_of_cons (s := .between past (c :: cs)) rfl _).trans ?_
    split
    next hc =>
      obtain rfl := holds_code_iff.1 hc
      cases cs with
      | nil => exact Pattern.walk_one_of_nil rfl _
      | cons d ds =>
        refine (Pattern.walk_one_of_cons (s := (Spot.between past (dollar :: d :: ds)).moved dollar (d :: ds)) rfl
          _).trans (if_neg ?_)
        intro hd
        exact h ds (by rw [holds_code_iff.1 hd])
    next => rfl

/-- where a reference begins, the pattern takes just the reference -/
theorem matchHere_of_begins (past : Points) (h : Begins name rest text) :
    Pattern.matchHere referenceNode past text = some (closed past name rest) := by
  have hshort : (closed past name rest).ahead.length < text.length := h.length_lt
  obtain ⟨hne, hno, rfl⟩ := h
  let behind := ((opened past (name ++ closing :: rest)).beyond (· != closing)).finish 1
  have hahead : behind.ahead = closing :: rest := dropWhile_bne_append_cons hno rest
  have hmoved : behind.moved closing rest = closed past name rest := by
    simp [behind, opened, closed, Spot.beyond, Spot.moved, Spot.finish, Spot.enter, takeWhile_bne_append_cons hno]
  have hwalk : Pattern.walk referenceNode (.between past (dollar :: opening :: (name ++ closing :: rest))) some =
      some (closed past name rest) := by
    rw [walk_opened, takeWhile_bne_append_cons hno, if_neg hne, Pattern.walk_one_of_cons hahead,
      if_pos (holds_code_iff.2 rfl), hmoved]
  rw [Pattern.matchHere, hwalk, Option.filter_some, if_pos (decide_eq_true hshort)]

theorem matchHere_of_not_begins (past : Points) (h : ∀ name rest, ¬ Begins name rest text) :
    Pattern.matchHere referenceNode past text = none := by
  suffices hwalk : Pattern.walk referenceNode (.between past text) some = none by rw [Pattern.matchHere, hwalk]; rfl
  rcases cases_of_not_begins h with ⟨rest, rfl⟩ | ⟨cs, hno, rfl⟩ | hno
  · rw [walk_opened, List.takeWhile_cons_of_neg (by simp), if_pos rfl]
  · rw [walk_opened, Pattern.walk_one_of_nil (dropWhile_bne_eq_nil hno), ite_self]
  · exact walk_of_not_opened past hno

/-- **Replacing the matches of the pattern expands the text.** -/
theorem replaceFrom_reference (env : Environment) (past text : Points) :
    Pattern.replaceFrom referenceNode (valueOf env) past text = env.expand text := by
  -- along the scan, with whatever it has left behind
  obtain ⟨ps, hps⟩ := exists_scans text
  induction hps generalizing past with
  | done =>
    have hnone : ∀ name rest, ¬ Begins name rest [] := fun name rest h => by cases h.2.2
    rw [Pattern.replaceFrom_of_none _ (matchHere_of_not_begins past hnone), expand]
    rfl
  | reference h _ ih =>
    rw [Pattern.replaceFrom_of_some _ (matchHere_of_begins past h), expand_of_begins env h, ahead_closed, ih, valueOf,
      group?_closed, Option.getD_some]
  | plain h _ ih =>
    rw [Pattern.replaceFrom_of_none _ (matchHere_of_not_begins past h), expand_of_plain env h]
    simp only [ih]

/-- **The scan.** A text is cut into pieces in just one way, whatever the variables are. It becomes what stands for its
pieces, and the first piece for which nothing stands gives the fault: a name without a value, or, unless the text can be
written in bytes, a name that cannot. Replacing the matches of the pattern comes to the same. -/
theorem scans_expand [Pattern.Dialect] (env : Environment) (text : Points) : ∃ ps, (∀ qs, Scans text qs ↔ qs = ps) ∧
    (∀ t, env.expand text = .ok t ↔ ∃ ts, List.Forall₂ (Stands env) ps ts ∧ t = ts.flatten) ∧
    (∀ f, env.expand text = .error f ↔
      ∃ before p after, ps = before ++ p :: after ∧ (∀ q ∈ before, ∃ t, Stands env q t) ∧ Fails env p f) ∧
    ((∀ p ∈ text, p.bytes? ≠ none) → ∀ f, env.expand text = .error f → ∃ name, f = .unset name) ∧
    ∃ n, Pattern.compile "\\$\\\x7b([^\x7d]+)\\\x7d" = .ok n ∧
    Pattern.replace n (valueOf env) text = env.expand text := by
  obtain ⟨ps, hps⟩ := exists_scans text
  refine ⟨ps, fun qs => ⟨fun hqs => hqs.unique hps, ?_⟩, fun t => expand_eq_ok_iff hps,
    fun f => expand_eq_error_iff hps, fun hwritable f h => exists_unset_of_writable hwritable h, referenceNode,
    compile_reference, ?_⟩
  · rintro rfl
    exact hps
  · exact replaceFrom_reference env [] text

end

/-- half of a surrogate pair that stands for no byte -/
def loneHalf : CodePoint := ⟨0xD800, by decide⟩

/-- a text that refers to a variable with this name -/
def loneText : Points := [dollar, opening, loneHalf, closing]

theorem scans_loneText : Scans loneText [.reference [loneHalf]] :=
  .reference ⟨by decide, by decide, rfl⟩ .done

theorem expand_loneText : expand [] loneText = .error (.unwritable [loneHalf]) := by decide +kernel

/-- no variable has this name -/
theorem find_loneHalf_ne_ok (value : Points) : find [] [loneHalf] ≠ .ok value := by
  rw [show find [] [loneHalf] = .error (.unwritable [loneHalf]) by decide +kernel]
  nofun

/-- **Such a name is not told about.** A text can refer to it, it has no value, and yet that is not the fault. -/
theorem lone_half_breaks : ¬ ∀ (env : Environment) (text : Points) (ps : List Piece), Scans text ps →
    ((∃ name, env.expand text = .error (.unset name)) ↔ ∃ name, .reference name ∈ ps ∧
    ∀ value, env.find name ≠ .ok value) := by
  intro h
  obtain ⟨name, hname⟩ := (h [] _ _ scans_loneText).2 ⟨_, List.mem_singleton.2 rfl, find_loneHalf_ne_ok⟩
  rw [expand_loneText] at hname
  cases hname

end Environment

end MakeAtlas
