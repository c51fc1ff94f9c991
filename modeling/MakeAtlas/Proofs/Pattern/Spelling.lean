/-
What a pattern says, without its matcher. A plain pattern (no look around, no reference to a group, no repetition that
keeps what it took) spells words at a place of a text; the matcher finds it exactly where it spells one.
- `Spells`: the words of a pattern, between what is behind and what is ahead of them.
- `Walks`: a walk gets on exactly when some word ahead is spelled and the rest is accepted after it.
- `walks_times`, `asks_mostly`: rounds of a body, whatever order the matcher tries them in; rounds that take nothing add
  nothing.
- `walks_walk`: the walk through a plain pattern.
- `found_iff`: a plain pattern is found in a text when some stretch of the text is spelled where it stands.
- `spells_ofSeq_append`, `spells_ones_iff`, `spells_codes_iff`, `spells_many_iff`: sequences, rows of characters, and
  runs.
- `Node.Says`: the pattern spells the words of a language, wherever they stand; `found_iff_of_says` is what that comes
  to.
-/
import Mathlib.Computability.Language
import Mathlib.Tactic
import MakeAtlas.Pattern.Search

namespace MakeAtlas.Pattern

/-! ## Words of a pattern -/

/-- words at a place: what is behind it with the nearest character first, the word, and what is ahead of the word -/
abbrev Spelling := List Char → List Char → List Char → Prop

/-- the place between these characters -/
def Spot.between {α : Type} (past ahead : List α) : Spot α := { pos := past.length, past, ahead }

/-- a word cut into `n` words of the body, each at its own place -/
def Rounds (body : Spelling) : ℕ → Spelling
  | 0, _, word, _ => word = []
  | n + 1, past, word, ahead =>
    ∃ u v, word = u ++ v ∧ body past u (v ++ ahead) ∧ Rounds body n (u.reverse ++ past) v ahead

/-- the words of a plain pattern -/
def Spells : Node → Spelling
  | .empty, _, word, _ => word = []
  | .one m test, _, word, _ => ∃ c : Char, word = [c] ∧ test.holds m c.toNat = true
  | .at m a, past, word, ahead => word = [] ∧ a.holds m (Spot.between past ahead) = true
  | .seq a b, past, word, ahead => ∃ u v, word = u ++ v ∧ Spells a past u (v ++ ahead) ∧
    Spells b (u.reverse ++ past) v ahead
  | .alt a b, past, word, ahead => Spells a past word ahead ∨ Spells b past word ahead
  | .repeat _ least most body, past, word, ahead =>
    ∃ more, (∀ m ∈ most, more ≤ m - least) ∧ Rounds (Spells body) (least + more) past word ahead
  | .group _ body, past, word, ahead => Spells body past word ahead
  | _, _, _, _ => False

/-- the pattern is made of characters, places, sequences, choices, greedy repetitions and groups -/
def Node.plain : Node → Bool
  | .empty => true
  | .one .. => true
  | .at .. => true
  | .seq a b => a.plain && b.plain
  | .alt a b => a.plain && b.plain
  | .repeat .greedy _ _ body => body.plain
  | .group _ body => body.plain
  | _ => false

/-! ## Walks -/

abbrev Accepts := List Char → List Char → Prop

/-- the rest accepts a place by what is behind and ahead of it, and by nothing else -/
def Asks (k : Rest Char) (K : Accepts) : Prop :=
  ∀ s : Spot Char, s.pos = s.past.length → ((k s).isSome = true ↔ K s.past s.ahead)

/-- a word of the language lies ahead, and the place after it is accepted -/
def Before (L : Spelling) (K : Accepts) : Accepts := fun past ahead =>
  ∃ word rest, ahead = word ++ rest ∧ L past word rest ∧ K (word.reverse ++ past) rest

/-- the walk gets on over the words of the language -/
def Walks (f : Spot Char → Rest Char → Option (Spot Char)) (L : Spelling) : Prop :=
  ∀ k K, Asks k K → Asks (fun s => f s k) (Before L K)

section

variable {L M : Spelling} {K K' : Accepts} {past ahead : List Char} {f : Spot Char → Rest Char → Option (Spot Char)}
  {k : Rest Char}

theorem isSome_orElse_iff {a b : Option (Spot Char)} : (a <|> b).isSome = true ↔ a.isSome = true ∨ b.isSome = true := by
  rw [Option.orElse_eq_orElse, Option.orElse_eq_or, Option.isSome_or, Bool.or_eq_true]

theorem Before.congr (h : ∀ p w q, L p w q ↔ M p w q) : Before L K past ahead ↔ Before M K past ahead := by
  simp only [Before, h]

theorem before_of_empty (hL : ∀ {p w q}, L p w q ↔ w = []) : Before L K past ahead ↔ K past ahead := by
  constructor
  · rintro ⟨word, rest, rfl, hword, hK⟩
    rw [hL.1 hword] at hK
    simpa [hL.1 hword] using hK
  · exact fun hK => ⟨[], ahead, rfl, hL.2 rfl, hK⟩

/-- one language after the other -/
theorem before_before : Before L (Before M K) past ahead ↔
    Before (fun p w q => ∃ u v, w = u ++ v ∧ L p u (v ++ q) ∧ M (u.reverse ++ p) v q) K past ahead := by
  constructor
  · rintro ⟨u, _, rfl, hu, v, rest, rfl, hv, hK⟩
    exact ⟨u ++ v, rest, by simp, ⟨u, v, rfl, hu, hv⟩, by simpa using hK⟩
  · rintro ⟨_, rest, rfl, ⟨u, v, rfl, hu, hv⟩, hK⟩
    exact ⟨u, v ++ rest, by simp, hu, v, rest, rfl, hv, by simpa using hK⟩

theorem before_or : Before (fun p w q => L p w q ∨ M p w q) K past ahead ↔ Before L K past ahead ∨
    Before M K past ahead := by
  constructor
  · rintro ⟨word, rest, hahead, hword | hword, hK⟩
    · exact .inl ⟨word, rest, hahead, hword, hK⟩
    · exact .inr ⟨word, rest, hahead, hword, hK⟩
  · rintro (⟨word, rest, hahead, hword, hK⟩ | ⟨word, rest, hahead, hword, hK⟩)
    · exact ⟨word, rest, hahead, .inl hword, hK⟩
    · exact ⟨word, rest, hahead, .inr hword, hK⟩

theorem Asks.congr (h : Asks k K) (hK : ∀ p q, K p q ↔ K' p q) : Asks k K' := fun s hs => (h s hs).trans (hK _ _)

/-! ## Rounds -/

theorem rounds_succ_of {n : ℕ} {u v : List Char} (hu : L past u (v ++ ahead))
    (hv : Rounds L n (u.reverse ++ past) v ahead) :
    Rounds L (n + 1) past (u ++ v) ahead := ⟨u, v, rfl, hu, hv⟩

theorem rounds_add {a b : ℕ} {word : List Char} : Rounds L (a + b) past word ahead ↔
    ∃ u v, word = u ++ v ∧ Rounds L a past u (v ++ ahead) ∧ Rounds L b (u.reverse ++ past) v ahead := by
  induction a generalizing past word with
  | zero =>
    rw [Nat.zero_add]
    constructor
    · exact fun h => ⟨[], word, rfl, rfl, h⟩
    · rintro ⟨u, v, rfl, rfl, h⟩
      exact h
  | succ a ih =>
    rw [Nat.succ_add]
    constructor
    · rintro ⟨u, w, rfl, hu, hw⟩
      obtain ⟨v, z, rfl, hv, hz⟩ := ih.1 hw
      exact ⟨u ++ v, z, by simp, ⟨u, v, rfl, by simpa using hu, hv⟩, by simpa using hz⟩
    · rintro ⟨_, z, rfl, ⟨u, v, rfl, hu, hv⟩, hz⟩
      exact ⟨u, v ++ z, by simp, by simpa using hu, ih.2 ⟨v, z, rfl, hv, by simpa using hz⟩⟩

/-- rounds that take something have a first one that does -/
theorem Rounds.first {n : ℕ} {word : List Char} (h : Rounds L n past word ahead) :
    word = [] ∨ ∃ i < n, ∃ c u v, word = c :: u ++ v ∧ L past (c :: u) (v ++ ahead) ∧
      Rounds L i ((c :: u).reverse ++ past) v ahead := by
  induction n with
  | zero => exact .inl h
  | succ n ih =>
    obtain ⟨u, v, rfl, hu, hv⟩ := h
    cases u with
    | nil =>
      rcases ih hv with rfl | ⟨i, hi, hfirst⟩
      · exact .inl rfl
      · exact .inr ⟨i, by omega, hfirst⟩
    | cons c u => exact .inr ⟨n, by omega, c, u, v, rfl, hu, hv⟩

/-- no more rounds than characters are needed -/
theorem Rounds.shrink {n : ℕ} {word : List Char} (h : Rounds L n past word ahead) :
    ∃ i, i ≤ n ∧ i ≤ word.length ∧ Rounds L i past word ahead := by
  induction n using Nat.strong_induction_on generalizing past word with
  | _ n ih =>
    rcases h.first with rfl | ⟨i, hi, c, u, v, rfl, hu, hv⟩
    · exact ⟨0, Nat.zero_le _, Nat.zero_le _, rfl⟩
    · obtain ⟨j, hji, hjv, hj⟩ := ih i hi hv
      exact ⟨j + 1, by omega, by simp; omega, rounds_succ_of hu hj⟩

theorem walks_times (hf : Walks f L) (n : ℕ) : Walks (times f n) (Rounds L n) := by
  induction n with
  | zero => exact fun k K hk => hk.congr fun p q => (before_of_empty Iff.rfl).symm
  | succ n ih => exact fun k K hk => (hf _ _ (ih k K hk)).congr fun p q => before_before

/-- up to `n` rounds, more before fewer; the walk stops at a round that takes nothing, which is no loss -/
theorem asks_mostly (hf : Walks f L) (hk : Asks k K) (n : ℕ) :
    Asks (fun s => mostly f n s k) fun p q => ∃ i ≤ n, Before (Rounds L i) K p q := by
  induction n with
  | zero =>
    refine hk.congr fun p q => ?_
    simp only [Nat.le_zero, exists_eq_left]
    exact (before_of_empty Iff.rfl).symm
  | succ n ih =>
    intro s hs
    -- the place after one round is the old one, or fewer rounds are left from a new one
    let next : Accepts := fun p q => if p.length = s.pos then K p q else ∃ i ≤ n, Before (Rounds L i) K p q
    have hnext : Asks (fun t => if t.pos == s.pos then k t else mostly f n t k) next := by
      intro t ht
      by_cases hpos : t.pos = s.pos
      · simpa [next, hpos, ← ht] using hk t ht
      · simpa [next, hpos, ← ht] using ih t ht
    have hround := hf _ _ hnext s hs
    have hhere := hk s hs
    change (mostly f (n + 1) s k).isSome = true ↔ ∃ i ≤ n + 1, Before (Rounds L i) K s.past s.ahead
    rw [mostly, isSome_orElse_iff, hround, hhere]
    have hlater {c : Char} {u v : List Char} : next ((c :: u).reverse ++ s.past) v ↔
        ∃ i ≤ n, Before (Rounds L i) K ((c :: u).reverse ++ s.past) v := by
      have hne : ((c :: u).reverse ++ s.past).length ≠ s.pos := by simp [hs]; omega
      simp only [next, if_neg hne]
    constructor
    · rintro (⟨u, rest, hahead, hu, hnext⟩ | hK)
      · cases u with
        | nil =>
          refine ⟨0, Nat.zero_le _, (before_of_empty Iff.rfl).2 ?_⟩
          simpa [next, hs, hahead] using hnext
        | cons c u =>
          obtain ⟨i, hi, v, rest', rfl, hv, hK⟩ := hlater.1 hnext
          refine ⟨i + 1, by omega, c :: u ++ v, rest', by simp [hahead], rounds_succ_of hu hv, ?_⟩
          simpa using hK
      · exact ⟨0, Nat.zero_le _, (before_of_empty Iff.rfl).2 hK⟩
    · rintro ⟨i, hi, word, rest, hahead, hword, hK⟩
      rcases hword.first with rfl | ⟨j, hj, c, u, v, rfl, hu, hv⟩
      · exact .inr (by simpa [hahead] using hK)
      · refine .inl ⟨c :: u, v ++ rest, by simp [hahead], hu, ?_⟩
        exact hlater.2 ⟨j, by omega, v, rest, rfl, hv, by simpa using hK⟩

end

/-! ## The walk through a pattern -/

theorem Anchor.holds_between (m : Mode) (a : Anchor) (s : Spot Char) :
    a.holds m s = a.holds m (Spot.between s.past s.ahead) := by
  cases a <;> rfl

theorem walks_one (m : Mode) (test : Single) : Walks (walk (.one m test)) (Spells (.one m test)) := by
  intro k K hk s hs
  change ((s.step (test.holds m)).bind k).isSome = true ↔ Before (Spells (.one m test)) K s.past s.ahead
  cases hahead : s.ahead with
  | nil => simp [Spot.step, hahead, Before, Spells]
  | cons c cs =>
    by_cases hc : test.holds m c.toNat = true
    · have hstep : s.step (test.holds m) = some { s with pos := s.pos + 1, past := c :: s.past, ahead := cs } := by
        simp [Spot.step, hahead, hc]
      rw [hstep, Option.bind_some, hk _ (by simp [hs])]
      constructor
      · exact fun hK => ⟨[c], cs, rfl, ⟨c, rfl, hc⟩, hK⟩
      · rintro ⟨_, rest, htext, ⟨d, rfl, -⟩, hK⟩
        obtain ⟨rfl, rfl⟩ : c = d ∧ cs = rest := by simpa using htext
        exact hK
    · have hstep : s.step (test.holds m) = none := by simp [Spot.step, hahead, hc]
      rw [hstep]
      refine iff_of_false (by simp) ?_
      rintro ⟨_, rest, htext, ⟨d, rfl, hd⟩, -⟩
      obtain ⟨rfl, -⟩ : c = d ∧ cs = rest := by simpa using htext
      exact hc hd

theorem walks_at (m : Mode) (a : Anchor) : Walks (walk (.at m a)) (Spells (.at m a)) := by
  intro k K hk s hs
  change (if a.holds m s then k s else none).isSome = true ↔ Before (Spells (.at m a)) K s.past s.ahead
  rw [Anchor.holds_between]
  constructor
  · intro h
    split at h
    next ha => exact ⟨[], s.ahead, rfl, ⟨rfl, ha⟩, (hk s hs).1 h⟩
    next => cases h
  · rintro ⟨_, rest, hahead, ⟨rfl, ha⟩, hK⟩
    obtain rfl : s.ahead = rest := hahead
    rw [if_pos ha]
    exact (hk s hs).2 hK

/-- a repetition, with as many rounds as can differ -/
theorem asks_repeat {L : Spelling} {K : Accepts} {f : Spot Char → Rest Char → Option (Spot Char)} {k : Rest Char}
    (hf : Walks f L) (hk : Asks k K) (least : ℕ) (most : Option ℕ) : Asks (fun s => mostly f (rounds least most s) s k)
      (Before (fun p w q => ∃ more, (∀ m ∈ most, more ≤ m - least) ∧ Rounds L more p w q) K) := by
  intro s hs
  rw [asks_mostly hf hk _ s hs]
  constructor
  · rintro ⟨i, hi, word, rest, hahead, hword, hK⟩
    refine ⟨word, rest, hahead, ⟨i, ?_, hword⟩, hK⟩
    rintro m rfl
    exact le_trans hi (min_le_left _ _)
  · rintro ⟨word, rest, hahead, ⟨more, hmore, hword⟩, hK⟩
    obtain ⟨i, him, hlen, hi⟩ := hword.shrink
    refine ⟨i, ?_, word, rest, hahead, hi, hK⟩
    have hlen' : i ≤ s.ahead.length + 1 := by simp [hahead]; omega
    cases most with
    | none => exact hlen'
    | some m => exact le_min (le_trans him (hmore m rfl)) hlen'

/-- **The matcher is right.** The walk through a plain pattern gets on exactly over the words that the pattern
spells. -/
theorem walks_walk {n : Node} (hn : n.plain = true) : Walks (walk n) (Spells n) := by
  induction n with
  | empty => exact fun k K hk => hk.congr fun p q => (before_of_empty Iff.rfl).symm
  | one m test => exact walks_one m test
  | «at» m a => exact walks_at m a
  | seq a b iha ihb =>
    rw [Node.plain, Bool.and_eq_true] at hn
    exact fun k K hk => (iha hn.1 _ _ (ihb hn.2 k K hk)).congr fun p q => before_before
  | alt a b iha ihb =>
    rw [Node.plain, Bool.and_eq_true] at hn
    intro k K hk s hs
    change (walk a s k <|> walk b s k).isSome = true ↔ Before (Spells (.alt a b)) K s.past s.ahead
    rw [isSome_orElse_iff, iha hn.1 k K hk s hs, ihb hn.2 k K hk s hs]
    exact before_or.symm
  | «repeat» style least most body ih =>
    cases style with
    | greedy =>
      intro k K hk
      have hmore := walks_times (ih hn) least _ _ (asks_repeat (ih hn) hk least most)
      refine hmore.congr fun p q => before_before.trans (Before.congr fun p w q => ?_)
      constructor
      · rintro ⟨u, v, rfl, hu, more, hbound, hv⟩
        exact ⟨more, hbound, rounds_add.2 ⟨u, v, rfl, hu, hv⟩⟩
      · rintro ⟨more, hbound, hw⟩
        obtain ⟨u, v, rfl, hu, hv⟩ := rounds_add.1 hw
        exact ⟨u, v, rfl, hu, more, hbound, hv⟩
    | lazy => cases hn
    | possessive => cases hn
  | group i body ih =>
    intro k K hk s hs
    have hk' : Asks (fun t => k (t.finish i)) K := fun t ht => hk (t.finish i) ht
    exact ih hn _ _ hk' (s.start i) hs
  | _ => cases hn

/-- the pattern matches here when some word ahead is spelled -/
theorem isSome_walk_iff {n : Node} (hn : n.plain = true) {past ahead : List Char} :
    (walk n (.between past ahead) some).isSome = true ↔ ∃ word rest, ahead = word ++ rest ∧
    Spells n past word rest := by
  have haccept : Asks some fun _ _ => True := fun s _ => by simp
  rw [walks_walk hn some _ haccept (.between past ahead) rfl]
  simp only [Before, and_true]
  rfl

theorem foundFrom_iff {n : Node} (hn : n.plain = true) (past ahead : List Char) :
    foundFrom n past.length past ahead = true ↔
    ∃ front word rest, ahead = front ++ word ++ rest ∧ Spells n (front.reverse ++ past) word rest := by
  induction ahead generalizing past with
  | nil =>
    refine (isSome_walk_iff hn).trans ⟨?_, ?_⟩
    · rintro ⟨word, rest, hahead, hword⟩
      exact ⟨[], word, rest, hahead, hword⟩
    · rintro ⟨front, word, rest, hahead, hword⟩
      obtain ⟨rfl, rfl, rfl⟩ : front = [] ∧ word = [] ∧ rest = [] := by simpa using hahead.symm
      exact ⟨[], [], rfl, hword⟩
  | cons c cs ih =>
    have hlater := ih (c :: past)
    rw [foundFrom, Bool.or_eq_true]
    refine (or_congr (isSome_walk_iff hn) hlater).trans ⟨?_, ?_⟩
    · rintro (⟨word, rest, hahead, hword⟩ | ⟨front, word, rest, rfl, hword⟩)
      · exact ⟨[], word, rest, hahead, hword⟩
      · exact ⟨c :: front, word, rest, rfl, by simpa using hword⟩
    · rintro ⟨front, word, rest, hahead, hword⟩
      cases front with
      | nil => exact .inl ⟨word, rest, hahead, hword⟩
      | cons d front =>
        obtain ⟨rfl, rfl⟩ : c = d ∧ cs = front ++ word ++ rest := by simpa using hahead
        exact .inr ⟨front, word, rest, rfl, by simpa using hword⟩

/-- **Finding is spelling somewhere.** -/
theorem found_iff {n : Node} (hn : n.plain = true) {text : List Char} :
    found n text = true ↔ ∃ front word rest, text = front ++ word ++ rest ∧ Spells n front.reverse word rest := by
  have h := foundFrom_iff hn [] text
  simp only [List.append_nil] at h
  exact h

/-! ## Usual pieces -/

section

variable {past word ahead : List Char}

theorem plain_ofSeq (ns : List Node) : (Node.ofSeq ns).plain = ns.all Node.plain := by
  induction ns with
  | nil => rfl
  | cons n ns ih =>
    cases ns with
    | nil => simp [Node.ofSeq]
    | cons m ns =>
      rw [Node.ofSeq, Node.plain, ih, List.all_cons (a := n)]
      simp

theorem spells_ofSeq_cons {n : Node} {ns : List Node} : Spells (.ofSeq (n :: ns)) past word ahead ↔
    ∃ u v, word = u ++ v ∧ Spells n past u (v ++ ahead) ∧ Spells (.ofSeq ns) (u.reverse ++ past) v ahead := by
  cases ns with
  | cons m ns => exact Iff.rfl
  | nil =>
    constructor
    · exact fun h => ⟨word, [], by simp, h, rfl⟩
    · rintro ⟨u, v, rfl, hu, rfl⟩
      simpa [Node.ofSeq] using hu

theorem spells_ofSeq_append {ns ms : List Node} : Spells (.ofSeq (ns ++ ms)) past word ahead ↔
    ∃ u v, word = u ++ v ∧ Spells (.ofSeq ns) past u (v ++ ahead) ∧ Spells (.ofSeq ms) (u.reverse ++ past) v ahead := by
  induction ns generalizing past word with
  | nil =>
    constructor
    · exact fun h => ⟨[], word, rfl, rfl, h⟩
    · rintro ⟨u, v, rfl, rfl, h⟩
      exact h
  | cons n ns ih =>
    rw [List.cons_append, spells_ofSeq_cons]
    constructor
    · rintro ⟨u, w, rfl, hu, hw⟩
      obtain ⟨v, z, rfl, hv, hz⟩ := ih.1 hw
      exact ⟨u ++ v, z, by simp, spells_ofSeq_cons.2 ⟨u, v, rfl, by simpa using hu, hv⟩, by simpa using hz⟩
    · rintro ⟨w, z, rfl, hw, hz⟩
      obtain ⟨u, v, rfl, hu, hv⟩ := spells_ofSeq_cons.1 hw
      exact ⟨u, v ++ z, by simp, by simpa using hu, ih.2 ⟨v, z, rfl, hv, by simpa using hz⟩⟩

/-- one character for each test in a row -/
theorem spells_ones_iff {m : Mode} {tests : List Single} : Spells (.ofSeq (tests.map (.one m))) past word ahead ↔
    List.Forall₂ (fun (test : Single) (c : Char) => test.holds m c.toNat = true) tests word := by
  induction tests generalizing past word with
  | nil => exact List.forall₂_nil_left_iff.symm
  | cons test tests ih =>
    rw [List.map_cons, spells_ofSeq_cons, List.forall₂_cons_left_iff]
    simp only [ih]
    constructor
    · rintro ⟨_, v, rfl, ⟨c, rfl, hc⟩, hv⟩
      exact ⟨c, v, hc, hv, rfl⟩
    · rintro ⟨c, v, hc, hv, rfl⟩
      exact ⟨[c], v, rfl, ⟨c, rfl, hc⟩, hv⟩

theorem holds_code_iff {c d : Char} : (Single.code c.toNat).holds {} d.toNat = true ↔ c = d := by
  change (d.toNat == c.toNat || false) = true ↔ c = d
  rw [Bool.or_false, beq_iff_eq, Char.toNat_inj, eq_comm]

/-- these characters in a row -/
theorem spells_codes_iff {cs : List Char} :
    Spells (.ofSeq (cs.map fun c => .one {} (.code c.toNat))) past word ahead ↔ word = cs := by
  have hones : (cs.map fun c => Node.one {} (.code c.toNat)) = (cs.map fun c => Single.code c.toNat).map (.one {}) := by
    rw [List.map_map]
    rfl
  rw [hones, spells_ones_iff, List.forall₂_map_left_iff]
  simp only [holds_code_iff]
  rw [List.forall₂_eq_eq_eq, eq_comm]

theorem rounds_one {m : Mode} {test : Single} {n : ℕ} : Rounds (Spells (.one m test)) n past word ahead ↔
    word.length = n ∧ ∀ c ∈ word, test.holds m c.toNat = true := by
  induction n generalizing past word with
  | zero =>
    rw [Rounds, List.length_eq_zero_iff]
    exact ⟨fun h => ⟨h, by simp [h]⟩, fun h => h.1⟩
  | succ n ih =>
    constructor
    · rintro ⟨_, v, rfl, ⟨c, rfl, hc⟩, hv⟩
      obtain ⟨rfl, hall⟩ := ih.1 hv
      exact ⟨rfl, List.forall_mem_cons.2 ⟨hc, hall⟩⟩
    · rintro ⟨hlen, hall⟩
      obtain ⟨c, v, rfl⟩ := List.exists_cons_of_length_eq_add_one hlen
      obtain ⟨hc, hv⟩ := List.forall_mem_cons.1 hall
      exact ⟨[c], v, rfl, ⟨c, rfl, hc⟩, ih.2 ⟨Nat.succ.inj hlen, hv⟩⟩

/-- at least `least` characters that pass a test -/
theorem spells_many_iff {style : Style} {m : Mode} {test : Single} {least : ℕ} :
    Spells (.repeat style least none (.one m test)) past word ahead ↔
      least ≤ word.length ∧ ∀ c ∈ word, test.holds m c.toNat = true := by
  constructor
  · rintro ⟨more, -, hword⟩
    obtain ⟨hlen, hall⟩ := rounds_one.1 hword
    exact ⟨by omega, hall⟩
  · rintro ⟨hlen, hall⟩
    exact ⟨word.length - least, by simp, rounds_one.2 ⟨by omega, hall⟩⟩

end

/-! ## Patterns that do not look around -/

/-- the pattern spells the words of the language, wherever they stand -/
def Node.Says (n : Node) (L : Language Char) : Prop := ∀ past word ahead, Spells n past word ahead ↔ word ∈ L

section

variable {n : Node} {ns ms : List Node} {L M : Language Char}

theorem says_cons (hn : n.Says L) (hns : (Node.ofSeq ns).Says M) : (Node.ofSeq (n :: ns)).Says (L * M) := by
  intro past word ahead
  simp only [spells_ofSeq_cons, hn _ _ _, hns _ _ _, Language.mem_mul]
  constructor
  · rintro ⟨u, v, rfl, hu, hv⟩
    exact ⟨u, hu, v, hv, rfl⟩
  · rintro ⟨u, hu, v, hv, rfl⟩
    exact ⟨u, v, rfl, hu, hv⟩

theorem says_append (hns : (Node.ofSeq ns).Says L) (hms : (Node.ofSeq ms).Says M) :
    (Node.ofSeq (ns ++ ms)).Says (L * M) := by
  intro past word ahead
  simp only [spells_ofSeq_append, hns _ _ _, hms _ _ _, Language.mem_mul]
  constructor
  · rintro ⟨u, v, rfl, hu, hv⟩
    exact ⟨u, hu, v, hv, rfl⟩
  · rintro ⟨u, hu, v, hv, rfl⟩
    exact ⟨u, v, rfl, hu, hv⟩

theorem says_group (i : ℕ) (hn : n.Says L) : (Node.group i n).Says L := hn

/-- once or twice -/
theorem says_twice (style : Style) (hn : n.Says L) : (Node.repeat style 1 (some 2) n).Says (L + L * L) := by
  intro past word ahead
  rw [Language.mem_add, Language.mem_mul]
  constructor
  · rintro ⟨more, hmore, hword⟩
    obtain rfl | rfl : more = 0 ∨ more = 1 := by
      have := hmore 2 rfl
      omega
    · obtain ⟨u, v, rfl, hu, rfl⟩ := hword
      exact .inl (by simpa using (hn _ _ _).1 hu)
    · obtain ⟨u, _, rfl, hu, v, w, rfl, hv, rfl⟩ := hword
      exact .inr ⟨u, (hn _ _ _).1 hu, v, (hn _ _ _).1 hv, by simp⟩
  · rintro (hword | ⟨u, hu, v, hv, rfl⟩)
    · exact ⟨0, by simp, word, [], by simp, (hn _ _ _).2 hword, rfl⟩
    · exact ⟨1, by simp, u, v, rfl, (hn _ _ _).2 hu, v, [], by simp, (hn _ _ _).2 hv, rfl⟩

/-- **Finding is a word of the language in the text.** -/
theorem found_iff_of_says (hplain : n.plain = true) (hn : n.Says L) {text : List Char} :
    found n text = true ↔ ∃ word ∈ L, word <:+: text := by
  simp only [found_iff hplain, hn _ _ _]
  constructor
  · rintro ⟨front, word, rest, rfl, hword⟩
    exact ⟨word, hword, front, rest, rfl⟩
  · rintro ⟨word, hword, front, rest, rfl⟩
    exact ⟨front, word, rest, rfl, hword⟩

end

end MakeAtlas.Pattern
