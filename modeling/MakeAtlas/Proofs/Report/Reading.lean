/-
A reader of JSON, which does not depend on how a text is laid out, and the values that it finds in what is written.
- `readText_quoted`: a text between quotes is read back, whatever its characters.
- `readRow_lined`, `readBracketed_bracketed`: a row is read back when its members are.
- `reads_write`: a value is read back at every level, and what follows it is left over.
- `read_render`, `render_injective`: what is written is the value, and no two values are written alike.
-/
import Mathlib.Data.List.DropRight
import Mathlib.Tactic
import MakeAtlas.Report
import MakeAtlas.Text.Encoding

namespace MakeAtlas.Report.Json

/-! ## The reader -/

def isSpace (c : Char) : Bool := c == ' ' || c == '\t' || c == '\n' || c == '\r'

/-- what is left behind the space in front -/
def skip (cs : List Char) : List Char := cs.dropWhile isSpace

def hexDigit? (c : Char) : Option ℕ :=
  if c.isDigit then some (c.toNat - 0x30)
  else if 'a' ≤ c && c ≤ 'f' then some (c.toNat - 0x57)
  else if 'A' ≤ c && c ≤ 'F' then some (c.toNat - 0x37)
  else none

def hexValue? (cs : List Char) : Option ℕ := cs.foldlM (fun n c => (hexDigit? c).map (16 * n + ·)) 0

def point? (cs : List Char) : Option CodePoint :=
  (hexValue? cs).bind fun n => if h : n < 0x110000 then some ⟨n, h⟩ else none

/-- what a letter behind a backslash stands for -/
def named? (c : Char) : Option Char :=
  [('"', '"'), ('\\', '\\'), ('/', '/'), ('b', '\x08'), ('f', '\x0c'), ('n', '\n'), ('r', '\r'), ('t', '\t')].lookup c

def before (p : CodePoint) : Points × List Char → Points × List Char := Prod.map (p :: ·) id

/-- the code points up to the closing quote -/
def readPoints : List Char → Option (Points × List Char)
  | [] => none
  | '"' :: rest => some ([], rest)
  | '\\' :: 'u' :: a :: b :: c :: d :: rest => (point? [a, b, c, d]).bind fun p => (readPoints rest).map (before p)
  | '\\' :: c :: rest => (named? c).bind fun named => (readPoints rest).map (before (.ofChar named))
  | c :: rest => if c < ' ' then none else (readPoints rest).map (before (.ofChar c))

/-- the character of two halves -/
def join? (p q : CodePoint) : Option Char :=
  if 0xD800 ≤ p.number && p.number < 0xDC00 && 0xDC00 ≤ q.number && q.number < 0xE000 then
    some (Char.ofNat (0x10000 + (p.number - 0xD800) * 0x400 + (q.number - 0xDC00)))
  else none

/-- two halves side by side are one character -/
def joined : Points → Points
  | p :: q :: ps =>
    match join? p q with
    | some c => .ofChar c :: joined ps
    | none => p :: joined (q :: ps)
  | ps => ps

def readText (cs : List Char) : Option (String × List Char) :=
  (readPoints cs).bind fun (ps, rest) => (joined ps).text?.map fun s => (s, rest)

/-- a literal name, or a number -/
def wordValue? (word : List Char) : Option Json :=
  if word = "null".toList then some null
  else if word = "true".toList then some (bool true)
  else if word = "false".toList then some (bool false)
  else if word ≠ [] ∧ word.all Char.isDigit then some (nat (Nat.ofDigitChars 10 word 0))
  else none

/-- a word without quotes -/
def readWord (cs : List Char) : Option (Json × List Char) :=
  (wordValue? (cs.takeWhile Char.isAlphanum)).map fun j => (j, cs.dropWhile Char.isAlphanum)

/-- what is left behind this character -/
def past? (c : Char) (cs : List Char) : Option (List Char) :=
  match skip cs with
  | d :: rest => if d = c then some rest else none
  | [] => none

/-- one or more of these with commas between them, up to the closing character; one unit of fuel for each -/
def readRow {α : Type} (one : List Char → Option (α × List Char)) (closing : Char) :
    ℕ → List Char → Option (List α × List Char)
  | 0, _ => none
  | fuel + 1, cs =>
    (one cs).bind fun (x, rest) =>
      match past? ',' rest with
      | some rest => (readRow one closing fuel rest).map (Prod.map (x :: ·) id)
      | none => (past? closing rest).map fun rest => ([x], rest)

/-- a row that may be empty -/
def readBracketed {α : Type} (one : List Char → Option (α × List Char)) (closing : Char) (fuel : ℕ) (cs : List Char) :
    Option (List α × List Char) :=
  match past? closing cs with
  | some rest => some ([], rest)
  | none => readRow one closing fuel cs

/-- a name, and the value behind the colon -/
def readMember (value : List Char → Option (Json × List Char)) (cs : List Char) :
    Option ((String × Json) × List Char) :=
  ((past? '"' cs).bind readText).bind fun (k, rest) => ((past? ':' rest).bind value).map (Prod.map (k, ·) id)

/-- the value that comes first, and what is left; one unit of fuel for each character -/
def readValue : ℕ → List Char → Option (Json × List Char)
  | 0, _ => none
  | fuel + 1, cs =>
    match skip cs with
    | [] => none
    | c :: rest =>
      if c = '"' then (readText rest).map (Prod.map text id)
      else if c = '[' then (readBracketed (readValue fuel) ']' fuel rest).map (Prod.map list id)
      else if c = '\x7b' then (readBracketed (readMember (readValue fuel)) '\x7d' fuel rest).map (Prod.map object id)
      else readWord (c :: rest)

/-- the value of a text that holds nothing else -/
def read (s : String) : Option Json :=
  (readValue (s.length + 1) s.toList).bind fun (j, rest) => if skip rest = [] then some j else none

/-! ## Texts -/

theorem hexDigit?_digitChar : ∀ d < 16, hexDigit? (Nat.digitChar d) = some d := by decide

theorem hexValue?_toDigits (n : ℕ) : hexValue? (Nat.toDigits 16 n) = some n := by
  induction n using Nat.strong_induction_on with
  | _ n ih =>
    by_cases hn : n < 16
    · rw [Nat.toDigits_of_lt_base hn, hexValue?, List.foldlM_cons, hexDigit?_digitChar n hn]
      simp
    · have hsplit : Nat.toDigits 16 (n / 16) ++ Nat.toDigits 16 (n % 16) =
          Nat.toDigits 16 (16 * (n / 16) + n % 16) :=
        Nat.toDigits_append_toDigits (by decide) (by omega) (by omega)
      rw [Nat.div_add_mod] at hsplit
      rw [← hsplit, hexValue?, List.foldlM_append, ← hexValue?, ih _ (by omega), Nat.toDigits_of_lt_base (by omega)]
      simp [hexDigit?_digitChar _ (Nat.mod_lt n (by decide : 16 > 0)), Nat.div_add_mod]

theorem hexValue?_zeros (k : ℕ) (cs : List Char) : hexValue? (List.replicate k '0' ++ cs) = hexValue? cs := by
  induction k with
  | zero => rfl
  | succ k ih =>
    rw [List.replicate_succ, List.cons_append, hexValue?, List.foldlM_cons]
    exact ih

theorem point?_hex {n : ℕ} (hn : n < 0x110000) : point? (Text.hex 4 n) = some ⟨n, hn⟩ := by
  rw [point?, Text.hex, hexValue?_zeros, hexValue?_toDigits, Option.bind_some, dif_pos hn]

theorem length_hex {n : ℕ} (hn : n < 0x10000) : (Text.hex 4 n).length = 4 := by
  have hlength : (Nat.toDigits 16 n).length ≤ 4 := (Nat.length_toDigits_le_iff (by decide) (by decide)).2 hn
  rw [Text.hex, List.length_append, List.length_replicate]
  omega

/-- an escape by number is one code point -/
theorem readPoints_unit {n : ℕ} (hn : n < 0x10000) (rest : List Char) :
    readPoints (unit n ++ rest) = (readPoints rest).map (before ⟨n, by omega⟩) := by
  obtain ⟨a, b, c, d, hdigits⟩ := List.length_eq_four.1 (length_hex hn)
  have hpoint : point? [a, b, c, d] = some ⟨n, by omega⟩ := hdigits ▸ point?_hex (by omega)
  rw [unit, hdigits]
  simp [readPoints, hpoint]

theorem number_ofChar_lt (c : Char) : c.toNat < 0x110000 := (CodePoint.ofChar c).isLt

def firstHalf (c : Char) : CodePoint where
  number := 0xD800 + (c.toNat - 0x10000) / 0x400
  isLt := by
    have hc := number_ofChar_lt c
    omega

def secondHalf (c : Char) : CodePoint where
  number := 0xDC00 + (c.toNat - 0x10000) % 0x400
  isLt := by omega

/-- the code points that a character is written as: two halves for one beyond 16 bits -/
def halves (c : Char) : Points := if c.toNat < 0x10000 then [.ofChar c] else [firstHalf c, secondHalf c]

theorem readPoints_plain {c : Char} (hquote : c ≠ '"') (hbackslash : c ≠ '\\') (hspace : ' ' ≤ c) (rest : List Char) :
    readPoints (c :: rest) = (readPoints rest).map (before (.ofChar c)) := by
  rw [readPoints.eq_def]
  split
  · contradiction
  · simp_all
  · simp_all
  · simp_all
  · simp_all

theorem readPoints_named {c named : Char} (hc : c ≠ 'u') (hnamed : named? c = some named) (rest : List Char) :
    readPoints ('\\' :: c :: rest) = (readPoints rest).map (before (.ofChar named)) := by
  simp [readPoints, hc, hnamed]

/-- an escaped character is read as its code points -/
theorem readPoints_escaped (c : Char) (rest : List Char) :
    readPoints (escaped c ++ rest) = (readPoints rest).map (Prod.map (halves c ++ ·) id) := by
  have hsmall : c.toNat < 0x10000 → (readPoints rest).map (before (.ofChar c)) =
      (readPoints rest).map (Prod.map (halves c ++ ·) id) := by
    intro hc
    rw [halves, if_pos hc]
    rfl
  have hnamed : ∀ {d : Char}, d ≠ 'u' → named? d = some c → c.toNat < 0x10000 →
      readPoints ('\\' :: d :: rest) = (readPoints rest).map (Prod.map (halves c ++ ·) id) :=
    fun hd hname hc => (readPoints_named hd hname rest).trans (hsmall hc)
  unfold escaped
  split_ifs with hquote hline hreturn htab hback hfeed hplain hlow
  · rcases (by simpa using hquote : c = '"' ∨ c = '\\') with rfl | rfl <;> exact hnamed (by decide) rfl (by decide)
  · obtain rfl := eq_of_beq hline
    exact hnamed (by decide) rfl (by decide)
  · obtain rfl := eq_of_beq hreturn
    exact hnamed (by decide) rfl (by decide)
  · obtain rfl := eq_of_beq htab
    exact hnamed (by decide) rfl (by decide)
  · obtain rfl := eq_of_beq hback
    exact hnamed (by decide) rfl (by decide)
  · obtain rfl := eq_of_beq hfeed
    exact hnamed (by decide) rfl (by decide)
  · obtain ⟨hspace, htilde⟩ : ' ' ≤ c ∧ c ≤ '~' := by simpa using hplain
    obtain ⟨hq, hb⟩ : c ≠ '"' ∧ c ≠ '\\' := by simpa using hquote
    have hascii : c.toNat ≤ 126 := htilde
    exact (readPoints_plain hq hb hspace rest).trans (hsmall (by omega))
  · exact (readPoints_unit hlow rest).trans (hsmall hlow)
  · have hc := number_ofChar_lt c
    rw [List.append_assoc, readPoints_unit (by omega), readPoints_unit (by omega), halves, if_neg hlow, Option.map_map]
    rfl

/-- a character is no half of a pair -/
theorem valid_ofChar (c : Char) : (CodePoint.ofChar c).number < 0xD800 ∨ 0xDFFF < (CodePoint.ofChar c).number :=
  Or.imp_right And.left c.valid

theorem joined_ofChar (c : Char) (ps : Points) : joined (.ofChar c :: ps) = .ofChar c :: joined ps := by
  cases ps with
  | nil => rfl
  | cons q ps =>
    have hvalid := valid_ofChar c
    have hjoin : join? (.ofChar c) q = none := by
      rw [join?, if_neg]
      simp only [Bool.and_eq_true, decide_eq_true_eq]
      omega
    rw [joined, hjoin]

theorem join?_halves {c : Char} (hlow : ¬c.toNat < 0x10000) : join? (firstHalf c) (secondHalf c) = some c := by
  have hc := number_ofChar_lt c
  have hfirst : (firstHalf c).number = 0xD800 + (c.toNat - 0x10000) / 0x400 := rfl
  have hsecond : (secondHalf c).number = 0xDC00 + (c.toNat - 0x10000) % 0x400 := rfl
  have hnumber : 0x10000 + ((firstHalf c).number - 0xD800) * 0x400 + ((secondHalf c).number - 0xDC00) = c.toNat := by
    omega
  rw [join?, if_pos, hnumber, Char.ofNat_toNat]
  simp only [Bool.and_eq_true, decide_eq_true_eq]
  omega

theorem joined_halves (c : Char) (ps : Points) : joined (halves c ++ ps) = .ofChar c :: joined ps := by
  unfold halves
  split_ifs with hlow
  · exact joined_ofChar c ps
  · rw [List.cons_append, List.cons_append, List.nil_append, joined, join?_halves hlow]

theorem joined_flatMap (cs : List Char) : joined (cs.flatMap halves) = Points.ofChars cs := by
  induction cs with
  | nil => rfl
  | cons c cs ih => rw [List.flatMap_cons, joined_halves, ih, Points.ofChars, Points.ofChars, List.map_cons]

theorem char?_ofChar (c : Char) : (CodePoint.ofChar c).char? = some c := by
  rw [CodePoint.char?, if_pos]
  · exact congrArg some (Char.ofNat_toNat c)
  · simp only [Bool.or_eq_true, decide_eq_true_eq]
    exact valid_ofChar c

theorem text?_ofChars (cs : List Char) : (Points.ofChars cs).text? = some (String.ofList cs) := by
  have hchars : Points.chars? (Points.ofChars cs) = some cs := by
    induction cs with
    | nil => rfl
    | cons c cs ih =>
      rw [Points.chars?, Points.ofChars] at ih ⊢
      rw [List.map_cons, List.mapM_cons, char?_ofChar, ih]
      rfl
  rw [Points.text?, hchars, Option.map_some]

theorem readPoints_flatMap (cs rest : List Char) :
    readPoints (cs.flatMap escaped ++ '"' :: rest) = some (cs.flatMap halves, rest) := by
  induction cs with
  | nil => rfl
  | cons c cs ih =>
    rw [List.flatMap_cons, List.append_assoc, readPoints_escaped, ih, List.flatMap_cons]
    rfl

/-- **A text is read back.** -/
theorem readText_quoted (s : String) (rest : List Char) :
    ∃ inner, (quoted s).toList = '"' :: inner ∧ readText (inner ++ rest) = some (s, rest) := by
  refine ⟨s.toList.flatMap escaped ++ ['"'], by simp [quoted], ?_⟩
  rw [List.append_assoc, List.singleton_append, readText, readPoints_flatMap]
  simp only [Option.bind_some, joined_flatMap, text?_ofChars, String.ofList_toList, Option.map_some]

/-! ## Words -/

/-- no word goes on here -/
def Ends (cs : List Char) : Prop := ∀ c ∈ cs.head?, c.isAlphanum = false

theorem readWord_append {word rest : List Char} (hword : ∀ c ∈ word, c.isAlphanum = true) (hrest : Ends rest) :
    readWord (word ++ rest) = (wordValue? word).map fun j => (j, rest) := by
  have hnone : rest.takeWhile Char.isAlphanum = [] ∧ rest.dropWhile Char.isAlphanum = rest := by
    cases rest with
    | nil => exact ⟨rfl, rfl⟩
    | cons c rest => simp [hrest c rfl]
  rw [readWord, List.takeWhile_append_of_pos hword, List.dropWhile_append_of_pos hword, hnone.1, hnone.2,
    List.append_nil]

theorem wordValue?_toDigits (n : ℕ) : wordValue? (Nat.toDigits 10 n) = some (nat n) := by
  have hdigit : ∀ c ∈ Nat.toDigits 10 n, c.isDigit = true := fun c hc =>
    Nat.isDigit_of_mem_toDigits (by decide) (by decide) hc
  -- a literal name has letters
  have hname : ∀ name : String, (∃ c ∈ name.toList, c.isDigit = false) → Nat.toDigits 10 n ≠ name.toList := by
    rintro name ⟨c, hc, hletter⟩ heq
    rw [← heq] at hc
    exact absurd (hdigit c hc) (by simp [hletter])
  rw [wordValue?, if_neg (hname _ ⟨'n', by decide, by decide⟩), if_neg (hname _ ⟨'t', by decide, by decide⟩),
    if_neg (hname _ ⟨'f', by decide, by decide⟩), if_pos ⟨Nat.toDigits_ne_nil, List.all_eq_true.2 hdigit⟩,
    Nat.ofDigitChars_ten_toDigits]

/-! ## Layout -/

/-- a value or a name begins here: neither space nor the end of a row -/
def Opens (cs : List Char) : Prop := ∃ c, cs.head? = some c ∧ isSpace c = false ∧ c ≠ ']' ∧ c ≠ '\x7d'

theorem Opens.append {cs : List Char} (h : Opens cs) (rest : List Char) : Opens (cs ++ rest) := by
  obtain ⟨c, hc, hother⟩ := h
  exact ⟨c, by rw [List.head?_append, hc, Option.some_or], hother⟩

theorem Opens.length_pos {cs : List Char} (h : Opens cs) : 0 < cs.length := by
  obtain ⟨c, hc, -⟩ := h
  cases cs with
  | nil => cases hc
  | cons => exact Nat.succ_pos _

theorem skip_cons {c : Char} (hc : isSpace c = false) (cs : List Char) : skip (c :: cs) = c :: cs := by
  simp [skip, hc]

theorem skip_skip (cs : List Char) : skip (skip cs) = skip cs := List.dropWhile_idempotent _ cs

theorem skip_append {space : List Char} (hspace : ∀ c ∈ space, isSpace c = true) (cs : List Char) :
    skip (space ++ cs) = skip cs := List.dropWhile_append_of_pos hspace

theorem past?_skip (c : Char) (cs : List Char) : past? c (skip cs) = past? c cs := by
  rw [past?, skip_skip, past?]

theorem past?_cons {c : Char} (hc : isSpace c = false) (cs : List Char) : past? c (c :: cs) = some cs := by
  simp [past?, skip_cons hc]

theorem past?_cons_of_ne {c d : Char} (hd : isSpace d = false) (hne : d ≠ c) (cs : List Char) :
    past? c (d :: cs) = none := by
  simp [past?, skip_cons hd, hne]

theorem Opens.past?_eq_none {cs : List Char} (h : Opens cs) : past? ']' cs = none ∧ past? '\x7d' cs = none := by
  obtain ⟨c, hc, hspace, hlist, hobject⟩ := h
  cases cs with
  | nil => cases hc
  | cons d cs =>
    obtain rfl := Option.some.inj hc
    exact ⟨past?_cons_of_ne hspace hlist cs, past?_cons_of_ne hspace hobject cs⟩

section

variable {α : Type} {one : List Char → Option (α × List Char)}

/-- space in front makes no difference -/
def Skips (one : List Char → Option (α × List Char)) : Prop := ∀ cs, one (skip cs) = one cs

theorem Skips.append (h : Skips one) {space : List Char} (hspace : ∀ c ∈ space, isSpace c = true) (cs : List Char) :
    one (space ++ cs) = one cs := by
  rw [← h, skip_append hspace, h]

theorem skips_readRow (h : Skips one) (closing : Char) (fuel : ℕ) : Skips (readRow one closing fuel) := by
  intro cs
  cases fuel <;> simp only [readRow, h cs]

theorem skips_readMember (value : List Char → Option (Json × List Char)) : Skips (readMember value) := by
  intro cs
  rw [readMember, past?_skip, readMember]

theorem skips_readValue (fuel : ℕ) : Skips (readValue fuel) := by
  intro cs
  cases fuel <;> simp only [readValue, skip_skip]

theorem isSpace_of_mem_newLine (level : ℕ) : ∀ c ∈ (newLine level).toList, isSpace c = true := by
  intro c hc
  rw [newLine, String.toList_ofList, List.mem_cons, List.mem_replicate] at hc
  rcases hc with rfl | ⟨-, rfl⟩ <;> rfl

theorem past?_newLine (c : Char) (level : ℕ) (cs : List Char) :
    past? c ((newLine level).toList ++ cs) = past? c cs := by
  rw [← past?_skip, skip_append (isSpace_of_mem_newLine level), past?_skip]

theorem ends_newLine (level : ℕ) (cs : List Char) : Ends ((newLine level).toList ++ cs) := by
  rintro c hc
  obtain rfl : '\n' = c := by simpa [newLine] using hc
  rfl

theorem ends_comma (cs : List Char) : Ends (',' :: cs) := by
  rintro c hc
  obtain rfl : ',' = c := Option.some.inj hc
  rfl

theorem length_newLine (level : ℕ) : (newLine level).toList.length = 2 * level + 1 := by
  simp [newLine]

def lined (level : ℕ) (members : List String) : List Char := (("," ++ newLine level).intercalate members).toList

theorem lined_singleton (level : ℕ) (m : String) : lined level [m] = m.toList := by
  simp [lined]

theorem lined_cons_cons (level : ℕ) (m m' : String) (ms : List String) :
    lined level (m :: m' :: ms) = m.toList ++ ',' :: ((newLine level).toList ++ lined level (m' :: ms)) := by
  simp [lined, String.toList_intercalate]

theorem toList_bracketed_nil (opening closing : String) (level : ℕ) :
    (bracketed opening closing level []).toList = opening.toList ++ closing.toList := by
  simp [bracketed]

theorem toList_bracketed_cons (opening closing : String) (level : ℕ) (m : String) (ms : List String) :
    (bracketed opening closing level (m :: ms)).toList = opening.toList ++ ((newLine (level + 1)).toList ++
      (lined (level + 1) (m :: ms) ++ ((newLine level).toList ++ closing.toList))) := by
  simp [bracketed, lined]

theorem length_le_lined (level : ℕ) (ms : List String) :
    ms.length ≤ (lined level ms).length + 1 ∧ ∀ m ∈ ms, m.toList.length ≤ (lined level ms).length := by
  induction ms with
  | nil => simp
  | cons m ms ih =>
    cases ms with
    | nil => simp [lined_singleton]
    | cons m' ms =>
      have hlength : (lined level (m :: m' :: ms)).length =
          m.toList.length + ((newLine level).toList.length + (lined level (m' :: ms)).length + 1) := by
        rw [lined_cons_cons, List.length_append, List.length_cons, List.length_append]
      rw [List.length_cons, List.forall_mem_cons, hlength]
      refine ⟨by omega, by omega, fun n hn => ?_⟩
      have hle := ih.2 n hn
      omega

theorem exists_lined_cons (level : ℕ) (m : String) (ms : List String) :
    ∃ behind, lined level (m :: ms) = m.toList ++ behind := by
  cases ms with
  | nil => exact ⟨[], by rw [lined_singleton, List.append_nil]⟩
  | cons m' ms => exact ⟨_, lined_cons_cons level m m' ms⟩

/-- a reader finds this behind the text, and leaves what follows -/
def Reads (one : List Char → Option (α × List Char)) (x : α) (m : String) : Prop :=
  ∀ rest, Ends rest → one (m.toList ++ rest) = some (x, rest)

/-- a row is read back when its members are -/
theorem readRow_lined (hskips : Skips one) {closing : Char} (hclosing : isSpace closing = false ∧ closing ≠ ',')
    {xs : List α} {ms : List String} (hreads : List.Forall₂ (Reads one) xs ms) (hne : ms ≠ []) {fuel : ℕ}
    (hfuel : ms.length ≤ fuel) (level inner : ℕ) (rest : List Char) :
    readRow one closing fuel (lined inner ms ++ ((newLine level).toList ++ closing :: rest)) = some (xs, rest) := by
  induction hreads generalizing fuel with
  | nil => contradiction
  | @cons x m xs ms hm hms ih =>
    obtain ⟨fuel, rfl⟩ : ∃ k, fuel = k + 1 := ⟨fuel - 1, by rw [List.length_cons] at hfuel; omega⟩
    cases ms with
    | nil =>
      obtain rfl := List.forall₂_nil_right_iff.1 hms
      rw [lined_singleton, readRow, hm _ (ends_newLine _ _)]
      simp [past?_newLine, past?_cons_of_ne hclosing.1 hclosing.2, past?_cons hclosing.1]
    | cons m' ms =>
      have hrest := ih (List.cons_ne_nil _ _) (Nat.le_of_succ_le_succ hfuel)
      rw [lined_cons_cons, List.append_assoc, List.cons_append, List.append_assoc, readRow, hm _ (ends_comma _)]
      simp only [Option.bind_some, past?_cons (c := ',') (by decide)]
      rw [(skips_readRow hskips closing fuel).append (isSpace_of_mem_newLine inner), hrest]
      rfl

/-- brackets around a row are read back -/
theorem readBracketed_bracketed (hskips : Skips one) (opening closing : String) {c : Char}
    (hclosing : closing.toList = [c]) (hc : isSpace c = false ∧ c ≠ ',') {xs : List α} {ms : List String}
    (hreads : List.Forall₂ (Reads one) xs ms) (hopens : ∀ m ∈ ms, ∀ rest, past? c (m.toList ++ rest) = none) {fuel : ℕ}
    (hfuel : ms.length ≤ fuel) (level : ℕ) (rest : List Char) :
    ∃ inner, (bracketed opening closing level ms).toList ++ rest = opening.toList ++ inner ∧
      readBracketed one c fuel inner = some (xs, rest) := by
  cases ms with
  | nil =>
    obtain rfl := List.forall₂_nil_right_iff.1 hreads
    refine ⟨c :: rest, ?_, ?_⟩
    · rw [toList_bracketed_nil, hclosing, List.append_assoc, List.singleton_append]
    · rw [readBracketed, past?_cons hc.1]
  | cons m ms =>
    refine ⟨(newLine (level + 1)).toList ++
      (lined (level + 1) (m :: ms) ++ ((newLine level).toList ++ c :: rest)), ?_, ?_⟩
    · simp [toList_bracketed_cons, hclosing]
    · have hclosed : past? c (lined (level + 1) (m :: ms) ++ ((newLine level).toList ++ c :: rest)) = none := by
        obtain ⟨behind, hlined⟩ := exists_lined_cons (level + 1) m ms
        rw [hlined, List.append_assoc]
        exact hopens m List.mem_cons_self _
      rw [readBracketed, past?_newLine, hclosed]
      simp only
      rw [(skips_readRow hskips c fuel).append (isSpace_of_mem_newLine _)]
      exact readRow_lined hskips hc hreads (List.cons_ne_nil _ _) hfuel level (level + 1) rest

end

/-- a member is read back when its value is -/
theorem Reads.member {value : List Char → Option (Json × List Char)} (hskips : Skips value) {x : Json} {m : String}
    (hm : Reads value x m) (k : String) : Reads (readMember value) (k, x) (quoted k ++ ": " ++ m) := by
  intro rest hrest
  obtain ⟨inner, hquoted, hread⟩ := readText_quoted k (':' :: ([' '] ++ (m.toList ++ rest)))
  have htext : (quoted k ++ ": " ++ m).toList ++ rest = '"' :: (inner ++ ':' :: ([' '] ++ (m.toList ++ rest))) := by
    simp [hquoted]
  have hspace : value ([' '] ++ (m.toList ++ rest)) = some (x, rest) := by
    rw [hskips.append (by simp [isSpace]), hm rest hrest]
  rw [htext, readMember, past?_cons (by decide), Option.bind_some, hread]
  simp only [Option.bind_some, past?_cons (c := ':') (by decide), hspace, Option.map_some, Prod.map, id]

theorem opens_bracketed {opening : String} (hopening : Opens opening.toList) (closing : String) (level : ℕ)
    (members : List String) : Opens (bracketed opening closing level members).toList := by
  cases members with
  | nil =>
    rw [toList_bracketed_nil]
    exact hopening.append _
  | cons m ms =>
    rw [toList_bracketed_cons]
    exact hopening.append _

theorem opens_quoted (s : String) : Opens (quoted s).toList := ⟨'"', by simp [quoted], by decide, by decide⟩

theorem opens_write (level : ℕ) (j : Json) : Opens (j.write level).toList := by
  cases j with
  | null =>
    rw [write]
    exact ⟨'n', by decide, by decide, by decide⟩
  | bool b =>
    rw [write]
    cases b with
    | false => exact ⟨'f', by decide, by decide, by decide⟩
    | true => exact ⟨'t', by decide, by decide, by decide⟩
  | nat n =>
    rw [write, Nat.toString_eq_repr, Nat.toList_repr]
    obtain ⟨d, ds, hds⟩ := List.exists_cons_of_ne_nil (Nat.toDigits_ne_nil (b := 10) (n := n))
    have hd : d ∈ Nat.toDigits 10 n := hds ▸ List.mem_cons_self
    have hdigit : d.isDigit = true := Nat.isDigit_of_mem_toDigits (by decide) (by decide) hd
    have hother : ∀ c : Char, c.isDigit = false → d ≠ c := by
      rintro c hc rfl
      exact absurd hdigit (by simp [hc])
    refine ⟨d, by rw [hds, List.head?_cons], ?_, hother _ (by decide), hother _ (by decide)⟩
    simp [isSpace, hother]
  | text s => exact opens_quoted s
  | list xs => exact opens_bracketed ⟨'[', by decide, by decide, by decide⟩ _ _ _
  | object es => exact opens_bracketed ⟨'\x7b', by decide, by decide, by decide⟩ _ _ _

theorem opens_writeItems (level : ℕ) (xs : List Json) : ∀ m ∈ writeItems level xs, Opens m.toList := by
  induction xs with
  | nil => simp [writeItems]
  | cons x xs ih =>
    rw [writeItems, List.forall_mem_cons]
    exact ⟨opens_write level x, ih⟩

theorem opens_writeEntries (level : ℕ) (es : List (String × Json)) : ∀ m ∈ writeEntries level es, Opens m.toList := by
  induction es with
  | nil => simp [writeEntries]
  | cons e es ih =>
    rw [writeEntries, List.forall_mem_cons, String.append_assoc, String.toList_append]
    exact ⟨(opens_quoted e.1).append _, ih⟩

/-! ## Values -/

theorem reads_word {fuel : ℕ} {word : String} {j : Json} (hopens : Opens word.toList)
    (hword : ∀ c ∈ word.toList, c.isAlphanum = true) (hj : wordValue? word.toList = some j) :
    Reads (readValue (fuel + 1)) j word := by
  intro rest hrest
  obtain ⟨c, hc, hspace, -⟩ := hopens
  obtain ⟨cs, hcs⟩ := List.head?_eq_some_iff.1 hc
  have hother : ∀ d : Char, d.isAlphanum = false → c ≠ d := by
    rintro d hd rfl
    exact absurd (hword c (hcs ▸ List.mem_cons_self)) (by simp [hd])
  have hread := readWord_append hword hrest
  rw [hj, Option.map_some, hcs, List.cons_append] at hread
  rw [hcs, List.cons_append, readValue, skip_cons hspace]
  simp only
  rw [if_neg (hother _ (by decide)), if_neg (hother _ (by decide)), if_neg (hother _ (by decide)), hread]

theorem reads_null (fuel : ℕ) : Reads (readValue (fuel + 1)) null "null" := by
  have hopens := opens_write 0 null
  rw [write] at hopens
  exact reads_word hopens (List.all_eq_true.1 rfl) rfl

theorem reads_bool (fuel : ℕ) (b : Bool) : Reads (readValue (fuel + 1)) (bool b) (if b then "true" else "false") := by
  have hopens := opens_write 0 (bool b)
  rw [write] at hopens
  cases b with
  | false => exact reads_word hopens (List.all_eq_true.1 rfl) rfl
  | true => exact reads_word hopens (List.all_eq_true.1 rfl) rfl

theorem reads_nat (fuel n : ℕ) : Reads (readValue (fuel + 1)) (nat n) (toString n) := by
  have hopens := opens_write 0 (nat n)
  have hdigits : (toString n).toList = Nat.toDigits 10 n := by rw [Nat.toString_eq_repr, Nat.toList_repr]
  have hword : ∀ c ∈ (toString n).toList, c.isAlphanum = true := by
    intro c hc
    rw [hdigits] at hc
    simp [Char.isAlphanum, Nat.isDigit_of_mem_toDigits (by decide) (by decide) hc]
  rw [write] at hopens
  exact reads_word hopens hword (by rw [hdigits, wordValue?_toDigits])

theorem reads_text (fuel : ℕ) (s : String) : Reads (readValue (fuel + 1)) (text s) (quoted s) := by
  intro rest hrest
  obtain ⟨inner, hquoted, hread⟩ := readText_quoted s rest
  rw [hquoted, List.cons_append, readValue, skip_cons (by decide)]
  simp [hread]

theorem reads_list {fuel level : ℕ} {xs : List Json} {ms : List String} (hopens : ∀ m ∈ ms, Opens m.toList)
    (hfuel : ms.length ≤ fuel) (hreads : List.Forall₂ (Reads (readValue fuel)) xs ms) :
    Reads (readValue (fuel + 1)) (list xs) (bracketed "[" "]" level ms) := by
  intro rest hrest
  obtain ⟨inner, htext, hread⟩ := readBracketed_bracketed (skips_readValue fuel) "[" "]" (c := ']') rfl
    (by decide) hreads (fun m hm rest => ((hopens m hm).append rest).past?_eq_none.1) hfuel level rest
  have hbehind : "[".toList ++ inner = '[' :: inner := rfl
  rw [htext, hbehind, readValue, skip_cons (by decide)]
  simp [hread]

theorem reads_object {fuel level : ℕ} {es : List (String × Json)} {ms : List String} (hopens : ∀ m ∈ ms, Opens m.toList)
    (hfuel : ms.length ≤ fuel) (hreads : List.Forall₂ (Reads (readMember (readValue fuel))) es ms) :
    Reads (readValue (fuel + 1)) (object es) (bracketed "\x7b" "\x7d" level ms) := by
  intro rest hrest
  obtain ⟨inner, htext, hread⟩ := readBracketed_bracketed (skips_readMember (readValue fuel)) "\x7b"
    "\x7d" (c := '\x7d') rfl (by decide) hreads
    (fun m hm rest => ((hopens m hm).append rest).past?_eq_none.2) hfuel level rest
  have hbehind : "\x7b".toList ++ inner = '\x7b' :: inner := rfl
  rw [htext, hbehind, readValue, skip_cons (by decide)]
  simp [hread]

/-- the members of a row are shorter than its text -/
theorem length_lt_bracketed (opening closing : String) (level : ℕ) (ms : List String) :
    ms.length ≤ (bracketed opening closing level ms).toList.length ∧
      ∀ m ∈ ms, m.toList.length < (bracketed opening closing level ms).toList.length := by
  cases ms with
  | nil => simp
  | cons m ms =>
    obtain ⟨hcount, hlength⟩ := length_le_lined (level + 1) (m :: ms)
    have hbracketed : (lined (level + 1) (m :: ms)).length + 1 ≤
        (bracketed opening closing level (m :: ms)).toList.length := by
      simp only [toList_bracketed_cons, List.length_append, length_newLine]
      omega
    exact ⟨by omega, fun n hn => by have hn := hlength n hn; omega⟩

mutual

/-- **A value is read back** at every level. -/
theorem reads_write (level : ℕ) : (j : Json) → ∀ fuel, (j.write level).toList.length ≤ fuel →
    Reads (readValue (fuel + 1)) j (j.write level)
  | null => by
    intro fuel _
    rw [write]
    exact reads_null fuel
  | bool b => by
    intro fuel _
    rw [write]
    exact reads_bool fuel b
  | nat n => by
    intro fuel _
    rw [write]
    exact reads_nat fuel n
  | text s => by
    intro fuel _
    rw [write]
    exact reads_text fuel s
  | list xs => by
    intro fuel hfuel
    rw [write] at hfuel ⊢
    obtain ⟨hcount, hlength⟩ := length_lt_bracketed "[" "]" level (writeItems (level + 1) xs)
    have hpos := (opens_write level (list xs)).length_pos
    rw [write] at hpos
    obtain ⟨fuel, rfl⟩ : ∃ k, fuel = k + 1 := ⟨fuel - 1, by omega⟩
    refine reads_list (opens_writeItems _ xs) (by omega) (reads_writeItems _ xs _ fun m hm => ?_)
    have hm := hlength m hm
    omega
  | object es => by
    intro fuel hfuel
    rw [write] at hfuel ⊢
    obtain ⟨hcount, hlength⟩ := length_lt_bracketed "\x7b" "\x7d" level (writeEntries (level + 1) es)
    have hpos := (opens_write level (object es)).length_pos
    rw [write] at hpos
    obtain ⟨fuel, rfl⟩ : ∃ k, fuel = k + 1 := ⟨fuel - 1, by omega⟩
    refine reads_object (opens_writeEntries _ es) (by omega) (reads_writeEntries _ es _ fun m hm => ?_)
    have hm := hlength m hm
    omega

theorem reads_writeItems (level : ℕ) : (xs : List Json) → ∀ fuel,
    (∀ m ∈ writeItems level xs, m.toList.length ≤ fuel) →
    List.Forall₂ (Reads (readValue (fuel + 1))) xs (writeItems level xs)
  | [] => by
    intro fuel _
    rw [writeItems]
    exact .nil
  | x :: xs => by
    intro fuel hfuel
    rw [writeItems, List.forall_mem_cons] at hfuel
    rw [writeItems]
    exact .cons (reads_write level x _ hfuel.1) (reads_writeItems level xs _ hfuel.2)

theorem reads_writeEntries (level : ℕ) : (es : List (String × Json)) → ∀ fuel,
    (∀ m ∈ writeEntries level es, m.toList.length ≤ fuel) →
    List.Forall₂ (Reads (readMember (readValue (fuel + 1)))) es (writeEntries level es)
  | [] => by
    intro fuel _
    rw [writeEntries]
    exact .nil
  | (k, x) :: es => by
    intro fuel hfuel
    rw [writeEntries, List.forall_mem_cons] at hfuel
    rw [writeEntries]
    have hlength : (x.write level).toList.length ≤ fuel := le_trans (by simp; omega) hfuel.1
    exact .cons ((reads_write level x _ hlength).member (skips_readValue _) k) (reads_writeEntries level es _ hfuel.2)

end

/-- **The text of a value holds the value.** -/
theorem read_render (j : Json) : read j.render = some j := by
  have hrender : j.render.toList = (j.write 0).toList ++ ['\n'] := by simp [render]
  have hlength : (j.write 0).toList.length ≤ j.render.length := by simp [render, String.length_toList]
  have hends : Ends ['\n'] := by
    rintro c hc
    obtain rfl := Option.some.inj hc
    rfl
  rw [read, hrender, reads_write 0 j _ hlength _ hends]
  rfl

/-- no two values are written alike -/
theorem render_injective : Function.Injective render := by
  intro j j' heq
  have hread := read_render j
  rw [heq, read_render] at hread
  exact (Option.some.inj hread).symm

end MakeAtlas.Report.Json
