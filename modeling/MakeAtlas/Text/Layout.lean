/-
Texts as they are laid out and shown: cut into lines, put between quotes, padded for a terminal; and whole numbers as
they are typed.
-/
import MakeAtlas.Text.CharClass

/-! ## Lines

Cutting a text into lines. Two sets of line breaks are in use: text held in memory breaks at every character that ends a
line in any convention, a file only at a line feed or a carriage return. In both a carriage return and the line feed
after it are one break, and a break at the very end starts no further line. -/

namespace MakeAtlas.Text

/-- every character that ends a line in some convention -/
def isLineBreak (c : Char) : Bool :=
  (0x0A ≤ c.toNat && c.toNat ≤ 0x0D) || (0x1C ≤ c.toNat && c.toNat ≤ 0x1E) || c.toNat == 0x85 ||
    c.toNat == 0x2028 || c.toNat == 0x2029

/-- the two characters that end a line in a file -/
def isNewline (c : Char) : Bool := c == '\n' || c == '\r'

/-- cut at the characters of `brk`, taking a carriage return and the line feed after it as one -/
def linesBy (brk : Char → Bool) : List Char → List (List Char)
  | [] => []
  | '\r' :: '\n' :: cs => [] :: linesBy brk cs
  | c :: cs =>
    if brk c then [] :: linesBy brk cs
    else match linesBy brk cs with
      | [] => [[c]]
      | l :: ls => (c :: l) :: ls

/-- the lines of a text held in memory -/
def lines (s : List Char) : List (List Char) := linesBy isLineBreak s

def fileLines (s : List Char) : List (List Char) := linesBy isNewline s

/-- every line end of a file written as a single line feed -/
def unifyNewlines : List Char → List Char
  | [] => []
  | '\r' :: '\n' :: cs => '\n' :: unifyNewlines cs
  | c :: cs => (if c == '\r' then '\n' else c) :: unifyNewlines cs

end MakeAtlas.Text

/-! ## Quotes

A text between quotes, for messages: the quote is an apostrophe unless the text holds an apostrophe and no double quote;
the quote and the backslash take a backslash, and characters without a visible form are written by number. -/

namespace MakeAtlas.Text

/-- a number in base 16, at least `width` digits -/
def hex (width n : Nat) : List Char :=
  let digits := Nat.toDigits 16 n
  List.replicate (width - digits.length) '0' ++ digits

/-- the quote that a text takes -/
def quoteFor (s : List Char) : Char :=
  if s.contains '\'' && !s.contains '"' then '"' else '\''

def quotedChar (quote c : Char) : List Char :=
  if c == quote || c == '\\' then ['\\', c]
  else if c == '\t' then ['\\', 't']
  else if c == '\n' then ['\\', 'n']
  else if c == '\r' then ['\\', 'r']
  else if isPrintable c.toNat then [c]
  else if c.toNat < 0x100 then '\\' :: 'x' :: hex 2 c.toNat
  else if c.toNat < 0x10000 then '\\' :: 'u' :: hex 4 c.toNat
  else '\\' :: 'U' :: hex 8 c.toNat

/-- the text between quotes -/
def quoted (s : String) : String :=
  let q := quoteFor s.toList
  String.ofList (q :: s.toList.flatMap (quotedChar q) ++ [q])

end MakeAtlas.Text

/-! ## Terminals

Text for a terminal: padding, and the sequences with which a text could switch the colours of a terminal. Such a
sequence is an escape character, a bracket, parameters and a letter. -/

namespace MakeAtlas.Text

def isParameter (c : Char) : Bool := c.isDigit || c == ';' || c == '?'

/-- the text after the sequence that starts here -/
def afterSequence? : List Char → Option (List Char)
  | '\x1b' :: '[' :: cs =>
    match cs.dropWhile isParameter with
    | c :: rest => if c.isAlpha then some rest else none
    | [] => none
  | _ => none

/-- a sequence takes up part of the text -/
theorem length_lt_of_afterSequence? {s rest : List Char} (h : afterSequence? s = some rest) :
    rest.length < s.length := by
  unfold afterSequence? at h
  split at h
  · next cs =>
    split at h
    · next c r heq =>
      split at h
      · have hl := (List.dropWhile_sublist isParameter (l := cs)).length_le
        simp only [heq, List.length_cons, Option.some.injEq] at hl h ⊢
        subst h
        omega
      · simp at h
    · simp at h
  · simp at h

def withoutSequences (s : List Char) : List Char :=
  match h : afterSequence? s with
  | some rest =>
    have := length_lt_of_afterSequence? h
    withoutSequences rest
  | none =>
    match s with
    | [] => []
    | c :: cs => c :: withoutSequences cs
termination_by s.length

/-- a text without an escape character has no sequences in it -/
theorem withoutSequences_eq {s : List Char} (h : '\x1b' ∉ s) : withoutSequences s = s := by
  induction s with
  | nil => rw [withoutSequences]; rfl
  | cons c cs ih =>
    rw [List.mem_cons, not_or] at h
    have hnone : afterSequence? (c :: cs) = none := by
      unfold afterSequence?
      split
      · next heq => exact absurd (List.cons.inj heq).1.symm h.1
      · rfl
    rw [withoutSequences]
    split
    · next heq => rw [hnone] at heq; cases heq
    · exact congrArg (c :: ·) (ih h.2)

/-- blanks put after a text until it has this width -/
def padRight (width : Nat) (s : String) : String := s ++ String.ofList (List.replicate (width - s.length) ' ')

/-- blanks put before a text until it has this width -/
def padLeft (width : Nat) (s : String) : String := String.ofList (List.replicate (width - s.length) ' ') ++ s

/-- the text without the blanks at its end -/
def stripRight (s : String) : String := String.ofList (dropEndWhile isBlank s.toList)

end MakeAtlas.Text

/-! ## Whole numbers

Whole numbers as a person writes them: blanks around, a sign, decimal digits of any script, and single underscores
between digits. A number of more than 4300 digits is refused. -/

namespace MakeAtlas.Text

def longestNumber : Nat := 4300

/-- the values of digits, with single underscores between them -/
def digitValues : List Char → Option (List Nat)
  | [] => none
  | [c] => (digitValue? c.toNat).map ([·])
  | c :: '_' :: cs => do
    let d ← digitValue? c.toNat
    return d :: (← digitValues cs)
  | c :: cs => do
    let d ← digitValue? c.toNat
    return d :: (← digitValues cs)

def ofDigits (base : Nat) (ds : List Nat) : Nat := ds.foldl (fun n d => n * base + d) 0

/-- digits and underscores as a number -/
def readNat? (s : List Char) : Option Nat := do
  let ds ← digitValues s
  if ds.length ≤ longestNumber then some (ofDigits 10 ds) else none

/-- a text as a whole number -/
def readInteger? (s : List Char) : Option Int :=
  match strip s with
  | '-' :: ds => (readNat? ds).map fun n => -(n : Int)
  | '+' :: ds => (readNat? ds).map Int.ofNat
  | ds => (readNat? ds).map Int.ofNat

end MakeAtlas.Text
