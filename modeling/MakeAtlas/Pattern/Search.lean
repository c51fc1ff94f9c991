/-
Finding a pattern in a text, of characters or of code points. The text is held as what is behind and what is ahead. A
walk through the pattern tries its choices in order and hands each place that it reaches to what follows; the first that
is accepted counts.

A repetition that may stop goes on only from a place other than the one where its last round began, so a body that
matches nothing ends it.
-/
import MakeAtlas.Pattern.Node
import MakeAtlas.Text.Encoding

namespace MakeAtlas.Pattern

/-- what texts are made of, each with its number -/
class Letter (α : Type) where
  code : α → Nat

export Letter (code)

instance : Letter Char := ⟨Char.toNat⟩

@[simp] theorem code_char (c : Char) : code c = c.toNat := rfl

instance : Letter CodePoint := ⟨CodePoint.number⟩

variable {α : Type}

/-- a place in a text, and where the groups began and ended on the way to it -/
structure Spot (α : Type) where
  pos : Nat := 0
  past : List α := []
  ahead : List α
  begun : List (Nat × Nat) := []
  ended : List (Nat × Nat) := []

namespace Spot

/-- one character on, if it passes the test -/
def step [Letter α] (s : Spot α) (p : Nat → Bool) : Option (Spot α) :=
  match s.ahead with
  | [] => none
  | c :: cs => if p (code c) then some { s with pos := s.pos + 1, past := c :: s.past, ahead := cs } else none

/-- that many characters back -/
def back (s : Spot α) : Nat → Spot α
  | 0 => s
  | n + 1 =>
    match s.past with
    | [] => s
    | c :: cs => back { s with pos := s.pos - 1, past := cs, ahead := c :: s.ahead } n

/-- a number entered under a group -/
def enter (index pos : Nat) (marks : List (Nat × Nat)) : List (Nat × Nat) :=
  (index, pos) :: marks.filter (·.1 != index)

/-- the group begins here -/
def start (s : Spot α) (index : Nat) : Spot α := { s with begun := enter index s.pos s.begun }

/-- the group ends here -/
def finish (s : Spot α) (index : Nat) : Spot α := { s with ended := enter index s.pos s.ended }

/-- where a group began and ended, if it has taken part -/
def span? (s : Spot α) (index : Nat) : Option (Nat × Nat) :=
  match s.begun.lookup index, s.ended.lookup index with
  | some b, some e => if b ≤ e then some (b, e) else none
  | _, _ => none

/-- the text of a group -/
def captured (s : Spot α) (span : Nat × Nat) : List α :=
  ((s.past.reverse ++ s.ahead).drop span.1).take (span.2 - span.1)

/-- the groups of another place -/
def withGroupsOf (s t : Spot α) : Spot α := { s with begun := t.begun, ended := t.ended }

/-- a word character stands right behind -/
def wordBehind [Letter α] (s : Spot α) (ascii : Bool) : Bool :=
  s.past.head?.any fun c => CharClass.word.holds ascii (code c)

/-- a word character stands right ahead -/
def wordAhead [Letter α] (s : Spot α) (ascii : Bool) : Bool :=
  s.ahead.head?.any fun c => CharClass.word.holds ascii (code c)

end Spot

variable [Letter α]

def atLineFeed (text : List α) : Bool := text.head?.any (code · == 0x0A)

/-- the place passes the test; in an empty text no place is a boundary, nor the opposite of one -/
def Anchor.holds (m : Mode) (s : Spot α) : Anchor → Bool
  | textStart => s.past.isEmpty
  | textEnd => s.ahead.isEmpty
  | lineStart => s.past.isEmpty || (m.multiline && atLineFeed s.past)
  | lineEnd => s.ahead.isEmpty || (atLineFeed s.ahead && (m.multiline || s.ahead.tail.isEmpty))
  | boundary => s.wordBehind m.ascii != s.wordAhead m.ascii
  | noBoundary => !(s.past.isEmpty && s.ahead.isEmpty) && s.wordBehind m.ascii == s.wordAhead m.ascii

/-- what to do from a place on -/
abbrev Rest (α : Type) := Spot α → Option (Spot α)

/-- the text goes on with `word`, compared by lower-case forms when case is ignored -/
def follow (m : Mode) : List α → Spot α → Option (Spot α)
  | [], s => some s
  | c :: cs, s =>
    match s.step fun n => if m.ignoreCase then m.lower n == m.lower (code c) else n == code c with
    | some s => follow m cs s
    | none => none

def times (body : Spot α → Rest α → Option (Spot α)) : Nat → Spot α → Rest α → Option (Spot α)
  | 0, s, k => k s
  | n + 1, s, k => body s fun s => times body n s k

/-- the body up to `n` times, more before fewer -/
def mostly (body : Spot α → Rest α → Option (Spot α)) : Nat → Spot α → Rest α → Option (Spot α)
  | 0, s, k => k s
  | n + 1, s, k => (body s fun t => if t.pos == s.pos then k t else mostly body n t k) <|> k s

/-- the body up to `n` times, fewer before more -/
def barely (body : Spot α → Rest α → Option (Spot α)) : Nat → Spot α → Rest α → Option (Spot α)
  | 0, s, k => k s
  | n + 1, s, k => k s <|> body s fun t => if t.pos == s.pos then k t else barely body n t k

/-- the body as often as it goes, at most `n` times, each time the first way that it goes -/
def utmost (body : Spot α → Rest α → Option (Spot α)) : Nat → Spot α → Spot α
  | 0, s => s
  | n + 1, s =>
    match body s some with
    | none => s
    | some t => if t.pos == s.pos then t else utmost body n t

/-- the first way that the body goes, and no other -/
def commit (body : Spot α → Rest α → Option (Spot α)) (s : Spot α) (k : Rest α) : Option (Spot α) :=
  match body s some with
  | some t => k t
  | none => none

/-- how many more rounds can differ from the place `s` on -/
def rounds (least : Nat) (most : Option Nat) (s : Spot α) : Nat :=
  match most with
  | none => s.ahead.length + 1
  | some m => min (m - least) (s.ahead.length + 1)

/-- walk through the pattern from `s`, and on with `k` -/
def walk : Node → Spot α → Rest α → Option (Spot α)
  | .empty, s, k => k s
  | .one m test, s, k => (s.step (test.holds m)).bind k
  | .at m a, s, k => if a.holds m s then k s else none
  | .seq a b, s, k => walk a s fun t => walk b t k
  | .alt a b, s, k => walk a s k <|> walk b s k
  | .repeat .greedy least most body, s, k =>
    times (walk body) least s fun t => mostly (walk body) (rounds least most t) t k
  | .repeat .lazy least most body, s, k =>
    times (walk body) least s fun t => barely (walk body) (rounds least most t) t k
  | .repeat .possessive least most body, s, k =>
    times (commit (walk body)) least s fun t => k (utmost (walk body) (rounds least most t) t)
  | .group i body, s, k => walk body (s.start i) fun t => k (t.finish i)
  | .atomic body, s, k => commit (walk body) s k
  | .ahead true body, s, k => (walk body s some).bind fun t => k (s.withGroupsOf t)
  | .ahead false body, s, k => if (walk body s some).isSome then none else k s
  | .behind true w body, s, k =>
    if s.pos < w then none else (walk body (s.back w) some).bind fun t => k (s.withGroupsOf t)
  | .behind false w body, s, k => if w ≤ s.pos && (walk body (s.back w) some).isSome then none else k s
  | .backref m i, s, k =>
    match s.span? i with
    | some span => (follow m (s.captured span) s).bind k
    | none => none
  | .ifGroup i yes no, s, k => if (s.span? i).isSome then walk yes s k else walk no s k

/-- the pattern matches at this place or a later one -/
def foundFrom (n : Node) : Nat → List α → List α → Bool
  | pos, past, [] => (walk n { pos, past, ahead := [] } some).isSome
  | pos, past, c :: cs =>
    (walk n { pos, past, ahead := c :: cs } some).isSome || foundFrom n (pos + 1) (c :: past) cs

/-- the pattern matches somewhere in the text -/
def found (n : Node) (text : List α) : Bool := foundFrom n 0 [] text

end MakeAtlas.Pattern
