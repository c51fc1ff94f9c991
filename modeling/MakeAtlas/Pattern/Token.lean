/-
A pattern as tokens: a backslash and the character after it are one token. A backslash at the very end has nothing to
escape and stands alone. What a pattern leaves to its surroundings is how deep its groups may be nested, and which names
characters have; the escape that asks for a name carries the answer.
-/

namespace MakeAtlas.Pattern

/-- what a pattern is read from -/
inductive Token where
  | char (c : Char)
  | escape (c : Char)
  /-- the escape in front of the name of a character, and the character, if there is one of this name -/
  | named (code : Option Nat)
  | dangling
  deriving DecidableEq, Repr

namespace Token

def ofText : List Char → List Token
  | [] => []
  | ['\\'] => [dangling]
  | '\\' :: c :: cs => escape c :: ofText cs
  | c :: cs => char c :: ofText cs

def text : Token → List Char
  | char c => [c]
  | escape c => ['\\', c]
  | named _ => ['\\', 'N']
  | dangling => ['\\']

/-- the text before the first token that is this character, and the tokens after it -/
def cutAt (stop : Char) : List Token → Option (List Char × List Token)
  | [] => none
  | dangling :: _ => none
  | t :: ts => if t == char stop then some ([], ts) else (cutAt stop ts).map fun (cs, rest) => (t.text ++ cs, rest)

def nameAhead (charNamed? : List Char → Option Nat) : List Token → Option Nat
  | char '\x7b' :: ts => (cutAt '\x7d' ts).bind fun (name, _) => charNamed? name
  | _ => none

def resolved (charNamed? : List Char → Option Nat) : List Token → List Token
  | [] => []
  | t :: ts => (if t == escape 'N' then named (nameAhead charNamed? ts) else t) :: resolved charNamed? ts

theorem resolved_of_not_mem {charNamed? : List Char → Option Nat} {ts : List Token} (h : escape 'N' ∉ ts) :
    resolved charNamed? ts = ts := by
  induction ts with
  | nil => rfl
  | cons t ts ih =>
    rw [List.mem_cons, not_or] at h
    rw [resolved, ih h.2, if_neg (by simpa using Ne.symm h.1)]

end Token

/-- what reading a pattern leaves to its surroundings -/
class Dialect where
  /-- the character with a name -/
  charNamed? : List Char → Option Nat
  /-- how deep groups may be nested -/
  nesting : Nat
  /-- which is deeper than they are in a rule of the catalog -/
  nesting_ge : 8 ≤ nesting

/-- why a text is no pattern -/
inductive Fault where
  /-- it breaks the rules of writing patterns -/
  | malformed
  /-- a repetition bound or an escaped number is out of range -/
  | numberTooLarge
  /-- a repetition bound has too many digits -/
  | numberTooLong
  /-- it asks for ASCII and for Unicode classes at once -/
  | clashingFlags
  /-- its groups are nested too deeply -/
  | tooDeep
  deriving DecidableEq, Repr

end MakeAtlas.Pattern
