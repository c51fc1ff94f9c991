/-
Numbers in YAML: whole numbers in four bases or in sixtieths, and numbers with a point.
-/
import MakeAtlas.Document.Basic
import MakeAtlas.Text.Layout
import MakeAtlas.Yaml.Cursor
import MakeAtlas.Yaml.Implicit

namespace MakeAtlas.Yaml

namespace Number

open Text

/-- the sign in front, and the text after it -/
def signOf : List Char → Bool × List Char
  | '-' :: s => (true, s)
  | '+' :: s => (false, s)
  | s => (false, s)

/-- a number under its sign -/
def signed (negative : Bool) (n : Int) : Int := if negative then -n else n

def baseDigit? (base : Nat) (c : Char) : Option Nat := do
  let d ← match digitValue? c.toNat with
    | some d => some d
    | none =>
      if 'a' ≤ c && c ≤ 'f' then some (c.toNat - 0x57)
      else if 'A' ≤ c && c ≤ 'F' then some (c.toNat - 0x37)
      else none
  if d < base then some d else none

/-- a number in a base that is a power of two; the sign of the base may stand in front -/
def inBase? (base : Nat) (mark : Char) (s : List Char) : Option Int := do
  let (negative, s) := signOf (strip s)
  let s := match s with
    | '0' :: m :: rest => if m == mark || m == mark.toUpper then rest else s
    | s => s
  let ds ← s.mapM (baseDigit? base)
  if ds.isEmpty then none else some (signed negative (ofDigits base ds))

/-- numbers of sixtieths, the largest first -/
def sixtieths (parts : List Int) : Int := parts.foldl (fun n d => n * 60 + d) 0

/-- a number that must be one -/
def orBad {α : Type} : Option α → Except Fault α
  | some a => .ok a
  | none => .error .badNumber

/-- a whole number; underscores do not count -/
def intOf (text : List Char) : Except Fault Int := do
  match text.filter (· != '_') with
  | [] => throw .emptyNumber
  | s =>
    let (negative, s) := signOf s
    let n ← match s with
      | [] => throw .emptyNumber
      | ['0'] => pure 0
      | '0' :: 'b' :: ds => orBad (inBase? 2 'b' ds)
      | '0' :: 'x' :: ds => orBad (inBase? 16 'x' ds)
      | '0' :: _ => orBad (inBase? 8 'o' s)
      | _ =>
        if s.contains ':' then do
          pure (sixtieths (← orBad ((Implicit.splitAll ':' s).mapM readInteger?)))
        else orBad (readInteger? s)
    return signed negative n

/-- the digits ahead, and the text after them -/
def spanDigits : List Char → List Nat × List Char
  | [] => ([], [])
  | c :: cs =>
    match digitValue? c.toNat with
    | some d =>
      let (ds, rest) := spanDigits cs
      (d :: ds, rest)
    | none => ([], c :: cs)

/-- exponents beyond this one make no difference any more -/
def exponentLimit : Nat := 1000000

/-- an exponent up to the end of the text; nothing counts as zero -/
def exponent? : List Char → Option Int
  | [] => some 0
  | e :: s =>
    if e != 'e' then none
    else
      let (negative, s) := signOf s
      match spanDigits s with
      | (d :: ds, []) => some (signed negative (min (ofDigits 10 (d :: ds)) exponentLimit))
      | _ => none

/-- a number with or without a point, in lower case -/
def decimal? (text : List Char) : Option Decimal := do
  let (negative, s) := signOf (strip text)
  if ["inf", "infinity"].contains (String.ofList s) then return .infinite negative
  if s == "nan".toList then return .notANumber
  let (whole, rest) := spanDigits s
  let (places, rest) := match rest with
    | '.' :: rest => spanDigits rest
    | rest => ([], rest)
  if whole.isEmpty && places.isEmpty then none
  return .finite negative (ofDigits 10 (whole ++ places)) ((← exponent? rest) - places.length)

/-- sixty times one number and another -/
def addSixtieths : Decimal → Decimal → Decimal
  | .finite s m e, .finite t n f =>
    let low := min e f
    let sum := signed s (m * Nat.pow 10 (e - low).toNat * 60) + signed t (n * Nat.pow 10 (f - low).toNat)
    .finite (sum < 0) sum.natAbs low
  | _, _ => .notANumber

/-- a number under one more sign -/
def negated (negative : Bool) : Decimal → Decimal
  | .finite s m e => .finite (s != negative) m e
  | .infinite s => .infinite (s != negative)
  | .notANumber => .notANumber

/-- a number with a point; underscores and case do not count -/
def decimalOf (text : List Char) : Except Fault Decimal := do
  match text.filter (· != '_') with
  | [] => throw .emptyNumber
  | s =>
    let (negative, s) := signOf (s.map (·.toLower))
    let d ←
      if s == ".inf".toList then pure (.infinite false)
      else if s == ".nan".toList then pure .notANumber
      else if s.contains ':' then do
        let parts ← orBad ((Implicit.splitAll ':' s).mapM decimal?)
        pure (parts.foldl addSixtieths (.finite false 0 0))
      else orBad (decimal? s)
    return negated negative d

end Number

end MakeAtlas.Yaml
