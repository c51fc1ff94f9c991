/-
What a plain scalar is by its looks: a truth value, a number, a time, nothing, a sign with a meaning of its own, or a
text.
-/
import MakeAtlas.Document.Basic

namespace MakeAtlas.Yaml

/-- the kinds of values -/
inductive Tag where
  | null
  | bool
  | int
  | float
  | timestamp
  | merge
  | value
  | str
  | binary
  | seq
  | map
  | set
  | omap
  | pairs
  | unknown
  /-- a time whose text stands in a mapping -/
  | mappedTime
  deriving DecidableEq, Repr

namespace Tag

/-- how the names of the common kinds begin -/
def stem : List Char := "tag:yaml.org,2002:".toList

/-- the kinds that have a name, merging and the sign of a value included -/
def named : List (String × Tag) :=
  [("null", null), ("bool", bool), ("int", int), ("float", float), ("timestamp", timestamp), ("merge", merge),
   ("value", value), ("str", str), ("binary", binary), ("seq", seq), ("map", map), ("set", set), ("omap", omap),
   ("pairs", pairs)]

/-- the kind of this name -/
def ofName (name : List Char) : Tag :=
  if stem.isPrefixOf name then (named.lookup (String.ofList (name.drop stem.length))).getD unknown else unknown

end Tag

namespace Implicit

def isDigit (c : Char) : Bool := '0' ≤ c && c ≤ '9'

/-- a decimal digit or an underscore -/
def isDigitOrScore (c : Char) : Bool := isDigit c || c == '_'

/-- not empty, and all of them satisfy `p` -/
def some1 (p : Char → Bool) (s : List Char) : Bool := !s.isEmpty && s.all p

/-- a digit, then digits and underscores -/
def isNumeral : List Char → Bool
  | [] => false
  | c :: cs => isDigit c && cs.all isDigitOrScore

/-- a numeral that does not start with a zero -/
def isPositive (s : List Char) : Bool := isNumeral s && s.head? != some '0'

/-- the part in front of the sign and the parts behind it, cut at every one -/
def splitAll (sign : Char) (s : List Char) : List (List Char) :=
  s.foldr (fun c parts => match parts with
    | p :: ps => if c == sign then [] :: p :: ps else (c :: p) :: ps
    | [] => [[c]]) [[]]

/-- one or two digits, at most 59 -/
def isSixtieth : List Char → Bool
  | [a] => isDigit a
  | [a, b] => '0' ≤ a && a ≤ '5' && isDigit b
  | _ => false

/-- a part that satisfies `first`, and parts that count sixtieths -/
def isSexagesimal (first : List Char → Bool) (s : List Char) : Bool :=
  match splitAll ':' s with
  | p :: q :: qs => first p && (q :: qs).all isSixtieth
  | _ => false

/-- the text without a sign in front -/
def unsigned : List Char → List Char
  | '+' :: s => s
  | '-' :: s => s
  | s => s

/-- a whole number in one of its notations -/
def isInt (s : List Char) : Bool :=
  let s := unsigned s
  match s with
  | '0' :: 'b' :: ds => some1 (fun c => c == '0' || c == '1' || c == '_') ds
  | '0' :: 'x' :: ds => some1 (fun c => isDigit c || ('a' ≤ c && c ≤ 'f') || ('A' ≤ c && c ≤ 'F') || c == '_') ds
  | ['0'] => true
  | '0' :: ds => some1 (fun c => ('0' ≤ c && c ≤ '7') || c == '_') ds
  | _ => isPositive s || isSexagesimal isPositive s

/-- what may follow the places of a number: nothing, or an exponent with its sign -/
def isExponent : List Char → Bool
  | [] => true
  | e :: sign :: ds => (e == 'e' || e == 'E') && (sign == '+' || sign == '-') && some1 isDigit ds
  | _ => false

/-- a number with a point -/
def isFloat (s : List Char) : Bool :=
  let u := unsigned s
  let before := u.takeWhile (· != '.')
  match u.dropWhile (· != '.') with
  | [] => false
  | _ :: after =>
    if before.isEmpty then
      ["inf", "Inf", "INF"].contains (String.ofList after) ||
        (s.head? == some '.' &&
          (["nan", "NaN", "NAN"].contains (String.ofList after) ||
            (after.head?.any isDigit && isExponent (after.dropWhile isDigitOrScore))))
    else
      (isNumeral before && isExponent (after.dropWhile isDigitOrScore)) ||
        (isSexagesimal isNumeral before && after.all isDigitOrScore)

def numberOf (ds : List Char) : Nat := ds.foldl (fun n d => n * 10 + (d.toNat - 0x30)) 0

/-- between `least` and `most` digits, as many as there are, and the text after them -/
def digits? (least most : Nat) (s : List Char) : Option (Nat × List Char) :=
  let ds := (s.take most).takeWhile isDigit
  if ds.length < least then none else some (numberOf ds, s.drop ds.length)

/-- this character, and the text after it -/
def char? (c : Char) : List Char → Option (List Char)
  | x :: xs => if x == c then some xs else none
  | [] => none

/-- a space or a tab -/
def isWhite (c : Char) : Bool := c == ' ' || c == '\t'

/-- the zone of a time, up to its end: minutes from the zero meridian, if one is given -/
def zone? (s : List Char) : Option (Option Int) :=
  match s with
  | [] => some none
  | _ =>
    match s.dropWhile isWhite with
    | ['Z'] => some (some 0)
    | sign :: rest =>
      if sign == '+' || sign == '-' then do
        let signed (n : Nat) : Int := if sign == '-' then -n else n
        let (hours, rest) ← digits? 1 2 rest
        match rest with
        | [] => return some (signed (hours * 60))
        | _ =>
          let (minutes, rest) ← digits? 2 2 (← char? ':' rest)
          if rest.isEmpty then return some (signed (hours * 60 + minutes)) else none
      else none
    | [] => none

/-- places behind the point as millionths -/
def millionths (ds : List Char) : Nat := numberOf (ds.take 6 ++ List.replicate (6 - ds.length) '0')

def time? (s : List Char) : Option Moment := do
  let (year, s) ← digits? 4 4 s
  let (month, s) ← digits? 1 2 (← char? '-' s)
  let (day, s) ← digits? 1 2 (← char? '-' s)
  match s with
  | [] => return { year, month, day }
  | c :: rest =>
    let s ← if c == 'T' || c == 't' then some rest else if isWhite c then some (s.dropWhile isWhite) else none
    let (hour, s) ← digits? 1 2 s
    let (minute, s) ← digits? 2 2 (← char? ':' s)
    let (second, s) ← digits? 2 2 (← char? ':' s)
    let (places, s) := match s with
      | '.' :: rest => (rest.takeWhile isDigit, rest.dropWhile isDigit)
      | s => ([], s)
    return { year, month, day, clock := some { hour, minute, second, micro := millionths places, offset := ← zone? s } }

/-- a time, or a date with two digits for month and day -/
def isTimestamp (s : List Char) : Bool :=
  match time? s with
  | some t => t.clock.isSome || s.length == 10
  | none => false

/-- names of truth values, in the spellings that count -/
def truthNames : List String :=
  ["yes", "Yes", "YES", "no", "No", "NO", "true", "True", "TRUE", "false", "False", "FALSE", "on", "On", "ON",
    "off", "Off", "OFF"]

/-- spellings of nothing -/
def nullNames : List String := ["", "~", "null", "Null", "NULL"]

/-- the text without a line end at its very end, unless nothing would be left -/
def withoutLineEnd (s : List Char) : List Char :=
  if s.getLast? == some '\n' && s.length > 1 then s.dropLast else s

/-- signs of the notation that stand for no value -/
def signNames : List String := ["!", "&", "*"]

/-- the kind of a plain scalar; a line end at its end does not count -/
def tagOf (s : List Char) : Tag :=
  let s := withoutLineEnd s
  let text := String.ofList s
  if truthNames.contains text then .bool
  else if isFloat s then .float
  else if isInt s then .int
  else if text == "<<" then .merge
  else if nullNames.contains text then .null
  else if isTimestamp s then .timestamp
  else if text == "=" then .value
  else if signNames.contains text then .unknown
  else .str

end Implicit

end MakeAtlas.Yaml
