/-
Documents: the values that a settings file holds.
-/
import MakeAtlas.Text.Encoding

/-! ## Numbers with a decimal point

They are kept as they were written, by a sign, digits and the place of the point; two of them are the
same number when the nearest binary numbers are equal. -/

namespace MakeAtlas

/-- the number `digits * 10 ^ exponent` with its sign, or one of the values that are no number -/
inductive Decimal where
  | finite (negative : Bool) (digits : Nat) (exponent : Int)
  | infinite (negative : Bool)
  | notANumber
  deriving DecidableEq, Repr

/-- the number `mantissa * 2 ^ exponent`, or one of the values that are no number -/
inductive Binary where
  | finite (mantissa exponent : Int)
  | infinite (negative : Bool)
  | notANumber
  deriving DecidableEq, Repr

namespace Binary

/-- one value, whatever its exponent -/
def same : Binary → Binary → Bool
  | finite m e, finite n f => m <<< (e - min e f).toNat == n <<< (f - min e f).toNat
  | infinite s, infinite t => s == t
  | notANumber, notANumber => true
  | _, _ => false

/-- the whole number with this value, unless it takes more than 64 bits -/
def toInt64? : Binary → Option Int
  | finite m e =>
    let whole := if e < 0 then m >>> (-e).toNat else m <<< e.toNat
    if same (finite m e) (finite whole 0) && whole.natAbs < 1 <<< 63 then some whole else none
  | _ => none

end Binary

namespace Decimal

/-- the number of places that a binary number can tell apart, and more -/
def widestExponent : Nat := 800

/-- a quotient as a whole number, the even one of two that are as near -/
def nearest (p q : Nat) : Nat := if q < 2 * (p % q) || (q == 2 * (p % q) && p / q % 2 == 1) then p / q + 1 else p / q

/-- the least exponent of a binary number, and the greatest -/
def leastExponent : Int := -1074

def greatestExponent : Int := 971

/-- the binary number nearest to a quotient, with 53 places -/
def quotient (negative : Bool) (p q : Nat) : Binary :=
  let above (k : Int) := p <<< (-k).toNat
  let below (k : Int) := q <<< k.toNat
  let guess : Int := (p.log2 : Int) - q.log2 - 52
  let k := max (if above guess < below guess <<< 52 then guess - 1 else guess) leastExponent
  let m := nearest (above k) (below k)
  if greatestExponent < k || (k == greatestExponent && 1 <<< 53 ≤ m) then .infinite negative
  else .finite (if negative then -m else m) k

/-- the nearest binary number -/
def binary : Decimal → Binary
  | finite negative digits exponent =>
    let size := exponent + (Nat.toDigits 10 digits).length
    if digits == 0 || size < -widestExponent then .finite 0 0
    else if size > widestExponent then .infinite negative
    else quotient negative (digits * Nat.pow 10 exponent.toNat) (Nat.pow 10 (-exponent).toNat)
  | infinite negative => .infinite negative
  | notANumber => .notANumber

end Decimal

end MakeAtlas

/-! ## Documents

The values that a settings file holds. The keys of a mapping are values too, in the order in which they were written. -/

namespace MakeAtlas

/-- a time of day; the offset counts the minutes from the zero meridian -/
structure Clock where
  hour : Nat
  minute : Nat
  second : Nat
  micro : Nat := 0
  offset : Option Int := none
  deriving DecidableEq, Repr

/-- a day, perhaps with a time of day -/
structure Moment where
  year : Nat
  month : Nat
  day : Nat
  clock : Option Clock := none
  deriving DecidableEq, Repr

namespace Moment

def isLeap (year : Nat) : Bool := year % 4 == 0 && (year % 100 != 0 || year % 400 == 0)

def daysIn (year month : Nat) : Nat :=
  if month == 2 then (if isLeap year then 29 else 28) else if [4, 6, 9, 11].contains month then 30 else 31

/-- the day, the clock and the offset exist -/
def exists? (m : Moment) : Bool :=
  1 ≤ m.year && 1 ≤ m.month && m.month ≤ 12 && 1 ≤ m.day && m.day ≤ daysIn m.year m.month &&
    m.clock.all fun c => c.hour < 24 && c.minute < 60 && c.second < 60 && c.offset.all fun o => o.natAbs < 24 * 60

/-- the number of a day, counted from the first day of the first year -/
def dayNumber (m : Moment) : Nat :=
  let past := m.year - 1
  past * 365 + past / 4 - past / 100 + past / 400 + m.day +
    (List.range (m.month - 1)).foldl (fun days i => days + daysIn m.year (i + 1)) 0

/-- the minute on the zero meridian, for a time with an offset -/
def instant? (m : Moment) : Option (Int × Nat × Nat) := do
  let c ← m.clock
  let offset ← c.offset
  return (((m.dayNumber * 24 + c.hour) * 60 + c.minute : Nat) - offset, c.second, c.micro)

/-- one moment, by whatever meridian; a day by itself is none of its times -/
def same (a b : Moment) : Bool :=
  match a.instant?, b.instant? with
  | some s, some t => s == t
  | _, _ => a == b

end Moment

/-- a value of a settings file -/
inductive Document where
  | null
  | bool (b : Bool)
  | int (n : Int)
  | decimal (d : Decimal)
  | text (s : Points)
  | bytes (bs : List UInt8)
  | date (m : Moment)
  | list (xs : List Document)
  /-- pairs of values in a row -/
  | pairs (xs : List (Document × Document))
  | set (xs : List Document)
  | mapping (es : List (Document × Document))
  /-- a place where a value is found inside itself -/
  | endless
  deriving Inhabited, Repr

namespace Document

def ofString (s : String) : Document := text (.ofString s)

/-- the value as a number, with truth counted as one -/
def number? : Document → Option Binary
  | bool b => some (.finite (if b then 1 else 0) 0)
  | int n => some (.finite n 0)
  | decimal d => some d.binary
  | _ => none

/-- two values are the same key; numbers and moments count by their value -/
def sameKey (a b : Document) : Bool :=
  match a, b with
  | null, null => true
  | text s, text t => s == t
  | bytes s, bytes t => s == t
  | date s, date t => s.same t
  | _, _ =>
    match a.number?, b.number? with
    | some m, some n => m.same n
    | _, _ => false

/-- a value written under a key: the last one counts, at the place of the first -/
def putEntry (key value : Document) : List (Document × Document) → List (Document × Document)
  | [] => [(key, value)]
  | e :: es => if e.1.sameKey key then (e.1, value) :: es else e :: putEntry key value es

/-- the value under a name -/
def field? (name : String) (es : List (Document × Document)) : Option Document :=
  (es.find? fun e => match e.1 with
    | text s => s == .ofString name
    | _ => false).map (·.2)

end Document

end MakeAtlas
