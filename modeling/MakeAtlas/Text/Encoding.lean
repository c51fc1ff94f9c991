/-
Texts and bytes: UTF-8, the code points of texts that hold more than characters, and base 64.
-/
/-! ## UTF-8

Bytes are read into characters and broken pieces; a broken piece is a byte that starts no character, or the longest
start of a character that the next byte does not continue. A lenient reader shows each broken piece as U+FFFD, a strict
one refuses the whole. -/

namespace MakeAtlas.Text.Utf8

abbrev ByteRange := UInt8 × UInt8

def cont : ByteRange := (0x80, 0xBF)

/-- what a lead byte announces: its payload bits, and the ranges of the bytes that must follow -/
def lead (b : UInt8) : Option (Nat × List ByteRange) :=
  if b < 0x80 then some (b.toNat, [])
  else if b < 0xC2 then none
  else if b < 0xE0 then some (b.toNat - 0xC0, [cont])
  else if b == 0xE0 then some (0, [(0xA0, 0xBF), cont])
  else if b == 0xED then some (0xD, [(0x80, 0x9F), cont])
  else if b < 0xF0 then some (b.toNat - 0xE0, [cont, cont])
  else if b == 0xF0 then some (0, [(0x90, 0xBF), cont, cont])
  else if b < 0xF4 then some (b.toNat - 0xF0, [cont, cont, cont])
  else if b == 0xF4 then some (4, [(0x80, 0x8F), cont, cont])
  else none

/-- the bytes still wanted begin with the range of this one: the payload grows by six bits -/
def follow (acc : Nat) (want : List ByteRange) (b : UInt8) : Option (Nat × List ByteRange) :=
  match want with
  | [] => none
  | (lo, hi) :: more => if lo ≤ b && b ≤ hi then some (acc * 64 + (b.toNat - 0x80), more) else none

/-- what an unfinished character leaves behind -/
def stray (want : List ByteRange) : List (Option Char) := if want.isEmpty then [] else [none]

/-- read on with `acc` collected and `want` still to come; `none` stands for a broken piece -/
def piecesFrom (acc : Nat) (want : List ByteRange) : List UInt8 → List (Option Char)
  | [] => stray want
  | b :: bs =>
    let (before, next) :=
      match follow acc want b with
      | some state => ([], some state)
      | none => (stray want, lead b)
    before ++
      match next with
      | none => none :: piecesFrom 0 [] bs
      | some (n, []) => some (Char.ofNat n) :: piecesFrom 0 [] bs
      | some (n, more) => piecesFrom n more bs

def pieces (bytes : List UInt8) : List (Option Char) := piecesFrom 0 [] bytes

/-- the text with every broken piece shown as the replacement character -/
def decodeLenient (bytes : List UInt8) : List Char := (pieces bytes).map (·.getD '\uFFFD')

/-- the text, if nothing is broken -/
def decode? (bytes : List UInt8) : Option (List Char) := (pieces bytes).mapM id

/-- the bytes of a text -/
def encode (s : List Char) : List UInt8 := s.flatMap String.utf8EncodeChar

/-- the number of bytes that a text takes -/
def size (s : List Char) : Nat := (encode s).length

end MakeAtlas.Text.Utf8

/-! ## Code points

A text that comes from outside can hold more than characters: halves of surrogate pairs, which an escape may name, and
which stand for the bytes of a variable that are no UTF-8. Such a text is a row of code points. -/

namespace MakeAtlas

/-- a character, or half of a surrogate pair -/
structure CodePoint where
  number : Nat
  isLt : number < 0x110000
  deriving DecidableEq, Repr

namespace CodePoint

def ofChar (c : Char) : CodePoint where
  number := c.toNat
  isLt := by
    have hvalid : c.toNat < 0xD800 ∨ 0xDFFF < c.toNat ∧ c.toNat < 0x110000 := c.valid
    omega

/-- the character, unless it is half of a pair -/
def char? (p : CodePoint) : Option Char :=
  if p.number < 0xD800 || 0xDFFF < p.number then some (Char.ofNat p.number) else none

/-- the half that stands for a byte of no character -/
def ofByte (b : UInt8) : CodePoint where
  number := 0xDC00 + b.toNat
  isLt := by
    have hbyte := b.toNat_lt
    omega

/-- the byte that a half stands for; most stand for none -/
def byte? (p : CodePoint) : Option UInt8 :=
  if 0xDC80 ≤ p.number && p.number ≤ 0xDCFF then some (UInt8.ofNat (p.number - 0xDC00)) else none

/-- the bytes of a character, or the byte that a half stands for -/
def bytes? (p : CodePoint) : Option (List UInt8) :=
  match p.char? with
  | some c => some (Text.Utf8.encode [c])
  | none => p.byte?.map fun b => [b]

/-- the character, or the escape of a half as it is printed -/
def shown (p : CodePoint) : List Char :=
  match p.char? with
  | some c => [c]
  | none => '\\' :: 'u' :: Nat.toDigits 16 p.number

end CodePoint

/-- a text by its code points -/
abbrev Points := List CodePoint

namespace Points

def ofChars (cs : List Char) : Points := cs.map CodePoint.ofChar

def ofString (s : String) : Points := ofChars s.toList

def chars? (s : Points) : Option (List Char) := s.mapM CodePoint.char?

def text? (s : Points) : Option String := (chars? s).map String.ofList

/-- the characters, with U+FFFD for every half of a pair -/
def lenient (s : Points) : List Char := s.map fun p => p.char?.getD '\uFFFD'

/-- the text as it is printed -/
def shown (s : Points) : String := String.ofList (s.flatMap CodePoint.shown)

/-- the bytes of the text, unless a half of a pair stands for none -/
def encode? (s : Points) : Option (List UInt8) := (s.mapM CodePoint.bytes?).map List.flatten

/-- the character that the bytes begin with, and the bytes after it -/
def next? (bytes : List UInt8) : Option (Char × List UInt8) :=
  [1, 2, 3, 4].findSome? fun n =>
    match Text.Utf8.decode? (bytes.take n) with
    | some [c] => some (c, bytes.drop n)
    | _ => none

/-- the text of the bytes; one unit of fuel for each of them -/
def decodeFrom : Nat → List UInt8 → Points
  | 0, _ => []
  | _, [] => []
  | fuel + 1, b :: bs =>
    match next? (b :: bs) with
    | some (c, rest) => .ofChar c :: decodeFrom fuel rest
    | none => .ofByte b :: decodeFrom fuel bs

/-- the text of the bytes; a byte of no character is kept as half of a pair -/
def decode (bytes : List UInt8) : Points := decodeFrom bytes.length bytes

end Points

end MakeAtlas

/-! ## Base 64

Bytes written in base 64. Characters outside of the alphabet are skipped; padding ends the text once it is due. -/

namespace MakeAtlas.Text.Base64

def digit? (c : Char) : Option Nat :=
  if 'A' ≤ c && c ≤ 'Z' then some (c.toNat - 0x41)
  else if 'a' ≤ c && c ≤ 'z' then some (c.toNat - 0x61 + 26)
  else if '0' ≤ c && c ≤ '9' then some (c.toNat - 0x30 + 52)
  else if c == '+' then some 62
  else if c == '/' then some 63
  else none

/-- read on in a group of four: `place` digits of it are read, `left` holds the bits that no byte has taken, `pads`
counts the padding right before -/
def decodeFrom (place left pads : Nat) : List Char → Option (List UInt8)
  | [] => if place == 0 then some [] else none
  | c :: cs =>
    if c == '=' then
      if place ≥ 2 then (if place + pads + 1 ≥ 4 then some [] else decodeFrom place left (pads + 1) cs)
      else decodeFrom place left pads cs
    else match digit? c with
      | none => decodeFrom place left pads cs
      | some d =>
        match place with
        | 0 => decodeFrom 1 d 0 cs
        | 1 => (decodeFrom 2 (d % 16) 0 cs).map (UInt8.ofNat (left * 4 + d / 16) :: ·)
        | 2 => (decodeFrom 3 (d % 4) 0 cs).map (UInt8.ofNat (left * 16 + d / 4) :: ·)
        | _ => (decodeFrom 0 0 0 cs).map (UInt8.ofNat (left * 64 + d) :: ·)

/-- the bytes of a text, unless its last group is incomplete -/
def decode? (s : List Char) : Option (List UInt8) := decodeFrom 0 0 0 s

end MakeAtlas.Text.Base64
