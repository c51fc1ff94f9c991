/-
The machine that the program usually runs on.
-/
import MakeAtlas.Load
import MakeAtlas.Text.Case
import MakeAtlas.Yaml.Value

/-! ## Names of characters

Characters by name: ASCII, Latin-1, the Greek alphabet and some marks in common use. Upper and lower case are the same
in a name. -/

namespace MakeAtlas.Text

/-- names and code points -/
def charNames : List (String × Nat) :=
  [("SPACE", 0x20), ("EXCLAMATION MARK", 0x21), ("QUOTATION MARK", 0x22), ("NUMBER SIGN", 0x23), ("DOLLAR SIGN", 0x24),
   ("PERCENT SIGN", 0x25), ("AMPERSAND", 0x26), ("APOSTROPHE", 0x27), ("LEFT PARENTHESIS", 0x28),
   ("RIGHT PARENTHESIS", 0x29), ("ASTERISK", 0x2A), ("PLUS SIGN", 0x2B), ("COMMA", 0x2C), ("HYPHEN-MINUS", 0x2D),
   ("FULL STOP", 0x2E), ("SOLIDUS", 0x2F), ("DIGIT ZERO", 0x30), ("DIGIT ONE", 0x31), ("DIGIT TWO", 0x32),
   ("DIGIT THREE", 0x33), ("DIGIT FOUR", 0x34), ("DIGIT FIVE", 0x35), ("DIGIT SIX", 0x36), ("DIGIT SEVEN", 0x37),
   ("DIGIT EIGHT", 0x38), ("DIGIT NINE", 0x39), ("COLON", 0x3A), ("SEMICOLON", 0x3B), ("LESS-THAN SIGN", 0x3C),
   ("EQUALS SIGN", 0x3D), ("GREATER-THAN SIGN", 0x3E), ("QUESTION MARK", 0x3F), ("COMMERCIAL AT", 0x40),
   ("LATIN CAPITAL LETTER A", 0x41), ("LATIN CAPITAL LETTER B", 0x42), ("LATIN CAPITAL LETTER C", 0x43),
   ("LATIN CAPITAL LETTER D", 0x44), ("LATIN CAPITAL LETTER E", 0x45), ("LATIN CAPITAL LETTER F", 0x46),
   ("LATIN CAPITAL LETTER G", 0x47), ("LATIN CAPITAL LETTER H", 0x48), ("LATIN CAPITAL LETTER I", 0x49),
   ("LATIN CAPITAL LETTER J", 0x4A), ("LATIN CAPITAL LETTER K", 0x4B), ("LATIN CAPITAL LETTER L", 0x4C),
   ("LATIN CAPITAL LETTER M", 0x4D), ("LATIN CAPITAL LETTER N", 0x4E), ("LATIN CAPITAL LETTER O", 0x4F),
   ("LATIN CAPITAL LETTER P", 0x50), ("LATIN CAPITAL LETTER Q", 0x51), ("LATIN CAPITAL LETTER R", 0x52),
   ("LATIN CAPITAL LETTER S", 0x53), ("LATIN CAPITAL LETTER T", 0x54), ("LATIN CAPITAL LETTER U", 0x55),
   ("LATIN CAPITAL LETTER V", 0x56), ("LATIN CAPITAL LETTER W", 0x57), ("LATIN CAPITAL LETTER X", 0x58),
   ("LATIN CAPITAL LETTER Y", 0x59), ("LATIN CAPITAL LETTER Z", 0x5A), ("LEFT SQUARE BRACKET", 0x5B),
   ("REVERSE SOLIDUS", 0x5C), ("RIGHT SQUARE BRACKET", 0x5D), ("CIRCUMFLEX ACCENT", 0x5E), ("LOW LINE", 0x5F),
   ("GRAVE ACCENT", 0x60), ("LATIN SMALL LETTER A", 0x61), ("LATIN SMALL LETTER B", 0x62),
   ("LATIN SMALL LETTER C", 0x63), ("LATIN SMALL LETTER D", 0x64), ("LATIN SMALL LETTER E", 0x65),
   ("LATIN SMALL LETTER F", 0x66), ("LATIN SMALL LETTER G", 0x67), ("LATIN SMALL LETTER H", 0x68),
   ("LATIN SMALL LETTER I", 0x69), ("LATIN SMALL LETTER J", 0x6A), ("LATIN SMALL LETTER K", 0x6B),
   ("LATIN SMALL LETTER L", 0x6C), ("LATIN SMALL LETTER M", 0x6D), ("LATIN SMALL LETTER N", 0x6E),
   ("LATIN SMALL LETTER O", 0x6F), ("LATIN SMALL LETTER P", 0x70), ("LATIN SMALL LETTER Q", 0x71),
   ("LATIN SMALL LETTER R", 0x72), ("LATIN SMALL LETTER S", 0x73), ("LATIN SMALL LETTER T", 0x74),
   ("LATIN SMALL LETTER U", 0x75), ("LATIN SMALL LETTER V", 0x76), ("LATIN SMALL LETTER W", 0x77),
   ("LATIN SMALL LETTER X", 0x78), ("LATIN SMALL LETTER Y", 0x79), ("LATIN SMALL LETTER Z", 0x7A),
   ("LEFT CURLY BRACKET", 0x7B), ("VERTICAL LINE", 0x7C), ("RIGHT CURLY BRACKET", 0x7D), ("TILDE", 0x7E),
   ("NO-BREAK SPACE", 0xA0), ("INVERTED EXCLAMATION MARK", 0xA1), ("CENT SIGN", 0xA2), ("POUND SIGN", 0xA3),
   ("CURRENCY SIGN", 0xA4), ("YEN SIGN", 0xA5), ("BROKEN BAR", 0xA6), ("SECTION SIGN", 0xA7), ("DIAERESIS", 0xA8),
   ("COPYRIGHT SIGN", 0xA9), ("FEMININE ORDINAL INDICATOR", 0xAA), ("LEFT-POINTING DOUBLE ANGLE QUOTATION MARK", 0xAB),
   ("NOT SIGN", 0xAC), ("SOFT HYPHEN", 0xAD), ("REGISTERED SIGN", 0xAE), ("MACRON", 0xAF), ("DEGREE SIGN", 0xB0),
   ("PLUS-MINUS SIGN", 0xB1), ("SUPERSCRIPT TWO", 0xB2), ("SUPERSCRIPT THREE", 0xB3), ("ACUTE ACCENT", 0xB4),
   ("MICRO SIGN", 0xB5), ("PILCROW SIGN", 0xB6), ("MIDDLE DOT", 0xB7), ("CEDILLA", 0xB8), ("SUPERSCRIPT ONE", 0xB9),
   ("MASCULINE ORDINAL INDICATOR", 0xBA), ("RIGHT-POINTING DOUBLE ANGLE QUOTATION MARK", 0xBB),
   ("VULGAR FRACTION ONE QUARTER", 0xBC), ("VULGAR FRACTION ONE HALF", 0xBD), ("VULGAR FRACTION THREE QUARTERS", 0xBE),
   ("INVERTED QUESTION MARK", 0xBF), ("LATIN CAPITAL LETTER A WITH GRAVE", 0xC0),
   ("LATIN CAPITAL LETTER A WITH ACUTE", 0xC1), ("LATIN CAPITAL LETTER A WITH CIRCUMFLEX", 0xC2),
   ("LATIN CAPITAL LETTER A WITH TILDE", 0xC3), ("LATIN CAPITAL LETTER A WITH DIAERESIS", 0xC4),
   ("LATIN CAPITAL LETTER A WITH RING ABOVE", 0xC5), ("LATIN CAPITAL LETTER AE", 0xC6),
   ("LATIN CAPITAL LETTER C WITH CEDILLA", 0xC7), ("LATIN CAPITAL LETTER E WITH GRAVE", 0xC8),
   ("LATIN CAPITAL LETTER E WITH ACUTE", 0xC9), ("LATIN CAPITAL LETTER E WITH CIRCUMFLEX", 0xCA),
   ("LATIN CAPITAL LETTER E WITH DIAERESIS", 0xCB), ("LATIN CAPITAL LETTER I WITH GRAVE", 0xCC),
   ("LATIN CAPITAL LETTER I WITH ACUTE", 0xCD), ("LATIN CAPITAL LETTER I WITH CIRCUMFLEX", 0xCE),
   ("LATIN CAPITAL LETTER I WITH DIAERESIS", 0xCF), ("LATIN CAPITAL LETTER ETH", 0xD0),
   ("LATIN CAPITAL LETTER N WITH TILDE", 0xD1), ("LATIN CAPITAL LETTER O WITH GRAVE", 0xD2),
   ("LATIN CAPITAL LETTER O WITH ACUTE", 0xD3), ("LATIN CAPITAL LETTER O WITH CIRCUMFLEX", 0xD4),
   ("LATIN CAPITAL LETTER O WITH TILDE", 0xD5), ("LATIN CAPITAL LETTER O WITH DIAERESIS", 0xD6),
   ("MULTIPLICATION SIGN", 0xD7), ("LATIN CAPITAL LETTER O WITH STROKE", 0xD8),
   ("LATIN CAPITAL LETTER U WITH GRAVE", 0xD9), ("LATIN CAPITAL LETTER U WITH ACUTE", 0xDA),
   ("LATIN CAPITAL LETTER U WITH CIRCUMFLEX", 0xDB), ("LATIN CAPITAL LETTER U WITH DIAERESIS", 0xDC),
   ("LATIN CAPITAL LETTER Y WITH ACUTE", 0xDD), ("LATIN CAPITAL LETTER THORN", 0xDE),
   ("LATIN SMALL LETTER SHARP S", 0xDF), ("LATIN SMALL LETTER A WITH GRAVE", 0xE0),
   ("LATIN SMALL LETTER A WITH ACUTE", 0xE1), ("LATIN SMALL LETTER A WITH CIRCUMFLEX", 0xE2),
   ("LATIN SMALL LETTER A WITH TILDE", 0xE3), ("LATIN SMALL LETTER A WITH DIAERESIS", 0xE4),
   ("LATIN SMALL LETTER A WITH RING ABOVE", 0xE5), ("LATIN SMALL LETTER AE", 0xE6),
   ("LATIN SMALL LETTER C WITH CEDILLA", 0xE7), ("LATIN SMALL LETTER E WITH GRAVE", 0xE8),
   ("LATIN SMALL LETTER E WITH ACUTE", 0xE9), ("LATIN SMALL LETTER E WITH CIRCUMFLEX", 0xEA),
   ("LATIN SMALL LETTER E WITH DIAERESIS", 0xEB), ("LATIN SMALL LETTER I WITH GRAVE", 0xEC),
   ("LATIN SMALL LETTER I WITH ACUTE", 0xED), ("LATIN SMALL LETTER I WITH CIRCUMFLEX", 0xEE),
   ("LATIN SMALL LETTER I WITH DIAERESIS", 0xEF), ("LATIN SMALL LETTER ETH", 0xF0),
   ("LATIN SMALL LETTER N WITH TILDE", 0xF1), ("LATIN SMALL LETTER O WITH GRAVE", 0xF2),
   ("LATIN SMALL LETTER O WITH ACUTE", 0xF3), ("LATIN SMALL LETTER O WITH CIRCUMFLEX", 0xF4),
   ("LATIN SMALL LETTER O WITH TILDE", 0xF5), ("LATIN SMALL LETTER O WITH DIAERESIS", 0xF6), ("DIVISION SIGN", 0xF7),
   ("LATIN SMALL LETTER O WITH STROKE", 0xF8), ("LATIN SMALL LETTER U WITH GRAVE", 0xF9),
   ("LATIN SMALL LETTER U WITH ACUTE", 0xFA), ("LATIN SMALL LETTER U WITH CIRCUMFLEX", 0xFB),
   ("LATIN SMALL LETTER U WITH DIAERESIS", 0xFC), ("LATIN SMALL LETTER Y WITH ACUTE", 0xFD),
   ("LATIN SMALL LETTER THORN", 0xFE), ("LATIN SMALL LETTER Y WITH DIAERESIS", 0xFF),
   ("GREEK CAPITAL LETTER ALPHA", 0x391), ("GREEK CAPITAL LETTER BETA", 0x392), ("GREEK CAPITAL LETTER GAMMA", 0x393),
   ("GREEK CAPITAL LETTER DELTA", 0x394), ("GREEK CAPITAL LETTER EPSILON", 0x395),
   ("GREEK CAPITAL LETTER ZETA", 0x396), ("GREEK CAPITAL LETTER ETA", 0x397), ("GREEK CAPITAL LETTER THETA", 0x398),
   ("GREEK CAPITAL LETTER IOTA", 0x399), ("GREEK CAPITAL LETTER KAPPA", 0x39A), ("GREEK CAPITAL LETTER LAMDA", 0x39B),
   ("GREEK CAPITAL LETTER MU", 0x39C), ("GREEK CAPITAL LETTER NU", 0x39D), ("GREEK CAPITAL LETTER XI", 0x39E),
   ("GREEK CAPITAL LETTER OMICRON", 0x39F), ("GREEK CAPITAL LETTER PI", 0x3A0), ("GREEK CAPITAL LETTER RHO", 0x3A1),
   ("GREEK CAPITAL LETTER SIGMA", 0x3A3), ("GREEK CAPITAL LETTER TAU", 0x3A4), ("GREEK CAPITAL LETTER UPSILON", 0x3A5),
   ("GREEK CAPITAL LETTER PHI", 0x3A6), ("GREEK CAPITAL LETTER CHI", 0x3A7), ("GREEK CAPITAL LETTER PSI", 0x3A8),
   ("GREEK CAPITAL LETTER OMEGA", 0x3A9), ("GREEK SMALL LETTER ALPHA", 0x3B1), ("GREEK SMALL LETTER BETA", 0x3B2),
   ("GREEK SMALL LETTER GAMMA", 0x3B3), ("GREEK SMALL LETTER DELTA", 0x3B4), ("GREEK SMALL LETTER EPSILON", 0x3B5),
   ("GREEK SMALL LETTER ZETA", 0x3B6), ("GREEK SMALL LETTER ETA", 0x3B7), ("GREEK SMALL LETTER THETA", 0x3B8),
   ("GREEK SMALL LETTER IOTA", 0x3B9), ("GREEK SMALL LETTER KAPPA", 0x3BA), ("GREEK SMALL LETTER LAMDA", 0x3BB),
   ("GREEK SMALL LETTER MU", 0x3BC), ("GREEK SMALL LETTER NU", 0x3BD), ("GREEK SMALL LETTER XI", 0x3BE),
   ("GREEK SMALL LETTER OMICRON", 0x3BF), ("GREEK SMALL LETTER PI", 0x3C0), ("GREEK SMALL LETTER RHO", 0x3C1),
   ("GREEK SMALL LETTER FINAL SIGMA", 0x3C2), ("GREEK SMALL LETTER SIGMA", 0x3C3), ("GREEK SMALL LETTER TAU", 0x3C4),
   ("GREEK SMALL LETTER UPSILON", 0x3C5), ("GREEK SMALL LETTER PHI", 0x3C6), ("GREEK SMALL LETTER CHI", 0x3C7),
   ("GREEK SMALL LETTER PSI", 0x3C8), ("GREEK SMALL LETTER OMEGA", 0x3C9), ("HYPHEN", 0x2010),
   ("NON-BREAKING HYPHEN", 0x2011), ("FIGURE DASH", 0x2012), ("EN DASH", 0x2013), ("EM DASH", 0x2014),
   ("HORIZONTAL BAR", 0x2015), ("LEFT SINGLE QUOTATION MARK", 0x2018), ("RIGHT SINGLE QUOTATION MARK", 0x2019),
   ("LEFT DOUBLE QUOTATION MARK", 0x201C), ("RIGHT DOUBLE QUOTATION MARK", 0x201D), ("BULLET", 0x2022),
   ("HORIZONTAL ELLIPSIS", 0x2026), ("EURO SIGN", 0x20AC), ("LEFTWARDS ARROW", 0x2190), ("UPWARDS ARROW", 0x2191),
   ("RIGHTWARDS ARROW", 0x2192), ("DOWNWARDS ARROW", 0x2193), ("LINE SEPARATOR", 0x2028),
   ("PARAGRAPH SEPARATOR", 0x2029), ("EM SPACE", 0x2003), ("EN SPACE", 0x2002), ("ZERO WIDTH SPACE", 0x200B),
   ("IDEOGRAPHIC SPACE", 0x3000), ("ZERO WIDTH NO-BREAK SPACE", 0xFEFF), ("SNOWMAN", 0x2603), ("CHECK MARK", 0x2713),
   ("GRINNING FACE", 0x1F600)]

/-- the code point with this name -/
def namedChar? (name : List Char) : Option Nat := charNames.lookup (String.ofList (toUpper name))

end MakeAtlas.Text

/-! ## The usual machine

The machine that the program usually runs on: YAML is read as its rules say, entries are judged by the shape of
settings, and a thousand calls can be nested, some of which the program has made before. -/

namespace MakeAtlas

@[reducible]
def Pattern.Dialect.usual : Pattern.Dialect where
  charNamed? := Text.namedChar?
  nesting := 480
  nesting_ge := by decide

/-- the calls for a text, which are more when it refers to a variable -/
def Calls.forText : Points → Nat
  | [] => 2
  | c :: cs => if (Environment.reference? (c :: cs)).isSome then 6 else forText cs

def Calls.usual : Calls where
  room := 990
  value := 1
  list := 1
  mapping := 2
  text := fun _ => forText

def Settings.judgeUsual (es : List (Document × Document)) : Settings.Judged :=
  let reading := Settings.reader (.mapping es)
  ⟨reading.result.mapError .misfits, reading.unknownSeverities⟩

instance Machine.usual : Machine where
  toDialect := .usual
  parse := Yaml.load 480
  undecoded _ := .undecodable
  calls := .usual
  judge := Settings.judgeUsual

end MakeAtlas
