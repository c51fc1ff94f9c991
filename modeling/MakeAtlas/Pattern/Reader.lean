/-
Reading patterns. The reader is a recursive descent over tokens: alternatives, items, and for each item a leaf, a group
or a repetition of the item before it. What it has learnt on the way (groups, names, flags) is in its cursor.
-/
import MakeAtlas.Pattern.Node
import MakeAtlas.Pattern.Token
import MakeAtlas.Text.Layout

namespace MakeAtlas.Pattern

open Text

/-- the letters that switch a flag -/
inductive Flag where
  | ignoreCase
  | multiline
  | dotAll
  | verbose
  | ascii
  | unicode
  | template
  deriving DecidableEq, Repr

def Flag.ofChar? : Char → Option Flag
  | 'i' => some ignoreCase
  | 'm' => some multiline
  | 's' => some dotAll
  | 'x' => some verbose
  | 'a' => some ascii
  | 'u' => some unicode
  | 't' => some template
  | _ => none

/-- a flag that chooses the classes -/
def Flag.isType (f : Flag) : Bool := f == ascii || f == unicode

/-- the flags in force at some place in a pattern -/
abbrev Flags := List Flag

/-- flags switched on and off: choosing the classes undoes an earlier choice -/
def Flags.change (fs on off : Flags) : Flags :=
  let kept := if on.any Flag.isType then fs.filter (!·.isType) else fs
  (kept ++ on).filter (!off.contains ·)

/-- how leaves are compared under these flags -/
def Flags.mode (fs : Flags) : Mode :=
  { ignoreCase := fs.contains .ignoreCase, multiline := fs.contains .multiline, dotAll := fs.contains .dotAll
    ascii := fs.contains .ascii }

/-- what the reader knows at some place in a pattern -/
structure Cursor where
  rest : List Token
  /-- the widths of the groups begun so far; none while a group is open -/
  spans : List (Option (Nat × Nat)) := []
  names : List (List Char × Nat) := []
  /-- inside a look behind: the number of groups begun before it -/
  fence : Option Nat := none
  /-- groups by number on which something depends -/
  conditions : List Nat := []
  /-- flags for the whole pattern -/
  flags : Flags := []
  /-- well written, and yet no pattern -/
  unsound : Bool := false
  /-- how deep groups have been nested -/
  deepest : Nat := 0

namespace Cursor

/-- the width of a group that is closed -/
def span? (c : Cursor) (index : Nat) : Option (Nat × Nat) :=
  if index == 0 then none else (c.spans[index - 1]?).join

/-- the widths of all closed groups -/
def closedSpans (c : Cursor) : List (Nat × Nat × Nat) :=
  c.spans.zipIdx.filterMap fun (w, i) => w.map fun w => (i + 1, w)

end Cursor

/-- a step of the reader; what it has learnt is not lost with a fault -/
abbrev Reader := ExceptT Fault (StateM Cursor)

/-- the text is no pattern -/
def malformed {α : Type} : Reader α := throw .malformed

/-- the next token, left in place -/
def peek : Reader (Option Token) := do return (← get).rest.head?

def take : Reader Token := do
  let c ← get
  match c.rest with
  | [] => malformed
  | .dangling :: _ => malformed
  | t :: ts =>
    set { c with rest := ts }
    return t

/-- take this character if it comes next -/
def accept (x : Char) : Reader Bool := do
  let c ← get
  match c.rest with
  | .char y :: ts => if x == y then set { c with rest := ts }; return true else return false
  | _ => return false

/-- this character must come next -/
def expect (x : Char) : Reader Unit := do if !(← accept x) then malformed

def leading (p : Char → Bool) : Nat → List Token → List Char × List Token
  | n + 1, .char c :: ts =>
    if p c then
      let (cs, rest) := leading p n ts
      (c :: cs, rest)
    else ([], .char c :: ts)
  | _, ts => ([], ts)

def takeSome (p : Char → Bool) (n : Nat) : Reader (List Char) := do
  let c ← get
  let (cs, rest) := leading p n c.rest
  set { c with rest }
  return cs

def takeName (stop : Char) : Reader (List Char) := do
  let c ← get
  match Token.cutAt stop c.rest with
  | some (n :: name, rest) =>
    set { c with rest }
    return n :: name
  | _ => malformed

def skipComment (stop : Char) : Reader Unit := do
  let c ← get
  match Token.cutAt stop c.rest with
  | some (_, rest) => set { c with rest }
  | none => malformed

/-- drop the rest of a line; the end of the pattern ends it too -/
def skipLine : Reader Unit := do
  let c ← get
  match Token.cutAt '\n' c.rest with
  | some (_, rest) => set { c with rest }
  | none => if c.rest.contains .dangling then malformed else set { c with rest := [] }

/-- nothing but a dangling backslash comes next -/
def refuseDangling : Reader Unit := do if (← peek) == some .dangling then malformed

def isAsciiDigit (c : Char) : Bool := '0' ≤ c && c ≤ '9'

def isOctal (c : Char) : Bool := '0' ≤ c && c ≤ '7'

def isAsciiLetter (c : Char) : Bool := ('a' ≤ c && c ≤ 'z') || ('A' ≤ c && c ≤ 'Z')

/-- the value of a hexadecimal digit -/
def hexValue? (c : Char) : Option Nat :=
  if isAsciiDigit c then some (c.toNat - 0x30)
  else if 'a' ≤ c && c ≤ 'f' then some (c.toNat - 0x57)
  else if 'A' ≤ c && c ≤ 'F' then some (c.toNat - 0x37)
  else none

/-- digits as a number -/
def valueIn (base : Nat) (cs : List Char) : Nat := ofDigits base (cs.map fun c => (hexValue? c).getD 0)

def isName : List Char → Bool
  | [] => false
  | c :: cs =>
    (c == '_' || isLetter c.toNat) && cs.all fun d => d == '_' || isLetter d.toNat || isDigit d.toNat

/-! ### Escapes -/

/-- exactly `n` hexadecimal digits -/
def hexCode (n : Nat) : Reader Nat := do
  let ds ← takeSome (fun c => (hexValue? c).isSome) n
  if ds.length == n then return valueIn 16 ds else malformed

/-- the code point that an escape names by letter or by number; the same inside and outside of sets -/
def codeEscape (c : Char) : Reader (Option Nat) :=
  match c with
  | 'a' => return some 7
  | 'f' => return some 12
  | 'n' => return some 10
  | 'r' => return some 13
  | 't' => return some 9
  | 'v' => return some 11
  | '\\' => return some 0x5C
  | 'x' => some <$> hexCode 2
  | 'u' => some <$> hexCode 4
  | 'U' => do
    let n ← hexCode 8
    refuseDangling
    if n ≥ 0x80000000 then throw .numberTooLarge
    else if n > 0x10FFFF then malformed
    else return some n
  | _ => return none

/-- the code point of a name, which stands in braces -/
def nameEscape (code : Option Nat) : Reader Nat := do
  expect '\x7b'
  let _ ← takeName '\x7d'
  match code with
  | some n => return n
  | none => malformed

def classEscape? : Char → Option Member
  | 'd' => some (.named .digit false)
  | 'D' => some (.named .digit true)
  | 's' => some (.named .space false)
  | 'S' => some (.named .space true)
  | 'w' => some (.named .word false)
  | 'W' => some (.named .word true)
  | _ => none

def memberEscape (c : Char) : Reader Member := do
  if c == 'b' then return .code 8
  if let some m := classEscape? c then return m
  if let some n ← codeEscape c then return .code n
  if isOctal c then
    let n := valueIn 8 (c :: (← takeSome isOctal 2))
    if n > 0o377 then malformed else return .code n
  else if isAsciiDigit c || isAsciiLetter c then malformed
  else return .code c.toNat

/-- a group that may be referred to here: closed, and outside of the look behind -/
def checkReference (index : Nat) : Reader Unit := do
  let c ← get
  match c.fence with
  | none => return ()
  | some n => if (c.span? index).isNone || index > n then malformed

/-- a reference to the text of a group -/
def reference (mode : Mode) (index : Nat) : Reader Node := do
  if ((← get).span? index).isNone then malformed
  checkReference index
  return .backref mode index

/-- an escape that starts with a digit: a code in octal, or the number of a group -/
def digitEscape (mode : Mode) (c : Char) : Reader Node := do
  if c == '0' then return .one mode (.code (valueIn 8 (c :: (← takeSome isOctal 2))))
  match ← takeSome isAsciiDigit 1 with
  | [] => reference mode (valueIn 10 [c])
  | d :: _ =>
    if isOctal c && isOctal d then
      match ← takeSome isOctal 1 with
      | [] => reference mode (valueIn 10 [c, d])
      | e :: _ =>
        let n := valueIn 8 [c, d, e]
        if n > 0o377 then malformed else return .one mode (.code n)
    else reference mode (valueIn 10 [c, d])

/-- an escape outside of sets -/
def escapeNode (mode : Mode) (c : Char) : Reader Node := do
  match c with
  | 'A' => return .at mode .textStart
  | 'Z' => return .at mode .textEnd
  | 'b' => return .at mode .boundary
  | 'B' => return .at mode .noBoundary
  | _ =>
    if let some m := classEscape? c then return .one mode (.set false [m])
    if let some n ← codeEscape c then return .one mode (.code n)
    if isAsciiDigit c then digitEscape mode c
    else if isAsciiLetter c then malformed
    else return .one mode (.code c.toNat)

/-! ### Sets -/

/-- one end of a range -/
def memberOf : Token → Reader Member
  | .escape c => memberEscape c
  | .named code => .code <$> nameEscape code
  | .char c => return .code c.toNat
  | .dangling => malformed

/-- the members up to the closing bracket; the first member may be a bracket. One unit of fuel for each. -/
def members : Nat → List Member → Reader (List Member)
  | 0, _ => malformed
  | fuel + 1, acc => do
    let t ← take
    if t == .char ']' && !acc.isEmpty then return acc.reverse
    let a ← memberOf t
    if !(← accept '-') then members fuel (a :: acc)
    else
      let u ← take
      if u == .char ']' then return (.code 0x2D :: a :: acc).reverse
      match a, ← memberOf u with
      | .code lo, .code hi => if hi < lo then malformed else members fuel (.range lo hi :: acc)
      | _, _ => malformed

/-- a set; one that lists a single character is that character -/
def setNode (mode : Mode) : Reader Node := do
  let negated ← accept '^'
  let ms := (← members ((← get).rest.length + 1) []).eraseDups
  match ms, negated with
  | [.code n], false => return .one mode (.code n)
  | [.code n], true => return .one mode (.notCode n)
  | _, _ => return .one mode (.set negated ms)

/-! ### Repetitions -/

abbrev Bounds := Nat × Option Nat

/-- every bound lies below this one -/
def boundLimit : Nat := 0xFFFFFFFF

def boundOf (ds : List Char) : Reader Nat := do
  if ds.length > longestNumber then throw .numberTooLong
  let n := valueIn 10 ds
  if n ≥ boundLimit then throw .numberTooLarge else return n

/-- the bounds after an opening brace; none when the brace stands for itself -/
def braceBounds : Reader (Option Bounds) := do
  if (← peek) == some (.char '\x7d') then return none
  let here ← get
  let lo ← takeSome isAsciiDigit here.rest.length
  let hi ← if ← accept ',' then takeSome isAsciiDigit here.rest.length else pure lo
  if !(← accept '\x7d') then
    set here
    return none
  refuseDangling
  let least ← if lo.isEmpty then pure 0 else boundOf lo
  if hi.isEmpty then return some (least, none)
  let most ← boundOf hi
  if most < least then malformed else return some (least, some most)

/-- the bounds that a sign starts, if it is one of repetition -/
def boundsAfter : Char → Reader (Option Bounds)
  | '?' => return some (0, some 1)
  | '*' => return some (0, none)
  | '+' => return some (1, none)
  | '\x7b' => braceBounds
  | _ => return none

/-- how a repetition is tried, from the sign after its bounds -/
def style : Reader Style := do
  if ← accept '?' then return .lazy
  if ← accept '+' then return .possessive
  return .greedy

/-! ### Items and alternatives -/

/-- an item read: a node, the nodes of a group that does nothing but bundle, or a group with flags of its own -/
inductive Item where
  | node (n : Node)
  | bundle (ns : List Node)
  | flagged (n : Node)

namespace Item

def body : Item → Node
  | node n => n
  | bundle ns => .ofSeq ns
  | flagged n => n

def nodes : Item → List Node
  | node n => [n]
  | bundle ns => ns
  | flagged n => [.seq n .empty]

def repeatable : Item → Bool
  | node n => !n.isAnchor && !n.isRepeat
  | _ => true

end Item

/-- the first node of every alternative, if it is one and the same leaf -/
def sharedHead? (alts : List (List Node)) : Option Node :=
  match alts with
  | (.one m t :: _) :: _ => if alts.all (·.head? == some (.one m t)) then some (.one m t) else none
  | (.at m a :: _) :: _ => if alts.all (·.head? == some (.at m a)) then some (.at m a) else none
  | (.backref m i :: _) :: _ => if alts.all (·.head? == some (.backref m i)) then some (.backref m i) else none
  | _ => none

/-- the members of a set for an alternative that is a single character -/
def asMembers? : List Node → Option (Mode × List Member)
  | [.one m (.code n)] => some (m, [.code n])
  | [.one m (.set false ms)] => some (m, ms)
  | _ => none

/-- alternatives in one: a start that they share is taken out (one unit of fuel for each node of it), and single
characters make a set -/
def joinAlternatives : Nat → List (List Node) → List Node
  | _, [] => []
  | _, [ns] => ns
  | fuel, alts =>
    match fuel, sharedHead? alts with
    | fuel + 1, some n => n :: joinAlternatives fuel (alts.map (·.drop 1))
    | _, _ =>
      match alts.mapM asMembers? with
      | some ((m, ms) :: rest) => [.one m (.set false (ms ++ rest.flatMap (·.2)).eraseDups)]
      | _ => [.ofAlt (alts.map .ofSeq)]

/-- flags after the letters read so far; `stop` tells which sign ends them -/
def flagsOn : Nat → Flags → Token → Reader (Flags × Char)
  | 0, _, _ => malformed
  | fuel + 1, acc, t => do
    match t with
    | .char c =>
      match Flag.ofChar? c with
      | some f =>
        let on := f :: acc
        if f.isType && on.any fun g => g.isType && g != f then malformed
        match ← take with
        | .char s => if s == ')' || s == '-' || s == ':' then return (on, s) else flagsOn fuel on (.char s)
        | _ => malformed
      | none => malformed
    | _ => malformed

def flagsOff : Nat → Flags → Token → Reader Flags
  | 0, _, _ => malformed
  | fuel + 1, acc, t => do
    match t with
    | .char c =>
      match Flag.ofChar? c with
      | some f =>
        if f.isType then malformed
        let off := f :: acc
        match ← take with
        | .char ':' => return off
        | s => flagsOff fuel off s
      | none => malformed
    | _ => malformed

/-- flags in a group: for the whole pattern, or on and off for the group -/
inductive FlagGroup where
  | whole (on : Flags)
  | inside (on off : Flags)

def flagGroup (t : Token) : Reader FlagGroup := do
  let fuel := (← get).rest.length + 1
  let (on, stop) ← if t == .char '-' then pure ([], '-') else flagsOn fuel [] t
  if stop == ')' then return .whole on
  if on.contains .template then malformed
  let off ← if stop == '-' then flagsOff fuel [] (← take) else pure []
  if off.contains .template || on.any off.contains then malformed
  return .inside on off

def conditionGroup (name : List Char) : Reader Nat := do
  let c ← get
  let index ←
    if isName name then
      match c.names.lookup name with
      | some i => pure i
      | none => malformed
    else
      match readInteger? name with
      | some n =>
        if n ≤ 0 || n ≥ 0x40000000 then malformed
        set { c with conditions := n.toNat :: c.conditions }
        pure n.toNat
      | none => malformed
  checkReference index
  return index

def openGroup (name : Option (List Char)) : Reader Nat := do
  let c ← get
  let index := c.spans.length + 1
  match name with
  | none => set { c with spans := c.spans ++ [none] }
  | some n =>
    if (c.names.lookup n).isSome then malformed
    set { c with spans := c.spans ++ [none], names := (n, index) :: c.names }
  return index

def closeGroup (index : Nat) (body : Node) : Reader Unit := do
  let c ← get
  set { c with spans := c.spans.set (index - 1) (some (body.width c.closedSpans)) }

def groupName (stop : Char) : Reader (List Char) := do
  let name ← takeName stop
  if isName name then return name else malformed

/-- something that a pattern may not do is noted and reported at the end -/
def noteUnsound (p : Bool) : Reader Unit := do if p then modify fun c => { c with unsound := true }

def isVerboseBlank (c : Char) : Bool := c == ' ' || ('\t' ≤ c && c ≤ '\r')

/-- what a parenthesis turned out to begin -/
inductive Opened where
  | item (i : Item)
  | comment
  | flags (on : Flags)

mutual

/-- the alternatives up to a closing parenthesis or the end, as one sequence; `top` outside of all groups -/
def alternatives (fuel depth : Nat) (top : Bool) (flags : Flags) : Reader (List Node) := do
  match fuel with
  | 0 => throw .tooDeep
  | fuel + 1 =>
    modify fun c => { c with deepest := max c.deepest depth }
    let alts ← branches fuel depth top top flags
    return joinAlternatives (alts.headD []).length alts

/-- the alternatives one by one -/
def branches (fuel depth : Nat) (top first : Bool) (flags : Flags) : Reader (List (List Node)) := do
  match fuel with
  | 0 => throw .tooDeep
  | fuel + 1 =>
    let whole := (← get).flags
    let ns ← items fuel depth first (if top then whole else flags) []
    if ← accept '|' then
      let more ← branches fuel depth top false flags
      return ns :: more
    else return [ns]

/-- the items up to a bar, a closing parenthesis or the end; `acc` holds the last one first -/
def items (fuel depth : Nat) (first : Bool) (flags : Flags) (acc : List Item) : Reader (List Node) := do
  match fuel with
  | 0 => throw .tooDeep
  | fuel + 1 =>
    let finish := acc.reverse.flatMap Item.nodes
    let mode := flags.mode
    let verbose := flags.contains .verbose
    match ← peek with
    | none => return finish
    | some (.char '|') => return finish
    | some (.char ')') => return finish
    | some _ =>
      match ← take with
      | .escape c =>
        let n ← escapeNode mode c
        items fuel depth first flags (.node n :: acc)
      | .named code =>
        let n ← nameEscape code
        items fuel depth first flags (.node (.one mode (.code n)) :: acc)
      | .dangling => malformed
      | .char c =>
        if verbose && isVerboseBlank c then items fuel depth first flags acc
        else if verbose && c == '#' then
          skipLine
          items fuel depth first flags acc
        else match c with
          | '[' =>
            let n ← setNode mode
            items fuel depth first flags (.node n :: acc)
          | '.' => items fuel depth first flags (.node (.one mode .any) :: acc)
          | '^' => items fuel depth first flags (.node (.at mode .lineStart) :: acc)
          | '$' => items fuel depth first flags (.node (.at mode .lineEnd) :: acc)
          | '(' =>
            match ← groupItem fuel depth flags with
            | .item i => items fuel depth first flags (i :: acc)
            | .comment => items fuel depth first flags acc
            | .flags on =>
              if !first || !acc.isEmpty then malformed
              modify fun c => { c with flags := c.flags ++ on }
              items fuel depth first (← get).flags acc
          | c =>
            match ← boundsAfter c with
            | none => items fuel depth first flags (.node (.one mode (.code c.toNat)) :: acc)
            | some (least, most) =>
              match acc with
              | [] => malformed
              | item :: acc =>
                if !item.repeatable then malformed
                noteUnsound (flags.contains .template)
                let st ← style
                items fuel depth first flags (.node (.repeat st least most item.body) :: acc)

/-- what follows an opening parenthesis, up to the closing one -/
def groupItem (fuel depth : Nat) (flags : Flags) : Reader Opened := do
  match fuel with
  | 0 => throw .tooDeep
  | fuel + 1 =>
    let mode := flags.mode
    let captured (name : Option (List Char)) : Reader Opened := do
      let index ← openGroup name
      let body := Node.ofSeq (← alternatives fuel (depth + 1) false flags)
      expect ')'
      closeGroup index body
      return .item (.node (.group index body))
    let ahead (holds : Bool) : Reader Opened := do
      let body := Node.ofSeq (← alternatives fuel (depth + 1) false flags)
      expect ')'
      return .item (.node (.ahead holds body))
    let behind (holds : Bool) : Reader Opened := do
      let outer := (← get).fence
      modify fun c => { c with fence := some (outer.getD c.spans.length) }
      let body := Node.ofSeq (← alternatives fuel (depth + 1) false flags)
      modify fun c => { c with fence := outer }
      expect ')'
      let (lo, hi) := body.width (← get).closedSpans
      noteUnsound (lo != hi || lo > boundLimit)
      return .item (.node (.behind holds lo body))
    if !(← accept '?') then captured none
    else match ← take with
      | .char 'P' =>
        if ← accept '<' then captured (some (← groupName '>'))
        else if ← accept '=' then
          let name ← groupName ')'
          match (← get).names.lookup name with
          | some index => return .item (.node (← reference mode index))
          | none => malformed
        else malformed
      | .char ':' =>
        let ns ← alternatives fuel (depth + 1) false flags
        expect ')'
        return .item (.bundle ns)
      | .char '#' =>
        skipComment ')'
        return .comment
      | .char '=' => ahead true
      | .char '!' => ahead false
      | .char '<' =>
        match ← take with
        | .char '=' => behind true
        | .char '!' => behind false
        | _ => malformed
      | .char '(' =>
        let index ← conditionGroup (← takeName ')')
        let yes ← items fuel (depth + 1) false flags []
        let no ← if ← accept '|' then items fuel (depth + 1) false flags [] else pure []
        expect ')'
        return .item (.node (.ifGroup index (.ofSeq yes) (.ofSeq no)))
      | .char '>' =>
        let ns ← alternatives fuel (depth + 1) false flags
        expect ')'
        return .item (.node (.atomic (.ofSeq ns)))
      | t =>
        match ← flagGroup t with
        | .whole on => return .flags on
        | .inside on off =>
          let ns ← alternatives fuel (depth + 1) false (flags.change on off)
          expect ')'
          return .item (if on.isEmpty && off.isEmpty then .bundle ns else .flagged (.ofSeq ns))

end

def whole : Reader Node := do
  let ns ← alternatives (4 * (← get).rest.length + 8) 0 true []
  let c ← get
  if c.flags.contains .ascii && c.flags.contains .unicode then throw .clashingFlags
  if !c.rest.isEmpty || c.conditions.any (· > c.spans.length) || c.unsound then malformed
  return .ofSeq ns

/-- the pattern that tokens make up, whatever their nesting, and what was learnt of it -/
def read (ts : List Token) : Except Fault Node × Cursor := StateT.run whole { rest := ts }

/-- the pattern that a text writes; a nesting that goes too deep is noticed before anything behind it -/
def compile [Dialect] (text : String) : Except Fault Node :=
  let (result, c) := read (Token.resolved Dialect.charNamed? (Token.ofText text.toList))
  if Dialect.nesting < c.deepest then .error .tooDeep else result

/-- the tokens ask for no name and are nested no deeper than in the catalog, so that it does not matter where they are
read -/
def Everywhere (ts : List Token) : Prop := Token.escape 'N' ∉ ts ∧ (read ts).2.deepest ≤ 8

instance : DecidablePred Everywhere := fun _ => instDecidableAnd

theorem compile_of_everywhere [Dialect] {text : String} {cs : List Char} (htext : text.toList = cs)
    (h : Everywhere (Token.ofText cs)) : compile text = (read (Token.ofText cs)).1 := by
  have hdeep : ¬ Dialect.nesting < (read (Token.ofText cs)).2.deepest :=
    Nat.not_lt.2 (Nat.le_trans h.2 Dialect.nesting_ge)
  rw [compile, htext, Token.resolved_of_not_mem h.1]
  exact if_neg hdeep

end MakeAtlas.Pattern
