/-
Files: paths, what the file system answers, and what a program may do with it.
-/
import MakeAtlas.Entries
import MakeAtlas.Text.Encoding
import MakeAtlas.Text.Layout

/-! ## Paths

A root, and the names on the way from it. A path has one written form; repeated slashes and single dots are gone from
it, and two dots stay, since they mean the directory above only where there is one. -/

namespace MakeAtlas

/-- where a path starts: here, at the top, or at the top written with two slashes -/
inductive Root where
  | here
  | top
  | doubleTop
  deriving DecidableEq, Repr, Inhabited

def Root.text : Root → String
  | here => ""
  | top => "/"
  | doubleTop => "//"

structure Path where
  root : Root := .here
  parts : List String := []
  deriving DecidableEq, Repr, Inhabited

namespace Path

/-- a text cut at its slashes -/
def cut : List Char → List (List Char)
  | [] => [[]]
  | c :: cs =>
    match cut cs with
    | [] => [[c]]
    | p :: ps => if c == '/' then [] :: p :: ps else (c :: p) :: ps

/-- the root that this many slashes in front mean -/
def rootOf : Nat → Root
  | 0 => .here
  | 2 => .doubleTop
  | _ => .top

def ofText (s : String) : Path :=
  let parts := (cut s.toList).filter fun p => p != [] && p != ['.']
  ⟨rootOf (s.toList.takeWhile (· == '/')).length, parts.map String.ofList⟩

/-- the written form; the path without any name is a dot -/
def text (p : Path) : String :=
  let t := p.root.text ++ "/".intercalate p.parts
  if t.isEmpty then "." else t

def below (p : Path) (name : String) : Path := { p with parts := p.parts ++ [name] }

/-- the path holds the character that no path may hold -/
def hasNul (p : Path) : Bool := p.parts.any fun s => s.toList.contains (Char.ofNat 0)

/-- one name further, or one step up -/
def enter (dir : List String) (name : String) : List String := if name == ".." then dir.dropLast else dir ++ [name]

/-- the names from the top, seen from a directory; no name is looked up for it -/
def resolve (p cwd : Path) : List String :=
  ((if p.root == .here then cwd.parts else []) ++ p.parts).foldl enter []

end Path

end MakeAtlas

/-! ## Faults

What the file system answers when it cannot do what it is asked, with the numbers and the words that go with it. -/

namespace MakeAtlas

/-- an answer of the file system that is no success -/
inductive FileFault where
  | missing
  | notDirectory
  | isDirectory
  | nameTooLong
  | inputOutput
  | other (number : Nat) (reason : String)
  deriving DecidableEq, Repr

namespace FileFault

def number : FileFault → Nat
  | missing => 2
  | inputOutput => 5
  | notDirectory => 20
  | isDirectory => 21
  | nameTooLong => 36
  | other n _ => n

def reason : FileFault → String
  | missing => "No such file or directory"
  | inputOutput => "Input/output error"
  | notDirectory => "Not a directory"
  | isDirectory => "Is a directory"
  | nameTooLong => "File name too long"
  | other _ reason => reason

def text (f : FileFault) : String := "[Errno " ++ toString f.number ++ "] " ++ f.reason

def textAt (f : FileFault) (p : Path) : String := f.text ++ ": " ++ Text.quoted p.text

end FileFault

end MakeAtlas

/-! ## Hosts

Files. What a program may do with files is a host: look at a path, and write a file. A disk in memory is one host; the
file system is another. -/

namespace MakeAtlas

/-- what is found at a path -/
inductive Look where
  | file (bytes : List UInt8)
  | directory
  /-- a file that can be opened, and not read to its end -/
  | unreadable (fault : FileFault)
  | fault (fault : FileFault)
  deriving DecidableEq, Repr

/-- how files are looked at and written -/
structure Host (m : Type → Type) where
  look : Path → m Look
  write : Path → String → m (Option FileFault)

inductive DiskEntry where
  | file (bytes : List UInt8)
  | directory
  deriving DecidableEq, Repr

/-- files and directories by the names from the top -/
abbrev Disk := List (List String × DiskEntry)

namespace Disk

/-- the longest name, and what is longer than the longest path, in bytes -/
def nameLimit : Nat := 255

def pathLimit : Nat := 4096

/-- what is at these names; the top is always there -/
def entry? (d : Disk) (names : List String) : Option DiskEntry :=
  if names.isEmpty then some .directory else d.lookup names

def put (names : List String) (e : DiskEntry) : Disk → Disk
  | [] => [(names, e)]
  | x :: xs => if x.1 == names then (names, e) :: xs else x :: put names e xs

/-- from a directory along the names, which are looked up one by one -/
def walk (d : Disk) (dir : List String) : List String → Except FileFault (List String × DiskEntry)
  | [] => .ok (dir, .directory)
  | name :: rest =>
    if name == ".." then walk d dir.dropLast rest
    else if nameLimit < Text.Utf8.size name.toList then .error .nameTooLong
    else match d.entry? (dir ++ [name]) with
      | none => .error .missing
      | some .directory => walk d (dir ++ [name]) rest
      | some (.file bytes) => if rest.isEmpty then .ok (dir ++ [name], .file bytes) else .error .notDirectory

def find (d : Disk) (cwd p : Path) : Except FileFault (List String × DiskEntry) :=
  if pathLimit ≤ Text.Utf8.size p.text.toList then .error .nameTooLong
  else d.walk (if p.root == .here then cwd.parts else []) p.parts

def look (d : Disk) (cwd p : Path) : Look :=
  match d.find cwd p with
  | .ok (_, .file bytes) => .file bytes
  | .ok (_, .directory) => .directory
  | .error f => .fault f

/-- the names under which a file is written at a path -/
def place (d : Disk) (cwd p : Path) : Except FileFault (List String) :=
  match d.find cwd p with
  | .ok (names, .file _) => .ok names
  | .ok (_, .directory) => .error .isDirectory
  | .error .missing =>
    match d.find cwd { p with parts := p.parts.dropLast } with
    | .ok (dir, .directory) => .ok (dir ++ p.parts.getLast?.toList)
    | _ => .error .missing
  | .error f => .error f

/-- a text written to a file -/
def write (d : Disk) (cwd p : Path) (s : String) : Option FileFault × Disk :=
  match d.place cwd p with
  | .ok names => (none, d.put names (.file (Text.Utf8.encode s.toList)))
  | .error f => (some f, d)

def host (cwd : Path) : Host (StateM Disk) where
  look p := do return (← get).look cwd p
  write p s := modifyGet fun d => d.write cwd p s

end Disk

end MakeAtlas
