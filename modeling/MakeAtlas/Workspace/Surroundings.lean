/-
What the program finds around itself: the current directory, the home directory of the user and of others, and the
variables of the environment. A path may begin with a tilde, which stands for a home directory.
-/
import MakeAtlas.Document.Variables
import MakeAtlas.Failure
import MakeAtlas.Workspace.Host

namespace MakeAtlas

/-- what is around the program -/
structure Surroundings where
  cwd : Path
  home : String
  /-- the home directories of users by name -/
  accounts : Entries String := []
  /-- the variables whose names and values are texts -/
  environment : Entries String := []

namespace Surroundings

def env (s : Surroundings) : Environment := .ofTexts s.environment

/-- variables as the system keeps them: a name, an equals sign and a value, each ended by NUL -/
def environmentOf (text : List Char) : Entries String :=
  (text.splitOn (Char.ofNat 0)).filterMap fun entry =>
    match entry.dropWhile (· != '=') with
    | [] => none
    | _ :: value => some (String.ofList (entry.takeWhile (· != '=')), String.ofList value)

/-- users as the system lists them: a line for each, with the name first and the home directory in the sixth place -/
def accountsOf (text : List Char) : Entries String :=
  (text.splitOn '\n').filterMap fun line =>
    match line.splitOn ':' with
    | name :: _ :: _ :: _ :: _ :: home :: _ => some (String.ofList name, String.ofList home)
    | _ => none

def homePath (s : Surroundings) : Path := Path.ofText s.home

/-- the home directory that the first name of a path stands for -/
def homeNamed (s : Surroundings) (user : List Char) : Except Breakdown Path :=
  if user.isEmpty then .ok s.homePath
  else if user.contains (Char.ofNat 0) then .error .nulInPath
  else match s.accounts.value? (String.ofList user) with
    | some home => .ok (Path.ofText home)
    | none => .error .unknownUser

/-- the path with a tilde in front replaced -/
def expandHome (s : Surroundings) (p : Path) : Except Breakdown Path :=
  match p.root, p.parts with
  | .here, first :: rest =>
    match first.toList with
    | '~' :: user => do
      let home ← s.homeNamed user
      return { home with parts := home.parts ++ rest }
    | _ => .ok p
  | _, _ => .ok p

end Surroundings

end MakeAtlas
