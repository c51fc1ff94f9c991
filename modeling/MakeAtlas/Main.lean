/-
The program on a real system: what is around it is read once, files are looked at and written as the system tells, and
the outcome is printed.
-/
import MakeAtlas.Command.Run
import MakeAtlas.Machine

namespace MakeAtlas

/-- the number and the words of an error of the system -/
def errorDetails : IO.Error → Nat × String
  | .noFileOrDirectory _ code details => (code.toNat, details)
  | .noSuchThing _ code details => (code.toNat, details)
  | .inappropriateType _ code details => (code.toNat, details)
  | .invalidArgument _ code details => (code.toNat, details)
  | .permissionDenied _ code details => (code.toNat, details)
  | .illegalOperation code details => (code.toNat, details)
  | .hardwareFault code details => (code.toNat, details)
  | .alreadyExists _ code details => (code.toNat, details)
  | .resourceExhausted _ code details => (code.toNat, details)
  | .otherError code details => (code.toNat, details)
  | e => (FileFault.inputOutput.number, toString e)

def systemFault (e : IO.Error) : FileFault :=
  let (number, reason) := errorDetails e
  (([FileFault.missing, .notDirectory, .isDirectory, .nameTooLong, .inputOutput]).find? (·.number == number)).getD
    (.other number reason)

def fileSystem : Host IO where
  look p := do
    try return .file (← IO.FS.readBinFile p.text).toList
    catch e =>
      match systemFault e with
      | .isDirectory => return .directory
      | .inputOutput => return .unreadable .inputOutput
      | f => return .fault f
  write p s := do
    try
      IO.FS.writeFile p.text s
      return none
    catch e => return some (systemFault e)

/-- a file of the system as a text; nothing when it cannot be read -/
def systemText (path : String) : IO (List Char) := do
  match ← fileSystem.look (Path.ofText path) with
  | .file bytes => return Text.Utf8.decodeLenient bytes
  | _ => return []

/-- what is around the program -/
def surroundings : IO Surroundings := do
  let environment := Surroundings.environmentOf (← systemText "/proc/self/environ")
  let accounts := Surroundings.accountsOf (← systemText "/etc/passwd")
  let cwd := Path.ofText (← IO.currentDir).toString
  return { cwd, home := (environment.value? "HOME").getD "/", accounts, environment }

/-- one command line run, with its status; a failure that nobody has foreseen counts as found -/
def runProgram (words : List String) : IO UInt32 := do
  match ← Command.run fileSystem (← surroundings) words with
  | .error _ =>
    (← IO.getStderr).putStr "the program broke off\n"
    return UInt32.ofNat Command.Outcome.found
  | .ok o =>
    (← IO.getStdout).putStr o.output
    if let some message := o.error then (← IO.getStderr).putStr message
    return UInt32.ofNat o.status

end MakeAtlas

/-- runs the command line that the program was started with -/
def main (words : List String) : IO UInt32 := MakeAtlas.runProgram words
