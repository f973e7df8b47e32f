import ModifierFacts.CommandLine.Execute

/-!
# The program

Reads the files that a command names, carries the command out and writes what came of it. All that
is decided is decided in `ModifierFacts.CommandLine.Execute`.
-/

namespace ModifierFacts.CommandLine

/-- The error of a failed file operation. -/
def fileError : IO.Error → FileError
  | .noFileOrDirectory _ _ _ => .notFound
  | .inappropriateType _ 20 _ => .notDirectory
  | .inappropriateType _ _ _ => .isDirectory
  | .invalidArgument _ 36 _ => .nameTooLong
  | .permissionDenied _ code reason => .other (reason ++ " (os error " ++ toString code ++ ")")
  | e => .other (toString e)

/-- Does a path lead to something? -/
def leadsSomewhere (path : String) : IO Bool := do
  try
    let _ ← IO.FS.realPath path
    return true
  catch _ => return false

/-- The error of a file that cannot be read. A path that leads nowhere is told from one at which
something cannot be read. -/
def readError (path : String) (e : IO.Error) : IO FileError := do
  match fileError e with
  | .other reason => return if ← leadsSomewhere path then .other reason else .unreachable reason
  | error => return error

/-- Reads a file as text. -/
def readFile (path : String) : IO (Except FileError String) := do
  try
    let bytes ← IO.FS.readBinFile path
    return (File.bytes bytes.toList).text
  catch e => return .error (← readError path e)

/-- Writes a file. -/
def writeFile (path : String) (content : List UInt8) : IO (Except FileError Unit) := do
  try
    IO.FS.writeBinFile path ⟨content.toArray⟩
    return .ok ()
  catch e => return .error (fileError e)

/-- The paths that a command reads. -/
def inputsOf : Except Refusal Command → List String
  | .ok (.extract config input _ _ _) => [config.getD configFile, input]
  | .ok (.classify input) => [input]
  | _ => []

/-- Prints an outcome and gives its exit code. -/
def present (outcome : Outcome) : IO UInt32 := do
  IO.print outcome.output
  IO.eprint outcome.errors
  return outcome.exit

/-- Reads what an argument list needs, carries it out and writes the file that it asks for. If that
file cannot be written, the outcome is that of a storage which refuses to create it. -/
def runWith (args : List String) : IO UInt32 := do
  let texts ← (inputsOf (parse args)).mapM fun path => do return (path, ← readFile path)
  let read (path : String) : Except FileError String :=
    (texts.lookup path).getD (.error .notFound)
  let outcome := perform ⟨read, fun _ => .ok ()⟩ args
  match outcome.written with
  | none => present outcome
  | some (path, content) =>
    match ← writeFile path content with
    | .ok () => present outcome
    | .error e => present (perform ⟨read, fun _ => .error e⟩ args)

end ModifierFacts.CommandLine

def main (args : List String) : IO UInt32 := ModifierFacts.CommandLine.runWith args
