import ModifierFacts.CommandLine.Arguments
import ModifierFacts.CommandLine.Storage
import ModifierFacts.Sink.JsonLines

/-!
# Carrying out commands

`CommandLine.execute` takes a command and the files around it to everything that can be seen
afterwards: the exit code, what was printed, and the file that was written, if one was.
-/

namespace ModifierFacts.CommandLine

/-! ## 1. Outcomes -/

/-- What can be seen of a finished program. -/
structure Outcome where
  exit : UInt32 := 0
  output : String := ""
  errors : String := ""
  /-- The file that was written, with its whole content. -/
  written : Option (String × List UInt8) := none
  deriving DecidableEq, Repr

/-- A text indented, its later lines as well as the first. -/
def indent (first later text : String) : String :=
  first ++ ("\n" ++ later).intercalate (text.splitOn "\n")

/-- The causes of an error under each other. A single one has no number. -/
def causes : List String → String
  | [cause] => "\n" ++ indent "    " "    " cause
  | all => String.join (all.zipIdx.map fun (cause, n) =>
      let number := toString n
      let blanks := String.ofList (List.replicate (5 - number.length) ' ')
      "\n" ++ indent (blanks ++ number ++ ": ") "       " cause)

/-- The report of an error with its causes. -/
def report : List String → String
  | [] => ""
  | [message] => "Error: " ++ message ++ "\n"
  | message :: rest => "Error: " ++ message ++ "\n\nCaused by:" ++ causes rest ++ "\n"

/-- The outcome of an error. -/
def Outcome.failed (chain : List String) : Outcome := { exit := 1, errors := report chain }

/-! ## 2. Commands -/

/-- The file of the configuration where none is named. -/
def configFile : String := "modfacts.toml"

/-- The configuration with the settings of the command line, which come first. -/
def override (config : Config) (abortRun : Bool) (threads : Option UInt64) : Config :=
  { failurePolicy := if abortRun then .abortRun else config.failurePolicy
    threads := threads.or config.threads }

/-- The bytes that a file ends up with: what is held back is written when the file is closed. -/
def contentOf (s : JsonLines) : List UInt8 := s.writer.written.toList ++ s.held

/-- The messages about dropped units. -/
def failureLines (failures : List UnitFailure) : String :=
  String.join (failures.map fun f => "aborted " ++ f.unit ++ ": " ++ f.error ++ "\n")

/-- The outcome of a run whose facts go to a file. -/
def runOutcome (output : String) (result : Except RunStop RunSummary) (content : List UInt8) :
    Outcome :=
  let written := some (output, content)
  match result with
  | .ok summary =>
    { output := summary.stats.toJson.pretty ++ "\n"
      errors := failureLines summary.failures
      written }
  | .error (.failed e) => { Outcome.failed e.chain with written }
  | .error .crashed => { exit := 101, written }

/-- Runs over an input; the facts go to a file. -/
def extractTo (output : String) (config : Config) (input : ExtractionInput) : Outcome :=
  let start : Context JsonLines := .start { pending := some [] }
  let (result, cx) := (Context.run .jsonLines config.failurePolicy input.units).run start
  runOutcome output result (contentOf cx.sinkState)

/-- Extracts the facts of an input file. The output file is not touched before the configuration and
the input have been read. -/
def extract (storage : Storage) (config : Option String) (input output : String) (abortRun : Bool)
    (threads : Option UInt64) : Outcome :=
  match Config.load storage (config.getD configFile) with
  | .error e => .failed e.chain
  | .ok config =>
    match loadDocument ExtractionInput.reader storage input with
    | .error e => .failed e.chain
    | .ok document =>
      match storage.create output with
      | .error e => .failed ["creating " ++ output, e.message]
      | .ok () => extractTo output (override config abortRun threads) document

/-- Prints the modifiers of the symbol in a file. -/
def classify (storage : Storage) (input : String) : Outcome :=
  match loadDocument Symbol.reader storage input with
  | .error e => .failed e.chain
  | .ok symbol =>
    match symbol.classify with
    | .error e => .failed [e.message]
    | .ok set => { output := " ".intercalate set.names ++ "\n" }

/-- Carries a command out. -/
def execute (storage : Storage) : Command → Outcome
  | .extract config input output abortRun threads =>
    extract storage config input output abortRun threads
  | .classify input => classify storage input
  | .version => { output := "modfacts v0.1.0\n" }

/-- How the program is used. -/
def usage : String := "usage: modfacts (extract | classify | version)\n"

/-- Carries an argument list out. -/
def perform (storage : Storage) (args : List String) : Outcome :=
  match parse args with
  | .ok command => execute storage command
  | .error .help => { output := usage }
  | .error .usage => { exit := 2, errors := usage }

end ModifierFacts.CommandLine
