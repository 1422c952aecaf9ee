import Calculator.CommandLine.Arguments
import Calculator.CommandLine.Typing

/-! What a whole run leaves behind: its outputs, its files and its exit code. -/

namespace Calculator.CommandLine

/-- The outputs and files of a run so far, the files in the order of writing. -/
structure Transcript where
  stdout : String
  stderr : String
  files : List (String × String)

namespace Transcript

/-- Nothing has happened yet. -/
def empty : Transcript := ⟨"", "", []⟩

/-- The message on a file that cannot be written. -/
def saveFailure (file : PlotFile) (cause : String) : String :=
  s!"Error: writing plot \"{file.title}\" to {file.path}\n\nCaused by:\n    {cause}"

/-- Carries out effects in order. `refusal` says why a path cannot be written, if it cannot: then
the rest does not happen, and the run has failed. -/
def perform (refusal : String → Option String) :
    List Effect → Transcript → Except Transcript Transcript
  | [], transcript => .ok transcript
  | .print line :: rest, transcript =>
    perform refusal rest { transcript with stdout := transcript.stdout ++ line ++ "\n" }
  | .complain line :: rest, transcript =>
    perform refusal rest { transcript with stderr := transcript.stderr ++ line ++ "\n" }
  | .save file :: rest, transcript =>
    match refusal file.path with
    | none =>
      perform refusal rest { transcript with files := transcript.files ++ [(file.path, file.svg)] }
    | some cause =>
      .error { transcript with stderr := transcript.stderr ++ saveFailure file cause ++ "\n" }

/-- Answers inputs in order, until one of them ends the run. -/
def answerAll (refusal : String → Option String) (answer : Desk → String → Reaction) :
    List String → Desk → Transcript → UInt32 × Transcript
  | [], _, transcript => (0, transcript)
  | input :: rest, desk, transcript =>
    let reaction := answer desk input
    match perform refusal reaction.effects transcript, reaction.next with
    | .error transcript, _ => (1, transcript)
    | .ok transcript, .error code => (code, transcript)
    | .ok transcript, .ok desk => answerAll refusal answer rest desk transcript

/-- The characters between line ends, in order; there is always a last line, which may be empty. -/
def splitLines : List Char → List (List Char)
  | [] => [[]]
  | char :: rest =>
    if char = '\n' then [] :: splitLines rest
    else
      match splitLines rest with
      | [] => [[char]]
      | line :: more => (char :: line) :: more

/-- The lines of a text; the last one need not be ended. -/
def lines (text : String) : List String := (splitLines text.toList).map String.ofList

/-- How the program is used. -/
def usageLines : List String :=
  ["Usage: calculon [OPTIONS] [COMMAND]",
    "",
    "Commands:",
    "  eval <EXPRESSIONS>...  Evaluate expressions in order",
    "  repl                   Evaluate lines interactively (the default)",
    "",
    "Options:",
    "      --seed <SEED>          Seed of the random source",
    "      --plot-dir <PLOT_DIR>  Directory for plots [default: .]",
    "  -h, --help                 Print help",
    "  -V, --version              Print version"]

/-- A run on a request, with a seed for when none is given. -/
def run (refusal : String → Option String) (freshSeed : UInt64) (stdin : String) :
    Request → UInt32 × Transcript
  | .version => (0, { empty with stdout := Desk.versionLine ++ "\n" })
  | .help => (0, { empty with stdout := String.join (usageLines.map (· ++ "\n")) })
  | .misuse => (2, { empty with stderr := String.join (usageLines.map (· ++ "\n")) })
  | .run seed directory command =>
    let desk := Desk.start (seed.getD freshSeed) directory
    match command with
    | .eval expressions => answerAll refusal Desk.answerExpression expressions desk empty
    | .repl =>
      let banner := String.join (Desk.bannerLines.map (· ++ "\n"))
      answerAll refusal Desk.answerTyped (lines stdin) desk { empty with stdout := banner }

end Transcript

end Calculator.CommandLine
