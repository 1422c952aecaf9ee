import Calculator.CommandLine.Transcript

/-! The command line: carries out what the front ends ask for. -/

namespace Calculator.CommandLine

/-- Why a file could not be written. -/
def writeFailure : IO.Error → String
  | .noFileOrDirectory _ code details => s!"{details} (os error {code})"
  | error => toString error

/-- Carries out effects in order; `false` when a file could not be written. -/
def carryOut : List Effect → IO Bool
  | [] => return true
  | .print line :: rest => do
    IO.println line
    carryOut rest
  | .complain line :: rest => do
    IO.eprintln line
    carryOut rest
  | .save file :: rest => do
    match ← (IO.FS.writeFile file.path file.svg).toBaseIO with
    | .ok () => carryOut rest
    | .error error =>
      IO.eprintln (Transcript.saveFailure file (writeFailure error))
      return false

/-- Answers one input. -/
def answerInput (answer : Desk → String → Reaction) (desk : Desk) (input : String) :
    IO (Except UInt32 Desk) := do
  let reaction := answer desk input
  if ← carryOut reaction.effects then return reaction.next else return .error 1

/-- Answers expressions in order, until one of them ends the run. -/
def answerExpressions (desk : Desk) : List String → IO UInt32
  | [] => return 0
  | expression :: rest => do
    match ← answerInput Desk.answerExpression desk expression with
    | .ok desk => answerExpressions desk rest
    | .error code => return code

/-- Answers the lines of the standard input, until one of them or their end ends the run. -/
partial def answerLines (stdin : IO.FS.Stream) (desk : Desk) : IO UInt32 := do
  let line ← stdin.getLine
  if line.isEmpty then return 0
  match ← answerInput Desk.answerTyped desk line with
  | .ok desk => answerLines stdin desk
  | .error code => return code

/-- A seed that is different in every run. -/
def freshSeed : IO UInt64 := do
  let bytes ← IO.getRandomBytes 8
  return bytes.foldl (fun (seed : UInt64) (byte : UInt8) => seed <<< 8 ||| byte.toUInt64) 0

end Calculator.CommandLine

open Calculator.CommandLine in
def main (arguments : List String) : IO UInt32 := do
  match requestOf arguments with
  | .version =>
    IO.println Desk.versionLine
    return 0
  | .help =>
    Transcript.usageLines.forM IO.println
    return 0
  | .misuse =>
    Transcript.usageLines.forM IO.eprintln
    return 2
  | .run seed directory command =>
    let seed ← match seed with
      | some seed => pure seed
      | none => freshSeed
    let desk := Desk.start seed directory
    match command with
    | .eval expressions => answerExpressions desk expressions
    | .repl =>
      Desk.bannerLines.forM IO.println
      answerLines (← IO.getStdin) desk
