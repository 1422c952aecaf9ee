import Calculator.Session

/-! The two front ends: how each input is answered, with the plots it draws written to files. -/

namespace Calculator.CommandLine

/-- A picture on its way to a file. -/
structure PlotFile where
  path : String
  title : String
  svg : String

/-- What a front end asks of the world. -/
inductive Effect where
  /-- A line on the standard output. -/
  | print (line : String)
  /-- A line on the standard error output. -/
  | complain (line : String)
  /-- A file to write; if that fails the run ends. -/
  | save (file : PlotFile)

/-- A session with the directory for its plots and the number of plots written so far. -/
structure Desk where
  session : Session
  directory : String
  written : Nat

/-- How an input is answered: what happens, and the desk for the next input or else the exit code
of the run. -/
structure Reaction where
  effects : List Effect
  next : Except UInt32 Desk

namespace Desk

/-- A desk with the built-in operations and nothing drawn yet. -/
def start (seed : UInt64) (directory : String) : Desk :=
  ⟨.start .builtin (.pictures .standard []) (.ofSeed seed), directory, 0⟩

/-- The path of a file in a directory, with one slash between them. -/
def joinPath (directory file : String) : String :=
  if directory.toList.getLast? = some '/' then directory ++ file else directory ++ "/" ++ file

/-- The file of the picture with a given number. -/
def plotFile (desk : Desk) (number : Nat) (picture : Picture) : PlotFile :=
  ⟨joinPath desk.directory s!"plot-{number}.svg", picture.title, picture.svg⟩

/-- The files of the pictures in the sink, numbered on from those written before. -/
def files (desk : Desk) : List PlotFile :=
  desk.session.machine.sink.drawn.mapIdx fun (index : Nat) (picture : Picture) =>
    desk.plotFile (desk.written + index + 1) picture

/-- The desk with its pictures taken out and counted as written. -/
def flushed (desk : Desk) : Desk :=
  { desk with
    session := desk.session.takePlots.2
    written := desk.written + desk.files.length }

/-- Interprets an input. Its plots are written and announced before the result is told. -/
def interpret (desk : Desk) (announce : String → Effect) (input : String) :
    Except Failure String × List Effect × Desk :=
  let (result, session) := desk.session.interpret input
  let desk := { desk with session }
  let saves := desk.files.map Effect.save
  let notices := desk.files.map fun (file : PlotFile) => announce s!"Plot written to {file.path}"
  (result, saves ++ notices, desk.flushed)

/-- The line that tells a failure. -/
def failureLine (failure : Failure) : String := s!"Error: {failure.message}"

/-- Answers one of several expressions to evaluate; the first failure ends the run. -/
def answerExpression (desk : Desk) (expression : String) : Reaction :=
  match desk.interpret .complain expression with
  | (.ok text, effects, desk) => ⟨effects ++ [.print text], .ok desk⟩
  | (.error failure, effects, _) => ⟨effects ++ [.complain (failureLine failure)], .error 1⟩

/-- The lines of the variables. -/
def variableLines (desk : Desk) : List String :=
  let scope := desk.session.machine.scope
  if scope.isEmpty then ["(no variables)"]
  else scope.bindings.map fun (binding : String × Expr) => s!"{binding.1} := {binding.2.text}"

/-- The lines that explain the interactive mode. -/
def helpLines : List String :=
  ["Enter an expression, for example:",
    "  x := 3",
    "  simplify(x * y + 2 * 3)",
    "  toDouble(sin(x))",
    "  for(0, 10, i, 1, i ^ 2)",
    "  plot(x ^ 2, x, -2, 2, 0.1)",
    "",
    "Commands:",
    "  :vars   list variables",
    "  :clear  remove all variables",
    "  :quit   exit"]

/-- Answers a line that starts with a colon. -/
def answerCommand (desk : Desk) (line : String) : Reaction :=
  if line = ":quit" ∨ line = ":q" then ⟨[], .error 0⟩
  else if line = ":vars" then ⟨desk.variableLines.map .print, .ok desk⟩
  else if line = ":clear" then
    ⟨[.print "Variables cleared."], .ok { desk with session := desk.session.clearVariables }⟩
  else if line = ":help" then ⟨helpLines.map .print, .ok desk⟩
  else ⟨[.print s!"Unknown command: {line}"], .ok desk⟩

/-- Answers a line of the interactive mode. A failure does not end it. -/
def answerLine (desk : Desk) (line : String) : Reaction :=
  match Grammar.trim line.toList with
  | [] => ⟨[], .ok desk⟩
  | ':' :: rest => desk.answerCommand (String.ofList (':' :: rest))
  | text =>
    match desk.interpret .print (String.ofList text) with
    | (.ok text, effects, desk) => ⟨effects ++ [.print text], .ok desk⟩
    | (.error failure, effects, desk) =>
      ⟨effects ++ [.complain (failureLine failure)], .ok desk⟩

/-- The name and the version of the program. -/
def versionLine : String := "calculon 0.1.0"

/-- The lines that open the interactive mode. -/
def bannerLines : List String := [versionLine, "Type :help for help, :quit to exit.", ""]

end Desk

end Calculator.CommandLine
