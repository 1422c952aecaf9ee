import Calculator.Proofs.CommandLine.Course
import Calculator.Proofs.Evaluation.Samples
import Calculator.Proofs.Grammar.Language
import Calculator.Proofs.Plot.Document
import Calculator.Proofs.Session.Sinks
import Mathlib.Data.List.Nodup
import Mathlib.Data.List.TakeWhile

/-! Turns: what the inputs of a run draw and are told, and how their plots are numbered. -/

namespace Calculator

/-- The plots that a sink has recorded. -/
def Sink.recorded : Sink → List ScatterPlot
  | .recording plots => plots
  | .pictures _ _ => []

/-- What an input draws, and its result or failure. -/
structure Turn where
  plots : List ScatterPlot
  outcome : Except Failure String

namespace Turn

/-- The input has a result. -/
def succeeds (turn : Turn) : Bool := turn.outcome.isOk

/-- Turns up to the first one that fails. -/
def untilFailure (turns : List Turn) : List Turn :=
  turns.takeWhile succeeds ++ (turns.dropWhile succeeds).take 1

/-- A turn that succeeds is followed by the others. -/
theorem untilFailure_cons_of_succeeds {turn : Turn} (succeeded : turn.succeeds = true)
    (rest : List Turn) : untilFailure (turn :: rest) = turn :: untilFailure rest := by
  -- The turn is among those that are taken while they succeed.
  simp [untilFailure, succeeded]

/-- A turn that fails is the last one. -/
theorem untilFailure_cons_of_fails {turn : Turn} (fails : turn.succeeds = false)
    (rest : List Turn) : untilFailure (turn :: rest) = [turn] := by
  -- No turn is taken before it, and it is the first of those that are left.
  simp [untilFailure, fails]

end Turn

namespace Session

/-- The plots that a session has recorded. -/
def recorded (session : Session) : List ScatterPlot := session.machine.sink.recorded

/-- The turn of an input: of all that is recorded after it, it drew what was not there before. -/
def turn (session : Session) (input : String) : Turn :=
  ⟨(session.interpret input).2.recorded.drop session.recorded.length, (session.interpret input).1⟩

/-- The turns of inputs one after another, whether they succeed or not. -/
def turns (session : Session) : List String → List Turn
  | [] => []
  | input :: rest => session.turn input :: (session.interpret input).2.turns rest

/-- The session has the built-in operations and records its plots. -/
structure Records (session : Session) : Prop where
  registry : session.registry = .builtin
  sink : session.machine.sink = .recording session.recorded

/-- The session with pictures in place of its plots. -/
def pictured (session : Session) (pictures : List Picture) : Session :=
  ⟨session.registry, ⟨session.machine.scope, .pictures .standard pictures, session.machine.random⟩⟩

namespace Records

variable {session : Session}

/-- A session that forgets its variables goes on recording. -/
theorem clearVariables (records : session.Records) : session.clearVariables.Records :=
  ⟨records.registry, records.sink⟩

/-- An input is answered with pictures as it is with recorded plots: what it draws is added to the
record on one side, and is all that there is on the other. -/
theorem interpret (records : session.Records) (input : String) :
    (session.interpret input).2.Records ∧
      (session.interpret input).2.recorded = session.recorded ++ (session.turn input).plots ∧
      (session.pictured []).interpret input =
        ((session.turn input).outcome, (session.interpret input).2.pictured
          ((session.turn input).plots.map (·.picture .standard))) := by
  -- Both sessions start alike, with all that was recorded before on one side only.
  have starts : Alike ⟨session.recorded, .standard, []⟩ session (session.pictured []) :=
    ⟨records.registry, records.registry, rfl, rfl, [], by simpa using records.sink,
      by simp [pictured]⟩
  obtain ⟨same, ends⟩ := starts.interpret input
  obtain ⟨drawn, recording, pictures⟩ := ends.machines.sinks
  have whole : (session.interpret input).2.recorded = session.recorded ++ drawn := by
    rw [recorded, recording, Sink.recorded]
  have plots : (session.turn input).plots = drawn := by
    simp [turn, whole]
  refine ⟨⟨ends.left, ?_⟩, ?_, Prod.ext same.symm ?_⟩
  · rw [recording, whole]
  · rw [whole, plots]
  · -- Beside the sinks, the two sessions that are reached have nothing that could differ.
    have registries := ends.left.trans ends.right.symm
    have scopes := ends.machines.scope
    have randoms := ends.machines.random
    generalize ((session.pictured []).interpret input).2 = reached at *
    obtain ⟨registry, scope, sink, random⟩ := reached
    simp_all [pictured]

end Records

end Session

namespace CommandLine

/-- The path of the plot with a given number. -/
def plotPath (directory : String) (number : Nat) : String :=
  Desk.joinPath directory s!"plot-{number}.svg"

/-- Plots have different paths if their numbers are different. -/
theorem plotPath_injective (directory : String) : Function.Injective (plotPath directory) := by
  -- A path is its numeral between fixed texts, and a numeral has one value.
  intro first second same
  have numerals : first.repr = second.repr := by
    unfold plotPath Desk.joinPath at same
    split at same <;> simpa [String.append_assoc] using same
  have digits : Nat.toDigits 10 first = Nat.toDigits 10 second := by
    rw [← Nat.toList_repr, ← Nat.toList_repr, numerals]
  rw [← Nat.ofDigitChars_ten_toDigits (n := first), digits, Nat.ofDigitChars_ten_toDigits]

/-- The effect that tells how an input came out. -/
def tell : Except Failure String → Effect
  | .ok text => .print text
  | .error failure => .complain ("Error: " ++ failure.message)

/-- A failure is told by its message. -/
@[simp] theorem Desk.failureLine_eq (failure : Failure) :
    Desk.failureLine failure = "Error: " ++ failure.message := rfl

/-- The line on a file that was written. -/
def noticeLine (file : PlotFile) : String := s!"Plot written to {file.path}"

/-- The files of plots, numbered on from those written before. -/
def plotFiles (directory : String) (written : Nat) (plots : List ScatterPlot) : List PlotFile :=
  plots.mapIdx fun (index : Nat) (plot : ScatterPlot) =>
    ⟨plotPath directory (written + index + 1), plot.title, Svg.document .standard plot⟩

/-- Plots that are drawn after others have the numbers after theirs. -/
theorem plotFiles_append (directory : String) (written : Nat) (first second : List ScatterPlot) :
    plotFiles directory written (first ++ second) =
      plotFiles directory written first ++ plotFiles directory (written + first.length) second := by
  -- A plot of the second list has all of the first before it.
  simp only [plotFiles, List.mapIdx_append]
  refine congrArg (_ ++ List.mapIdx · second) (funext fun index => funext fun plot => ?_)
  have number : written + (index + first.length) + 1 = written + first.length + index + 1 := by
    omega
  rw [number]

/-- All that a run does about one input or command. -/
inductive Entry where
  /-- An input and how it came out. -/
  | turn (taken : Turn)
  /-- The lines that answer a command. -/
  | answer (lines : List String)

namespace Entry

/-- The plots that are drawn. -/
def plots : Entry → List ScatterPlot
  | .turn taken => taken.plots
  | .answer _ => []

/-- The files of the plots are written and announced before the outcome is told. -/
def effects (announce : String → Effect) (directory : String) (written : Nat) :
    Entry → List Effect
  | .turn taken =>
    let files := plotFiles directory written taken.plots
    files.map .save ++ files.map (fun (file : PlotFile) => announce (noticeLine file)) ++
      [tell taken.outcome]
  | .answer lines => lines.map .print

/-- Entries happen in order, and the numbers of their plots go on from one to the next. -/
def allEffects (announce : String → Effect) (directory : String) : Nat → List Entry → List Effect
  | _, [] => []
  | written, entry :: rest =>
    entry.effects announce directory written ++
      allEffects announce directory (written + entry.plots.length) rest

variable {announce : String → Effect}

/-- The files that entries write are those of all their plots, numbered throughout. -/
theorem saved_allEffects (silent : ∀ line, (announce line).saved? = none) (directory : String)
    (written : Nat) (entries : List Entry) :
    (allEffects announce directory written entries).filterMap Effect.saved? =
      plotFiles directory written (entries.flatMap plots) := by
  -- Each entry writes the files of its own plots, from the number that those before it have left.
  induction entries generalizing written with
  | nil => rfl
  | cons entry rest ih =>
    have first : (entry.effects announce directory written).filterMap Effect.saved? =
        plotFiles directory written entry.plots := by
      cases entry with
      | turn taken =>
        have told : (tell taken.outcome).saved? = none := by cases taken.outcome <;> rfl
        simp [effects, plots, List.filterMap_map, silent, told]
      | answer lines => simp [effects, plots, plotFiles, List.filterMap_map]
    rw [allEffects, List.filterMap_append, first, ih, List.flatMap_cons, plotFiles_append]

end Entry

/-- What a line of the interactive mode asks for. -/
inductive Line where
  /-- Nothing at all. -/
  | blank
  /-- The end of the run. -/
  | leave (code : UInt32)
  /-- An answer to a command that does not end the run. -/
  | command (word : String)
  /-- The result of an input. -/
  | input (text : String)

/-- What a line asks for as it is meant. -/
def Line.of (line : String) : Line :=
  match (typedLine line.toList).map Grammar.trim with
  | none => .leave 101
  | some [] => .blank
  | some (':' :: word) =>
    let word := String.ofList (':' :: word)
    if word = ":quit" ∨ word = ":q" then .leave 0 else .command word
  | some text => .input (String.ofList text)

/-- The exit code of a run over lines. -/
def Line.exitCode : List Line → UInt32
  | [] => 0
  | .leave code :: _ => code
  | .blank :: rest | .command _ :: rest | .input _ :: rest => Line.exitCode rest

/-- The desk beside a session that records: what is recorded there has been written here. -/
def Desk.beside (directory : String) (session : Session) : Desk :=
  ⟨session.pictured [], directory, session.recorded.length⟩

end CommandLine

namespace Session

open CommandLine

/-- The lines that answer a command. -/
def told (session : Session) (word : String) : List String :=
  ((Desk.beside "." session).answerCommand word).effects.filterMap Effect.printed?

/-- The session after a command. -/
def obeying (session : Session) (word : String) : Session :=
  if word = ":clear" then session.clearVariables else session

/-- The session after a command goes on recording what it has. -/
theorem Records.obeying {session : Session} (records : session.Records) (word : String) :
    (session.obeying word).Records ∧ (session.obeying word).recorded = session.recorded := by
  -- One word makes the session forget its variables, and no word touches the record.
  unfold Session.obeying
  split_ifs
  · exact ⟨records.clearVariables, rfl⟩
  · exact ⟨records, rfl⟩

/-- What happens in the interactive mode, line by line, until one of them ends it. -/
def conversation (session : Session) : List Line → List Entry
  | [] => []
  | .blank :: rest => session.conversation rest
  | .leave _ :: _ => []
  | .command word :: rest => .answer (session.told word) :: (session.obeying word).conversation rest
  | .input text :: rest =>
    .turn (session.turn text) :: (session.interpret text).2.conversation rest

end Session

namespace CommandLine

/-- A desk that holds the pictures of plots has their files. -/
theorem Desk.files_pictured (session : Session) (directory : String) (written : Nat)
    (plots : List ScatterPlot) :
    Desk.files ⟨session.pictured (plots.map (·.picture .standard)), directory, written⟩ =
      plotFiles directory written plots := by
  -- Each plot has its picture at the same place, with the same number.
  refine List.ext_getElem? fun index => ?_
  simp [Desk.files, Session.pictured, Sink.drawn, plotFiles, Desk.plotFile, plotPath,
    ScatterPlot.picture, Function.comp_def]

/-- A desk that gives away its pictures counts them as written. -/
theorem Desk.flushed_pictured (session : Session) (directory : String) (written : Nat)
    (plots : List ScatterPlot) :
    Desk.flushed ⟨session.pictured (plots.map (·.picture .standard)), directory, written⟩ =
      ⟨session.pictured [], directory, written + plots.length⟩ := by
  -- As many files are counted as there were plots, and the pictures are gone.
  have length : (plotFiles directory written plots).length = plots.length := List.length_mapIdx
  rw [Desk.flushed, Desk.files_pictured, length]
  rfl

/-- The desk beside a session writes the plots of an input, announces them, and stays beside it. -/
theorem Desk.interpret_beside {session : Session} (records : session.Records) (directory : String)
    (announce : String → Effect) (input : String) :
    (Desk.beside directory session).interpret announce input =
      ((session.turn input).outcome,
        (plotFiles directory session.recorded.length (session.turn input).plots).map .save ++
          (plotFiles directory session.recorded.length (session.turn input).plots).map
            (fun (file : PlotFile) => announce (noticeLine file)),
        Desk.beside directory (session.interpret input).2) := by
  -- The pictures that are taken out are those of the plots that the session has recorded meanwhile.
  obtain ⟨_, recorded, answered⟩ := records.interpret input
  have written : (session.interpret input).2.recorded.length =
      session.recorded.length + (session.turn input).plots.length := by
    rw [recorded, List.length_append]
  unfold Desk.interpret Desk.beside noticeLine
  rw [answered, written]
  dsimp only
  rw [Desk.files_pictured, Desk.flushed_pictured]

/-- A line of text that is no command asks for its result. -/
theorem Line.of_eq_input {line : String} {typed rest : List Char} {first : Char}
    (meant : typedLine line.toList = some typed) (text : Grammar.trim typed = first :: rest)
    (plain : first ≠ ':') : Line.of line = .input (String.ofList (first :: rest)) := by
  -- The text behind the white space starts neither a command nor nothing.
  rw [Line.of, meant, Option.map_some, text]
  split <;> simp_all

/-- An input is answered by its effects and its outcome, and the run goes on. -/
theorem Desk.answerLine_of_text {line : String} {first : Char} {rest : List Char}
    (text : Grammar.trim line.toList = first :: rest) (plain : first ≠ ':') (desk : Desk) :
    desk.answerLine line =
      ⟨(desk.interpret .print (String.ofList (first :: rest))).2.1 ++
          [tell (desk.interpret .print (String.ofList (first :: rest))).1],
        .ok (desk.interpret .print (String.ofList (first :: rest))).2.2⟩ := by
  -- Of the three kinds of lines this is the last, and its two outcomes are told alike.
  rw [answerLine, text]
  split
  · simp_all
  · simp_all
  · split <;> simp_all [tell]

/-- A command that does not end the run prints its answer, and the desk stays beside the session. -/
theorem Desk.answerCommand_beside (session : Session) (directory : String) {word : String}
    (stays : ¬(word = ":quit" ∨ word = ":q")) :
    (Desk.beside directory session).answerCommand word =
      ⟨(session.told word).map .print, .ok (Desk.beside directory (session.obeying word))⟩ := by
  -- An answer is a list of lines at any desk, and only one word changes the session.
  have lines (desk : Desk) : desk.answerCommand word =
      ⟨((desk.answerCommand word).effects.filterMap Effect.printed?).map .print,
        .ok (if word = ":clear" then { desk with session := desk.session.clearVariables }
          else desk)⟩ := by
    unfold Desk.answerCommand
    split_ifs <;> simp_all [List.filterMap_map]
  -- No answer tells the directory.
  have anywhere : ((Desk.beside directory session).answerCommand word).effects =
      ((Desk.beside "." session).answerCommand word).effects := by
    unfold Desk.answerCommand
    split_ifs <;> rfl
  rw [lines, anywhere]
  unfold Session.obeying
  split_ifs <;> rfl

/-- What the desk beside a session does about a line. -/
def Line.reaction (directory : String) (session : Session) : Line → Reaction
  | .blank => ⟨[], .ok (Desk.beside directory session)⟩
  | .leave code => ⟨[], .error code⟩
  | .command word =>
    ⟨(session.told word).map .print, .ok (Desk.beside directory (session.obeying word))⟩
  | .input text =>
    ⟨(Entry.turn (session.turn text)).effects .print directory session.recorded.length,
      .ok (Desk.beside directory (session.interpret text).2)⟩

/-- The desk beside a session answers a line by what it asks for. -/
theorem Desk.answerTyped_beside {session : Session} (records : session.Records) (directory : String)
    (line : String) :
    (Desk.beside directory session).answerTyped line =
      (Line.of line).reaction directory session := by
  -- The cases are those in which a line is read: cut off, blank, a command, or an input.
  rw [Desk.answerTyped]
  cases meant : typedLine line.toList with
  | none => simp [Line.of, meant, Line.reaction]
  | some typed =>
    have same : (String.ofList typed).toList = typed := String.toList_ofList
    cases text : Grammar.trim typed with
    | nil => simp [Line.of, meant, text, Line.reaction, Desk.answerLine]
    | cons first rest =>
      by_cases colon : first = ':'
      · subst colon
        simp only [Line.of, meant, Option.map_some, text, Desk.answerLine, same]
        split_ifs with leaves
        · rw [Desk.answerCommand, if_pos leaves, Line.reaction]
        · exact Desk.answerCommand_beside session directory leaves
      · rw [Line.of_eq_input meant text colon, Line.reaction]
        simp only
        rw [Desk.answerLine_of_text (by rw [same, text]) colon, Desk.interpret_beside records,
          Entry.effects]

/-- The desk beside a session answers an expression by its turn, and a failure ends the run. -/
theorem Desk.answerExpression_beside {session : Session} (records : session.Records)
    (directory expression : String) :
    (Desk.beside directory session).answerExpression expression =
      ⟨(Entry.turn (session.turn expression)).effects .complain directory session.recorded.length,
        if (session.turn expression).succeeds then
          .ok (Desk.beside directory (session.interpret expression).2)
        else .error 1⟩ := by
  -- The desk writes and announces the plots alike, and the outcome decides how the run goes on.
  rw [Desk.answerExpression, Desk.interpret_beside records]
  cases outcome : (session.turn expression).outcome <;>
    simp [Entry.effects, Turn.succeeds, outcome, tell, Except.isOk, Except.toBool]

/-- The interactive mode takes the course of the conversation. -/
theorem Course.of_answerTyped {session : Session} (records : session.Records) (directory : String)
    (lines : List String) :
    Course.of Desk.answerTyped lines (Desk.beside directory session) =
      ⟨Entry.allEffects .print directory session.recorded.length
          (session.conversation (lines.map Line.of)),
        Line.exitCode (lines.map Line.of)⟩ := by
  -- Along the lines, the desk stays beside the session.
  induction lines generalizing session with
  | nil => rfl
  | cons line rest ih =>
    rw [Course.of, Desk.answerTyped_beside records, List.map_cons]
    cases Line.of line with
    | blank =>
      simp only [Line.reaction, Session.conversation, Line.exitCode]
      rw [ih records]
      rfl
    | leave code => simp [Line.reaction, Session.conversation, Line.exitCode, Entry.allEffects]
    | command word =>
      obtain ⟨later, recorded⟩ := records.obeying word
      simp only [Line.reaction, Session.conversation, Line.exitCode, Entry.allEffects]
      rw [ih later, recorded]
      rfl
    | input text =>
      obtain ⟨later, recorded, _⟩ := records.interpret text
      simp only [Line.reaction, Session.conversation, Line.exitCode, Entry.allEffects]
      rw [ih later, recorded, List.length_append]
      rfl

/-- Expressions take the course of their turns up to the first failure. -/
theorem Course.of_answerExpression {session : Session} (records : session.Records)
    (directory : String) (expressions : List String) :
    Course.of Desk.answerExpression expressions (Desk.beside directory session) =
      ⟨Entry.allEffects .complain directory session.recorded.length
          ((Turn.untilFailure (session.turns expressions)).map .turn),
        if (session.turns expressions).all Turn.succeeds then 0 else 1⟩ := by
  -- The desk stays beside the session as long as the expressions succeed.
  induction expressions generalizing session with
  | nil => rfl
  | cons expression rest ih =>
    obtain ⟨later, recorded, _⟩ := records.interpret expression
    rw [Course.of, Desk.answerExpression_beside records, Session.turns]
    cases succeeded : (session.turn expression).succeeds with
    | true =>
      rw [Turn.untilFailure_cons_of_succeeds succeeded]
      simp only [if_true, List.map_cons, Entry.allEffects, List.all_cons, succeeded, Bool.true_and]
      rw [ih later, recorded, List.length_append]
      rfl
    | false =>
      rw [Turn.untilFailure_cons_of_fails succeeded]
      simp [Entry.allEffects, succeeded]

namespace Command

/-- Where a command announces its plots. -/
def announce : Command → String → Effect
  | .eval _ => .complain
  | .repl => .print

/-- What a command does in a session, in order. -/
def entries (stdin : String) (session : Session) : Command → List Entry
  | .eval expressions => (Turn.untilFailure (session.turns expressions)).map .turn
  | .repl => session.conversation ((Transcript.lines stdin).map Line.of)

/-- The course of a command at the desk beside a session. -/
theorem effects_course {session : Session} (records : session.Records) (stdin directory : String)
    (command : Command) :
    (command.course stdin (Desk.beside directory session)).effects =
      Entry.allEffects command.announce directory session.recorded.length
        (command.entries stdin session) := by
  -- Each command has its own course.
  cases command with
  | eval expressions => rw [course, Course.of_answerExpression records]; rfl
  | repl => rw [course, Course.of_answerTyped records]; rfl

end Command

/-- A session that starts to record. -/
def recorder (seed : UInt64) : Session := .start .builtin (.recording []) (.ofSeed seed)

/-- From the start it records. -/
theorem records_recorder (seed : UInt64) : (recorder seed).Records := ⟨rfl, rfl⟩

/-- Files that are written have one of the numbers after those written before. -/
theorem exists_number_of_mem_plotFiles {directory : String} {written : Nat}
    {plots : List ScatterPlot} {file : PlotFile}
    (member : file ∈ plotFiles directory written plots) :
    ∃ index < plots.length, file.path = plotPath directory (written + index + 1) := by
  -- A file stands at the index of its plot.
  obtain ⟨index, below, rfl⟩ := List.mem_mapIdx.mp member
  exact ⟨index, below, rfl⟩

/-- No two files of plots have the same path. -/
theorem nodup_plotFiles (directory : String) (written : Nat) (plots : List ScatterPlot) :
    ((plotFiles directory written plots).map (·.path)).Nodup := by
  -- The paths come from consecutive numbers, whatever the plots are.
  have paths : (plotFiles directory written plots).map (·.path) =
      (List.range plots.length).map fun index => plotPath directory (written + index + 1) := by
    refine List.ext_getElem (by simp [plotFiles]) fun index _ _ => ?_
    simp [plotFiles]
  rw [paths]
  refine List.Nodup.map (fun first second same => ?_) List.nodup_range
  have numbers := plotPath_injective directory same
  omega

namespace Command

/-- No announcement is a file. -/
theorem saved_announce (command : Command) (line : String) :
    (command.announce line).saved? = none := by
  -- Both commands announce their plots by lines.
  cases command <;> rfl

/-- The course of a command from the start of a run. -/
theorem effects_course_start (seed : UInt64) (stdin directory : String) (command : Command) :
    (command.course stdin (Desk.start seed directory)).effects =
      Entry.allEffects command.announce directory 0 (command.entries stdin (recorder seed)) :=
  -- A desk at its start is beside a session that has recorded nothing.
  effects_course (records_recorder seed) stdin directory command

/-- If the paths of all its plots can be written, a run leaves behind what its entries do. -/
theorem run_eq_entries {refusal : String → Option String} (fresh : UInt64) (stdin : String)
    {directory : String} (seed : Option UInt64) (command : Command)
    (writable : ∀ number,
      1 ≤ number ∧ number ≤ ((command.entries stdin (recorder (seed.getD fresh))).flatMap
        Entry.plots).length → refusal (plotPath directory number) = none) :
    let entries := command.entries stdin (recorder (seed.getD fresh))
    let effects := command.opening ++ Entry.allEffects command.announce directory 0 entries
    Transcript.Succeeds refusal effects ∧
      Transcript.run refusal fresh stdin (.run seed directory command) =
        ((command.course stdin (Desk.start (seed.getD fresh) directory)).code,
          Transcript.empty.extended effects) := by
  -- No path is refused along the course of the command.
  intro entries effects
  have course := effects_course_start (seed.getD fresh) stdin directory command
  have succeeds : Transcript.Succeeds refusal
      (Entry.allEffects command.announce directory 0 entries) := by
    intro file member
    have saved : file ∈ plotFiles directory 0 (entries.flatMap Entry.plots) := by
      rw [← Entry.saved_allEffects (saved_announce command)]
      exact List.mem_filterMap.mpr ⟨.save file, member, rfl⟩
    obtain ⟨index, below, path⟩ := exists_number_of_mem_plotFiles saved
    rw [path, Nat.zero_add]
    exact writable (index + 1) ⟨Nat.le_add_left 1 index, below⟩
  constructor
  · intro file member
    rcases List.mem_append.mp member with opens | follows
    · cases command <;> simp [opening] at opens
    · exact succeeds file follows
  · rw [run_eq_course (by rwa [course]), course]

end Command

/--
The front ends neither lose nor repeat nor misnumber a plot.

Take a run of either command in which the files of all its plots can be written. Beside it, let a
session that never gives its plots away go through the same inputs. Then the files that the run
leaves behind are those of the plots recorded there, from number one on and in drawing order, and no
path occurs twice. Each file shows its plot: its title and labels can be read there again, and its
circles are those of the plot's points.

All that happens in the course of the run, input by input and in this order, is that the files of
the plots it drew are written, then each of them is announced, and then its result or failure is
told. The last two parts say that this is the course which ends in the exit code and in what the run
leaves behind.
-/
theorem plots_written_in_order (refusal : String → Option String) (fresh : UInt64)
    (stdin directory : String) (seed : Option UInt64) (command : Command)
    (writable : ∀ number,
      1 ≤ number ∧ number ≤ ((command.entries stdin (recorder (seed.getD fresh))).flatMap
        Entry.plots).length → refusal (plotPath directory number) = none) :
    let entries := command.entries stdin (recorder (seed.getD fresh))
    let plots := entries.flatMap Entry.plots
    let course := command.course stdin (Desk.start (seed.getD fresh) directory)
    let ran := Transcript.run refusal fresh stdin (.run seed directory command)
    ran.2.files = plots.mapIdx (fun (index : Nat) (plot : ScatterPlot) =>
        (plotPath directory (index + 1), Svg.document .standard plot)) ∧
      (ran.2.files.map (·.1)).Nodup ∧
      List.Forall₂ (fun (file : String × String) (plot : ScatterPlot) =>
        Svg.Depicts .standard file.2 plot) ran.2.files plots ∧
      course.effects = Entry.allEffects command.announce directory 0 entries ∧
      ran.1 = course.code ∧
      Transcript.perform refusal (command.opening ++ course.effects) .empty = .ok ran.2 := by
  -- The files are the part of all effects that the transcript keeps apart.
  intro entries plots course ran
  obtain ⟨succeeds, runs⟩ := Command.run_eq_entries fresh stdin seed command writable
  have ordered : course.effects = Entry.allEffects command.announce directory 0 entries :=
    Command.effects_course_start (seed.getD fresh) stdin directory command
  have files : ran.2.files =
      (plotFiles directory 0 plots).map fun (file : PlotFile) => (file.path, file.svg) := by
    have opens : command.opening.filterMap Effect.saved? = [] := by
      cases command <;> simp [Command.opening, List.filterMap_map]
    simp only [ran, runs, Transcript.extended, List.filterMap_append, opens,
      Entry.saved_allEffects (Command.saved_announce command)]
    rfl
  refine ⟨?_, ?_, ?_, ordered, ?_, ?_⟩
  · rw [files]
    refine List.ext_getElem? fun index => ?_
    simp [plotFiles, Function.comp_def]
  · rw [files, List.map_map]
    exact nodup_plotFiles directory 0 plots
  · -- The document of each file is the one of the plot at its place.
    rw [files, List.forall₂_iff_get]
    refine ⟨by simp [plotFiles], fun index _ _ => ?_⟩
    simpa [plotFiles] using Svg.depicts_document .standard _
  · simp only [ran, runs, course]
  · rw [ordered, Transcript.perform_eq_ok succeeds]
    simp only [ran, runs]

section Samples

open Evaluation

/-- The range of the single place three. -/
private def atThree (name : String) : PlotRange := ⟨name, 3, 3, 1⟩

/-- The call that plots a variable at three. -/
def pointCall (name : String) : Expr :=
  .op "plot" [.var name, .var name, .num 3, .num 3, .num 1]

/-- The plot of a variable at three. -/
def pointPlot (name : String) : ScatterPlot :=
  .ofCurve (.var name) name ((atThree name).points 1 (atThree name).sampleAt)

/-- A variable can be plotted at three, wherever it has no value. -/
theorem evaluate_pointCall {name : String} {machine : Machine}
    (free : machine.scope.contains name = false) :
    evaluate .builtin (pointCall name) machine =
      .ok (.num 1) { machine with sink := machine.sink.draw (pointPlot name) } := by
  have settled : (atThree name).Settled machine.scope (.var name) (.num 3) (.num 3) (.num 1) :=
    ⟨rfl, rfl, rfl, rfl, show ¬ (3 : Float) < 3 by decide, free, show ¬ (1 : Float) ≤ 0 by decide,
      show ((3 : Float).isFinite && (3 : Float).isFinite && (1 : Float).isFinite) = true by decide⟩
  have measures :
      (atThree name).Measures machine.scope (.var name) 1 (atThree name).sampleAt := by
    intro index _
    exact (toNumber_var_iff (Scope.get?_bindLocal _ name _)).2 rfl
  -- Where the samples are does not depend on the name.
  have rounds : ∀ index < 1, (atThree "").progression.HasRound ((atThree "").sampleAt index) := by
    decide
  have reaches : ¬ (atThree "").progression.isBefore ((atThree "").sampleAt 1) = true := by decide
  have completes : (atThree name).Completes machine.scope (.var name) 1 :=
    PlotRange.completes_of_measures rounds reaches measures
  exact evaluate_plot settled completes measures

/-- Both operands of a sum are evaluated, the second one where the first one has led. -/
private theorem evaluate_sum {first second value : Expr} {machine between : Machine}
    (evaluated : evaluate .builtin first machine = .ok value between) :
    evaluate .builtin (.op "+" [first, second]) machine =
      (evaluate .builtin second >>= fun other =>
        Evaluation.ofExcept (fold .symbolic "+" [value, other])) between := by
  -- The first operand is evaluated already, and what is left is the second one and the fold.
  change (Argument.evaluateAll (arguments .builtin [first, second]) >>= _) machine = _
  simp only [arguments, Argument.evaluateAll, bind, EStateM.bind, evaluated]
  cases evaluate .builtin second between <;> rfl

/-- A session that has drawn plots and has no variables. -/
private def drew (plots : List ScatterPlot) : Session :=
  ⟨.builtin, ⟨.empty, .recording plots, .ofSeed 7⟩⟩

/-- Two plots of one input, one of an input that fails, and one that is not drawn any more. -/
private def plottingInputs : List String :=
  ["plot(x, x, 3, 3, 1) + plot(y, y, 3, 3, 1)", "plot(z, z, 3, 3, 1) + unknown()",
    "plot(w, w, 3, 3, 1)"]

/-- The first two inputs draw three plots, and the second one fails. -/
private theorem turns_plottingInputs :
    (recorder 7).turns plottingInputs =
      [⟨[pointPlot "x", pointPlot "y"], .ok "2"⟩,
        ⟨[pointPlot "z"], .error (.evaluation (.unknownOperation "unknown"))⟩,
        (drew [pointPlot "x", pointPlot "y", pointPlot "z"]).turn "plot(w, w, 3, 3, 1)"] := by
  -- Each text is read once, and the evaluation draws its plots from left to right.
  have readTwo : readExpr "plot(x, x, 3, 3, 1) + plot(y, y, 3, 3, 1)" =
      .ok (.op "+" [pointCall "x", pointCall "y"]) :=
    readExpr_ofList rfl rfl
  have readFailing : readExpr "plot(z, z, 3, 3, 1) + unknown()" =
      .ok (.op "+" [pointCall "z", .op "unknown" []]) :=
    readExpr_ofList rfl rfl
  have two : (drew []).interpret "plot(x, x, 3, 3, 1) + plot(y, y, 3, 3, 1)" =
      (.ok "2", drew [pointPlot "x", pointPlot "y"]) :=
    Session.interpret_of_ok readTwo
      ((evaluate_sum (evaluate_pointCall rfl)).trans (bind_eq_of_ok (evaluate_pointCall rfl))) rfl
  have failing : (drew [pointPlot "x", pointPlot "y"]).interpret
      "plot(z, z, 3, 3, 1) + unknown()" =
      (.error (.evaluation (.unknownOperation "unknown")),
        drew [pointPlot "x", pointPlot "y", pointPlot "z"]) :=
    Session.interpret_of_error readFailing
      ((evaluate_sum (evaluate_pointCall rfl)).trans (bind_eq_of_error rfl))
  change (drew []).turns plottingInputs = _
  rw [plottingInputs, Session.turns, Session.turns, Session.turns, Session.turns, Session.turn, two,
    Session.turn, failing]
  rfl

end Samples

/-- Refuses a path that no plot has. -/
private def reserved (path : String) : Option String :=
  if path = plotPath "plots" 0 then some "reserved" else none

/-- The file of the plot of a variable at three. -/
private def pointFile (path name : String) : Effect :=
  .save ⟨path, (pointPlot name).title, Svg.document .standard (pointPlot name)⟩

/-- All that happens about the inputs, in order. -/
private def plottingEffects : List Effect :=
  [pointFile "plots/plot-1.svg" "x", pointFile "plots/plot-2.svg" "y",
    .complain "Plot written to plots/plot-1.svg", .complain "Plot written to plots/plot-2.svg",
    .print "2", pointFile "plots/plot-3.svg" "z", .complain "Plot written to plots/plot-3.svg",
    .complain "Error: Evaluation error: Unknown operation: unknown"]

/-- The effects are those of the two inputs that are executed. -/
private theorem allEffects_plottingInputs :
    Entry.allEffects .complain "plots" 0
      [.turn ⟨[pointPlot "x", pointPlot "y"], .ok "2"⟩,
        .turn ⟨[pointPlot "z"], .error (.evaluation (.unknownOperation "unknown"))⟩] =
      plottingEffects := by
  -- Of all texts, only the paths and the message have to be computed.
  have notice (file : PlotFile) : noticeLine file = "Plot written to " ++ file.path := rfl
  have first : plotPath "plots" 1 = "plots/plot-1.svg" := by decide
  have second : plotPath "plots" 2 = "plots/plot-2.svg" := by decide
  have third : plotPath "plots" 3 = "plots/plot-3.svg" := by decide
  have message : (Failure.evaluation (.unknownOperation "unknown")).message =
      "Evaluation error: Unknown operation: unknown" := rfl
  simp [Entry.allEffects, Entry.effects, Entry.plots, plotFiles, tell, plottingEffects, pointFile,
    notice, first, second, third, message]

/-- Plots are written in order up to the input that fails, whatever happens to other paths. -/
theorem plots_written_in_order_failing :
    let plots := [pointPlot "x", pointPlot "y", pointPlot "z"]
    let course := (Command.eval plottingInputs).course "" (Desk.start 7 "plots")
    let ran := Transcript.run reserved 0 "" (.run (some 7) "plots" (.eval plottingInputs))
    ran.2.files = plots.mapIdx (fun (index : Nat) (plot : ScatterPlot) =>
        (plotPath "plots" (index + 1), Svg.document .standard plot)) ∧
      (ran.2.files.map (·.1)).Nodup ∧
      List.Forall₂ (fun (file : String × String) (plot : ScatterPlot) =>
        Svg.Depicts .standard file.2 plot) ran.2.files plots ∧
      course.effects = plottingEffects ∧ ran.1 = 1 ∧
      Transcript.perform reserved course.effects .empty = .ok ran.2 := by
  have turns := turns_plottingInputs
  -- The third input is not executed, as the second one fails.
  have entries : (Command.eval plottingInputs).entries "" (recorder 7) =
      [.turn ⟨[pointPlot "x", pointPlot "y"], .ok "2"⟩,
        .turn ⟨[pointPlot "z"], .error (.evaluation (.unknownOperation "unknown"))⟩] := by
    rw [Command.entries, turns, Turn.untilFailure_cons_of_succeeds rfl,
      Turn.untilFailure_cons_of_fails rfl]
    rfl
  have drawn : ((Command.eval plottingInputs).entries "" (recorder 7)).flatMap Entry.plots =
      [pointPlot "x", pointPlot "y", pointPlot "z"] := by
    rw [entries]
    rfl
  have code : ((Command.eval plottingInputs).course "" (Desk.start 7 "plots")).code = 1 := by
    have ends := congrArg Course.code
      (Course.of_answerExpression (records_recorder 7) "plots" plottingInputs)
    rw [turns] at ends
    exact ends.trans (by simp [Turn.succeeds, Except.isOk, Except.toBool])
  have writable (number : Nat) (positive : 1 ≤ number) :
      reserved (plotPath "plots" number) = none := by
    refine if_neg fun same => ?_
    have zero := plotPath_injective "plots" same
    omega
  have opening : (Command.eval plottingInputs).opening = [] := rfl
  obtain ⟨files, distinct, depicted, ordered, ended, performed⟩ :=
    plots_written_in_order reserved 0 "" "plots" (some 7) (.eval plottingInputs)
      fun number bounds => writable number bounds.1
  rw [Option.getD_some, drawn] at files depicted
  rw [Option.getD_some, entries] at ordered
  rw [opening, List.nil_append] at performed
  exact ⟨files, distinct, depicted, ordered.trans allEffects_plottingInputs, ended.trans code,
    performed⟩

end CommandLine

end Calculator
