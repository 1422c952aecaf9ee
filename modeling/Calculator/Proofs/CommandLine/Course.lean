import Calculator.CommandLine.Transcript
import Mathlib.Data.List.Basic

/-! Courses of runs: all that happens in a run, one thing after another, and what is left of it. -/

namespace Calculator.CommandLine

namespace Effect

/-- The line on the standard output. -/
def printed? : Effect → Option String
  | .print line => some line
  | .complain _ | .save _ => none

/-- The line on the standard error output. -/
def complained? : Effect → Option String
  | .complain line => some line
  | .print _ | .save _ => none

/-- The file that is written. -/
def saved? : Effect → Option PlotFile
  | .save file => some file
  | .print _ | .complain _ => none

/-- A line on the standard output is nothing else. -/
@[simp] theorem views_print (line : String) :
    (print line).printed? = some line ∧ (print line).complained? = none ∧
      (print line).saved? = none :=
  ⟨rfl, rfl, rfl⟩

/-- A line on the standard error output is nothing else. -/
@[simp] theorem views_complain (line : String) :
    (complain line).printed? = none ∧ (complain line).complained? = some line ∧
      (complain line).saved? = none :=
  ⟨rfl, rfl, rfl⟩

/-- A file that is written is nothing else. -/
@[simp] theorem views_save (file : PlotFile) :
    (save file).printed? = none ∧ (save file).complained? = none ∧
      (save file).saved? = some file :=
  ⟨rfl, rfl, rfl⟩

end Effect

/-- Lines as a text, each of them ended. -/
def unlines (lines : List String) : String := String.join (lines.map (· ++ "\n"))

/-- No lines are no text. -/
@[simp] theorem unlines_nil : unlines [] = "" := rfl

/-- A first line comes before the others. -/
theorem unlines_cons (line : String) (rest : List String) :
    unlines (line :: rest) = line ++ "\n" ++ unlines rest := by
  -- Each line is followed by its line end.
  simp [unlines, String.join_cons]

/-- The text of some lines and then others is one text after the other. -/
theorem unlines_append (first second : List String) :
    unlines (first ++ second) = unlines first ++ unlines second := by
  -- The lines of the first part are written one after another, and then the others.
  induction first with
  | nil => simp
  | cons line rest ih => simp only [List.cons_append, unlines_cons, ih, String.append_assoc]

namespace Transcript

variable {refusal : String → Option String}

/-- The transcript once effects have happened. -/
def extended (transcript : Transcript) (effects : List Effect) : Transcript where
  stdout := transcript.stdout ++ unlines (effects.filterMap Effect.printed?)
  stderr := transcript.stderr ++ unlines (effects.filterMap Effect.complained?)
  files := transcript.files ++
    (effects.filterMap Effect.saved?).map fun (file : PlotFile) => (file.path, file.svg)

/-- Nothing happens, and nothing is added. -/
@[simp] theorem extended_nil (transcript : Transcript) : transcript.extended [] = transcript := by
  -- No line and no file is added.
  simp [extended]

/-- What happens first is written first. -/
theorem extended_append (transcript : Transcript) (first second : List Effect) :
    transcript.extended (first ++ second) = (transcript.extended first).extended second := by
  -- Each of the three parts is extended by the first effects and then by the others.
  simp [extended, unlines_append, String.append_assoc]

/-- A line on the standard output is added there. -/
theorem extended_print (transcript : Transcript) (line : String) :
    transcript.extended [.print line] =
      { transcript with stdout := transcript.stdout ++ line ++ "\n" } := by
  -- A printed line reaches no other part.
  simp [extended, unlines_cons, String.append_assoc]

/-- A line on the standard error output is added there. -/
theorem extended_complain (transcript : Transcript) (line : String) :
    transcript.extended [.complain line] =
      { transcript with stderr := transcript.stderr ++ line ++ "\n" } := by
  -- A complaint reaches no other part.
  simp [extended, unlines_cons, String.append_assoc]

/-- A file is added to those written before. -/
theorem extended_save (transcript : Transcript) (file : PlotFile) :
    transcript.extended [.save file] =
      { transcript with files := transcript.files ++ [(file.path, file.svg)] } := by
  -- A file reaches neither of the two outputs.
  simp [extended]

/-- No file among the effects is refused. -/
def Succeeds (refusal : String → Option String) (effects : List Effect) : Prop :=
  ∀ file, Effect.save file ∈ effects → refusal file.path = none

/-- Effects of which no file is refused all happen. -/
theorem perform_eq_ok {effects : List Effect} (succeeds : Succeeds refusal effects)
    (transcript : Transcript) :
    perform refusal effects transcript = .ok (transcript.extended effects) := by
  -- Each effect extends the transcript by its own line or file.
  induction effects generalizing transcript with
  | nil => rw [perform, extended_nil]
  | cons effect rest ih =>
    have later : Succeeds refusal rest := fun file member =>
      succeeds file (List.mem_cons_of_mem _ member)
    have split : transcript.extended (effect :: rest) =
        (transcript.extended [effect]).extended rest := extended_append transcript [effect] rest
    rw [split]
    cases effect with
    | print line => rw [perform, ih later, extended_print]
    | complain line => rw [perform, ih later, extended_complain]
    | save file =>
      rw [perform, succeeds file List.mem_cons_self, extended_save]
      exact ih later _

end Transcript

/-- All that happens in a run, in order, and the exit code, if no file is refused. -/
structure Course where
  effects : List Effect
  code : UInt32

/-- The course of inputs that are answered in order, until one of them ends the run. -/
def Course.of (answer : Desk → String → Reaction) : List String → Desk → Course
  | [], _ => ⟨[], 0⟩
  | input :: rest, desk =>
    let reaction := answer desk input
    match reaction.next with
    | .error code => ⟨reaction.effects, code⟩
    | .ok desk =>
      let later := Course.of answer rest desk
      ⟨reaction.effects ++ later.effects, later.code⟩

namespace Transcript

/-- Inputs of which no file is refused are answered along their course. -/
theorem answerAll_eq {refusal : String → Option String} {answer : Desk → String → Reaction}
    {inputs : List String} {desk : Desk}
    (succeeds : Succeeds refusal (Course.of answer inputs desk).effects) (transcript : Transcript) :
    answerAll refusal answer inputs desk transcript =
      ((Course.of answer inputs desk).code,
        transcript.extended (Course.of answer inputs desk).effects) := by
  induction inputs generalizing desk transcript with
  | nil => simp [answerAll, Course.of]
  | cons input rest ih =>
    rw [Course.of] at succeeds ⊢
    rw [answerAll]
    -- The first input is answered either way, and the others only if it does not end the run.
    cases next : (answer desk input).next with
    | error code =>
      simp only [next] at succeeds ⊢
      rw [perform_eq_ok succeeds]
    | ok following =>
      simp only [next] at succeeds ⊢
      have first : Succeeds refusal (answer desk input).effects := fun file member =>
        succeeds file (List.mem_append_left _ member)
      have later : Succeeds refusal (Course.of answer rest following).effects :=
        fun file member => succeeds file (List.mem_append_right _ member)
      rw [perform_eq_ok first, extended_append]
      exact ih later _

end Transcript

namespace Command

/-- What happens before the first input. -/
def opening : Command → List Effect
  | .eval _ => []
  | .repl => Desk.bannerLines.map .print

/-- The course of a command at a desk. -/
def course (stdin : String) (desk : Desk) : Command → Course
  | .eval expressions => .of Desk.answerExpression expressions desk
  | .repl => .of Desk.answerTyped (Transcript.lines stdin) desk

/-- A run of which no file is refused leaves behind what happens along the course of its command. -/
theorem run_eq_course {refusal : String → Option String} {fresh : UInt64} {stdin directory : String}
    {seed : Option UInt64} {command : Command}
    (succeeds : Transcript.Succeeds refusal
      (command.course stdin (Desk.start (seed.getD fresh) directory)).effects) :
    Transcript.run refusal fresh stdin (.run seed directory command) =
      ((command.course stdin (Desk.start (seed.getD fresh) directory)).code,
        Transcript.empty.extended (command.opening ++
          (command.course stdin (Desk.start (seed.getD fresh) directory)).effects)) := by
  cases command with
  | eval expressions => exact Transcript.answerAll_eq succeeds _
  | repl =>
    -- The banner stands on the standard output before any line is read.
    have banner : { Transcript.empty with
        stdout := String.join (Desk.bannerLines.map (· ++ "\n")) } =
          Transcript.empty.extended Command.repl.opening := rfl
    simp only [Transcript.run]
    rw [banner, Transcript.extended_append]
    exact Transcript.answerAll_eq succeeds _

end Command

end Calculator.CommandLine
