import Calculator.Proofs.CommandLine.Turns
import Mathlib.Data.List.DropRight

/-! Agreement of the front ends: expressions given as arguments and as lines come out the same. -/

namespace Calculator

/-- A trimmed text has nothing more to trim. -/
theorem Grammar.trim_trim (text : List Char) : trim (trim text) = trim text := by
  -- What is left is a start of the text behind its leading white space.
  obtain ⟨behind, whole⟩ : trim text <+: text.dropWhile isSpace := List.rdropWhile_prefix isSpace _
  have starts : (trim text).dropWhile isSpace = trim text := by
    cases shape : trim text with
    | nil => rfl
    | cons first rest =>
      have visible := List.head?_dropWhile_not isSpace text
      rw [← whole, shape] at visible
      exact List.dropWhile_cons_of_neg (by simpa using visible)
  have ends : (trim text).rdropWhile isSpace = trim text := List.rdropWhile_idempotent isSpace _
  calc trim (trim text) = ((trim text).dropWhile isSpace).rdropWhile isSpace := rfl
    _ = trim text := by rw [starts, ends]

/-- The text without white space at its ends. -/
def trimmed (text : String) : String := String.ofList (Grammar.trim text.toList)

/-- White space around an input does not matter. -/
theorem Session.interpret_trimmed (session : Session) (input : String) :
    session.interpret (trimmed input) = session.interpret input := by
  -- Reading trims the input anyway.
  have read : readExpr (trimmed input) = readExpr input := by
    unfold readExpr trimmed
    rw [String.toList_ofList, Grammar.trim_trim]
  unfold Session.interpret
  rw [read]

namespace Turn

/-- The result. -/
def result? (turn : Turn) : Option String := turn.outcome.toOption

/-- The line that tells the failure. -/
def complaint? (turn : Turn) : Option String :=
  match turn.outcome with
  | .ok _ => none
  | .error failure => some ("Error: " ++ failure.message)

/-- A turn that succeeds has a result and nothing to complain about. -/
theorem exists_result {turn : Turn} (succeeded : turn.succeeds = true) :
    ∃ text, turn.outcome = .ok text ∧ turn.result? = some text ∧ turn.complaint? = none := by
  -- Success means that the outcome is a text.
  obtain ⟨plots, outcome⟩ := turn
  cases outcome with
  | ok text => exact ⟨text, rfl, rfl, rfl⟩
  | error failure => cases succeeded

/-- A turn that fails has no result, and its failure is told. -/
theorem exists_failure {turn : Turn} (fails : turn.succeeds = false) :
    ∃ failure, turn.outcome = .error failure ∧ turn.result? = none ∧
      turn.complaint? = some ("Error: " ++ failure.message) := by
  -- Without success the outcome is a failure, of which the message is told.
  obtain ⟨plots, outcome⟩ := turn
  cases outcome with
  | ok text => cases fails
  | error failure => exact ⟨failure, rfl, rfl, rfl⟩

/-- Turns that all succeed have a result each. -/
theorem outcomes_of_succeed {turns : List Turn} (succeed : ∀ turn ∈ turns, turn.succeeds = true) :
    turns.map (·.outcome) = (turns.filterMap result?).map .ok := by
  -- Turn by turn, the outcome is the result.
  induction turns with
  | nil => rfl
  | cons turn rest ih =>
    obtain ⟨text, outcome, result, _⟩ := exists_result (succeed turn List.mem_cons_self)
    have later := ih fun other member => succeed other (List.mem_cons_of_mem _ member)
    simp [outcome, result, later]

/-- Up to the first failure there are the results before it. -/
theorem results_untilFailure (turns : List Turn) :
    (untilFailure turns).filterMap result? = (turns.takeWhile succeeds).filterMap result? := by
  -- The turn at which the list ends adds no result.
  induction turns with
  | nil => rfl
  | cons turn rest ih =>
    cases succeeded : turn.succeeds with
    | true =>
      rw [untilFailure_cons_of_succeeds succeeded, List.takeWhile_cons_of_pos succeeded,
        List.filterMap_cons, List.filterMap_cons, ih]
    | false =>
      obtain ⟨_, _, result, _⟩ := exists_failure succeeded
      rw [untilFailure_cons_of_fails succeeded]
      simp [succeeded, result]

/-- As many turns pass as there are exactly if none fails. -/
theorem length_takeWhile_succeeds (turns : List Turn) :
    (turns.takeWhile succeeds).length = turns.length ↔ ∀ turn ∈ turns, turn.succeeds = true := by
  -- A start of a list is as long as the list only if it is the whole of it.
  rw [← List.takeWhile_eq_self_iff]
  exact ⟨(List.takeWhile_prefix succeeds).eq_of_length, congrArg List.length⟩

/-- Without a failure all turns are taken. -/
theorem untilFailure_of_succeed {turns : List Turn}
    (succeed : ∀ turn ∈ turns, turn.succeeds = true) : untilFailure turns = turns := by
  -- Nothing is left behind the turns that succeed.
  rw [untilFailure, List.takeWhile_eq_self_iff.mpr succeed, List.dropWhile_eq_nil_iff.mpr succeed,
    List.take_nil, List.append_nil]

/-- The turn after those that pass fails, and it is the last one taken. -/
theorem untilFailure_of_passed {turns later : List Turn} {failing : Turn}
    (whole : turns = turns.takeWhile succeeds ++ failing :: later) :
    failing.succeeds = false ∧ untilFailure turns = turns.takeWhile succeeds ++ [failing] := by
  -- What comes after the turns that pass is what is dropped with them.
  have rest : turns.dropWhile succeeds = failing :: later := by
    have parts : turns.takeWhile succeeds ++ turns.dropWhile succeeds =
        turns.takeWhile succeeds ++ failing :: later := by
      rw [List.takeWhile_append_dropWhile, ← whole]
    exact List.append_cancel_left parts
  have fails := List.head?_dropWhile_not succeeds turns
  rw [rest] at fails
  exact ⟨fails, by rw [untilFailure, rest]; rfl⟩

end Turn

/-- Every input has its turn. -/
theorem Session.length_turns (session : Session) (inputs : List String) :
    (session.turns inputs).length = inputs.length := by
  -- Each input has one turn, whatever session it starts from.
  induction inputs generalizing session with
  | nil => rfl
  | cons input rest ih => simp [Session.turns, ih]

namespace CommandLine

/-- A line without a line end is split off whole. -/
theorem Transcript.splitLines_append {line : List Char} (unbroken : '\n' ∉ line)
    (rest : List Char) : splitLines (line ++ '\n' :: rest) = line :: splitLines rest := by
  -- Each character before the line end joins the line that is being split off.
  induction line with
  | nil => simp [splitLines]
  | cons char line ih =>
    have other : char ≠ '\n' := fun same => unbroken (same ▸ List.mem_cons_self)
    have later : '\n' ∉ line := fun member => unbroken (List.mem_cons_of_mem _ member)
    rw [List.cons_append, splitLines, if_neg other, ih later]

/-- Lines that are put together are split again, with an empty one at the end. -/
theorem Transcript.lines_unlines {expressions : List String}
    (unbroken : ∀ expression ∈ expressions, '\n' ∉ expression.toList) :
    lines (unlines expressions) = expressions ++ [""] := by
  -- Each expression is one line, and behind the last line end there is an empty one.
  induction expressions with
  | nil => rfl
  | cons expression rest ih =>
    have later := ih fun other member => unbroken other (List.mem_cons_of_mem _ member)
    have first : (unlines (expression :: rest)).toList =
        expression.toList ++ '\n' :: (unlines rest).toList := by
      simp [unlines_cons]
    rw [lines, first, splitLines_append (unbroken expression List.mem_cons_self), List.map_cons,
      String.ofList_toList]
    exact congrArg (expression :: ·) later

/-- The text is neither blank nor a command. -/
def IsExpression (text : String) : Prop :=
  ∃ first rest, Grammar.trim text.toList = first :: rest ∧ first ≠ ':'

/-- Nothing is taken back in the text. -/
def IsTyped (text : String) : Prop := typedLine text.toList = some text.toList

/-- Lines of expressions ask for their results. -/
theorem Line.map_of_expressions {expressions : List String}
    (plain : ∀ expression ∈ expressions, IsExpression expression)
    (typed : ∀ expression ∈ expressions, IsTyped expression) :
    expressions.map Line.of = (expressions.map trimmed).map .input := by
  -- Each expression is a line that is neither blank nor a command.
  rw [List.map_map]
  refine List.map_congr_left fun expression member => ?_
  obtain ⟨first, rest, text, other⟩ := plain expression member
  rw [Line.of_eq_input (typed expression member) text other, Function.comp_apply, trimmed, text]

/-- Inputs do not end a run. -/
theorem Line.exitCode_inputs (texts : List String) (rest : List Line) :
    Line.exitCode (texts.map .input ++ rest) = Line.exitCode rest := by
  -- Only a line that asks to leave has an exit code of its own.
  induction texts with
  | nil => rfl
  | cons text texts ih => exact ih

/-- A conversation about expressions has their turns, whatever white space is around them. -/
theorem conversation_expressions (session : Session) (expressions : List String) :
    session.conversation ((expressions.map trimmed).map .input ++ [.blank]) =
      (session.turns expressions).map .turn := by
  -- The session goes on from each line as from the expression itself.
  induction expressions generalizing session with
  | nil => rfl
  | cons expression rest ih =>
    have same : session.turn (trimmed expression) = session.turn expression := by
      rw [Session.turn, Session.turn, Session.interpret_trimmed]
    rw [List.map_cons, List.map_cons, List.cons_append, Session.conversation,
      Session.interpret_trimmed, same, ih]
    rfl

/-- The lines on turns: the notices on their plots, numbered throughout, with what is said of each
turn after those on its own. -/
def narrate (said : Turn → Option String) (directory : String) : Nat → List Turn → List String
  | _, [] => []
  | written, turn :: rest =>
    (plotFiles directory written turn.plots).map noticeLine ++ (said turn).toList ++
      narrate said directory (written + turn.plots.length) rest

section Views

variable {announce : String → Effect} {view : Effect → Option String}
  {said : Turn → Option String}

/-- Of the outcome a view shows what is said of the turn. -/
theorem filterMap_tell (told : ∀ turn, view (tell turn.outcome) = said turn) (turn : Turn) :
    [tell turn.outcome].filterMap view = (said turn).toList := by
  -- There is one effect, which shows what is said or nothing.
  cases what : said turn <;> simp [told, what]

/-- Where the announcements do not go, there is only what is said of the turns. -/
theorem filterMap_unannounced (unannounced : ∀ line, view (announce line) = none)
    (unsaved : ∀ file, view (.save file) = none)
    (told : ∀ turn, view (tell turn.outcome) = said turn)
    (directory : String) (written : Nat) (turns : List Turn) :
    (Entry.allEffects announce directory written (turns.map .turn)).filterMap view =
      turns.filterMap said := by
  -- Of each turn, neither the files nor the announcements can be seen.
  induction turns generalizing written with
  | nil => rfl
  | cons turn rest ih =>
    have first : ((Entry.turn turn).effects announce directory written).filterMap view =
        (said turn).toList := by
      simp [Entry.effects, List.filterMap_map, unannounced, unsaved, filterMap_tell told]
    rw [List.map_cons, Entry.allEffects, List.filterMap_append, first, ih]
    cases what : said turn <;> simp [what]

/-- Where the announcements go, they come before what is said of the turns. -/
theorem filterMap_announced (announced : ∀ line, view (announce line) = some line)
    (unsaved : ∀ file, view (.save file) = none)
    (told : ∀ turn, view (tell turn.outcome) = said turn)
    (directory : String) (written : Nat) (turns : List Turn) :
    (Entry.allEffects announce directory written (turns.map .turn)).filterMap view =
      narrate said directory written turns := by
  -- Of each turn, the files cannot be seen, but the announcements can.
  induction turns generalizing written with
  | nil => rfl
  | cons turn rest ih =>
    have first : ((Entry.turn turn).effects announce directory written).filterMap view =
        (plotFiles directory written turn.plots).map noticeLine ++ (said turn).toList := by
      simp [Entry.effects, List.filterMap_map, announced, unsaved, filterMap_tell told]
    rw [List.map_cons, Entry.allEffects, List.filterMap_append, first, ih, narrate]
    rfl

end Views

/-- Turns of which nothing is said leave only the notices. -/
theorem narrate_of_silent {said : Turn → Option String} {turns : List Turn}
    (silent : ∀ turn ∈ turns, said turn = none) (directory : String) (written : Nat) :
    narrate said directory written turns =
      (plotFiles directory written (turns.flatMap Turn.plots)).map noticeLine := by
  -- The notices on each turn go on from the number that those before it have reached.
  induction turns generalizing written with
  | nil => rfl
  | cons turn rest ih =>
    have later := ih fun other member => silent other (List.mem_cons_of_mem _ member)
    rw [narrate, silent turn List.mem_cons_self, later, List.flatMap_cons, plotFiles_append]
    simp

/-- The lines on turns come one turn after another. -/
theorem narrate_append (said : Turn → Option String) (directory : String) (written : Nat)
    (first second : List Turn) :
    narrate said directory written (first ++ second) =
      narrate said directory written first ++
        narrate said directory (written + (first.flatMap Turn.plots).length) second := by
  -- The turns of the second part are numbered on from the plots of the first.
  induction first generalizing written with
  | nil => simp [narrate]
  | cons turn rest ih => simp [narrate, ih, Nat.add_assoc]

/-- What is said of the last turn alone comes after all notices. -/
theorem narrate_concat {said : Turn → Option String} {turns : List Turn} {last : Turn}
    {line : String} (silent : ∀ turn ∈ turns, said turn = none) (speaks : said last = some line)
    (directory : String) (written : Nat) :
    narrate said directory written (turns ++ [last]) =
      (plotFiles directory written ((turns ++ [last]).flatMap Turn.plots)).map noticeLine ++
        [line] := by
  -- The turns before the last one leave their notices only.
  rw [narrate_append, narrate_of_silent silent, List.flatMap_append, plotFiles_append]
  simp [narrate, speaks]

/-- The first failure is the only line but notices on the turns up to it, and the first of all
failures. -/
theorem exists_failure_of_passed {turns later : List Turn} {failing : Turn}
    (whole : turns = turns.takeWhile Turn.succeeds ++ failing :: later) (directory : String) :
    ∃ failure, failing.outcome = .error failure ∧
      narrate Turn.complaint? directory 0 (Turn.untilFailure turns) =
        (plotFiles directory 0
          ((turns.takeWhile Turn.succeeds ++ [failing]).flatMap Turn.plots)).map noticeLine ++
            ["Error: " ++ failure.message] ∧
      turns.filterMap Turn.complaint? =
        ("Error: " ++ failure.message) :: later.filterMap Turn.complaint? := by
  obtain ⟨fails, taken⟩ := Turn.untilFailure_of_passed whole
  obtain ⟨failure, outcome, _, complaint⟩ := Turn.exists_failure fails
  -- The turns before it have nothing to complain about.
  have quiet : ∀ turn ∈ turns.takeWhile Turn.succeeds, turn.complaint? = none := by
    intro turn member
    obtain ⟨_, _, _, nothing⟩ := Turn.exists_result (List.mem_takeWhile_imp member)
    exact nothing
  refine ⟨failure, outcome, ?_, ?_⟩
  · rw [taken, narrate_concat quiet complaint]
  · rw [whole, List.filterMap_append, List.filterMap_eq_nil_iff.mpr quiet, List.nil_append,
      List.filterMap_cons_some complaint]

/-- The standard output is told the result of a turn, and the standard error output its failure. -/
theorem views_tell (turn : Turn) :
    (tell turn.outcome).printed? = turn.result? ∧
      (tell turn.outcome).complained? = turn.complaint? := by
  -- A result is printed and a failure is complained about, and neither does both.
  obtain ⟨plots, outcome⟩ := turn
  cases outcome <;> exact ⟨rfl, rfl⟩

/-- The files that are left behind for plots. -/
def filesLeft (directory : String) (plots : List ScatterPlot) : List (String × String) :=
  (plotFiles directory 0 plots).map fun (file : PlotFile) => (file.path, file.svg)

/-- The plots of turns are those of their entries. -/
theorem flatMap_plots_turns (turns : List Turn) :
    (turns.map Entry.turn).flatMap Entry.plots = turns.flatMap Turn.plots :=
  List.flatMap_map _ _ _

/-- Turns that are announced on the standard error output leave their results on the other one. -/
theorem extended_complaining (transcript : Transcript) (directory : String) (turns : List Turn) :
    transcript.extended (Entry.allEffects .complain directory 0 (turns.map .turn)) =
      { stdout := transcript.stdout ++ unlines (turns.filterMap Turn.result?)
        stderr := transcript.stderr ++ unlines (narrate Turn.complaint? directory 0 turns)
        files := transcript.files ++ filesLeft directory (turns.flatMap Turn.plots) } := by
  -- The notices are complaints here, so that only the results are printed.
  rw [Transcript.extended, Entry.saved_allEffects fun _ => rfl, flatMap_plots_turns,
    filterMap_unannounced (fun _ => rfl) (fun _ => rfl) fun turn => (views_tell turn).1,
    filterMap_announced (fun _ => rfl) (fun _ => rfl) fun turn => (views_tell turn).2]
  rfl

/-- Turns that are announced on the standard output leave their failures on the other one. -/
theorem extended_printing (transcript : Transcript) (directory : String) (turns : List Turn) :
    transcript.extended (Entry.allEffects .print directory 0 (turns.map .turn)) =
      { stdout := transcript.stdout ++ unlines (narrate Turn.result? directory 0 turns)
        stderr := transcript.stderr ++ unlines (turns.filterMap Turn.complaint?)
        files := transcript.files ++ filesLeft directory (turns.flatMap Turn.plots) } := by
  -- The notices are printed here, so that only the failures are complaints.
  rw [Transcript.extended, Entry.saved_allEffects fun _ => rfl, flatMap_plots_turns,
    filterMap_announced (fun _ => rfl) (fun _ => rfl) fun turn => (views_tell turn).1,
    filterMap_unannounced (fun _ => rfl) (fun _ => rfl) fun turn => (views_tell turn).2]
  rfl

section Runs

variable {refusal : String → Option String} {directory : String}

/-- What a run over arguments leaves behind. -/
theorem run_eval (writable : ∀ number, refusal (plotPath directory number) = none) (fresh : UInt64)
    (stdin : String) (seed : UInt64) (expressions : List String) :
    let turns := (recorder seed).turns expressions
    Transcript.run refusal fresh stdin (.run (some seed) directory (.eval expressions)) =
      (if turns.all Turn.succeeds then 0 else 1,
        { stdout := unlines ((turns.takeWhile Turn.succeeds).filterMap Turn.result?)
          stderr := unlines (narrate Turn.complaint? directory 0 (Turn.untilFailure turns))
          files := filesLeft directory ((Turn.untilFailure turns).flatMap Turn.plots) }) := by
  -- All effects come from the turns up to the first failure, whose results are those that passed.
  intro turns
  have ran := (Command.run_eq_entries fresh stdin (some seed) (.eval expressions)
    fun number _ => writable number).2
  have course := Course.of_answerExpression (records_recorder seed) directory expressions
  rw [ran]
  refine Prod.ext (congrArg Course.code course) ?_
  have left := extended_complaining .empty directory (Turn.untilFailure turns)
  rw [Turn.results_untilFailure] at left
  simp only [Transcript.empty, String.empty_append, List.nil_append] at left
  exact left

/-- What a run over the lines of expressions leaves behind. -/
theorem run_repl (writable : ∀ number, refusal (plotPath directory number) = none) (fresh : UInt64)
    (seed : UInt64) {expressions : List String}
    (unbroken : ∀ expression ∈ expressions, '\n' ∉ expression.toList)
    (plain : ∀ expression ∈ expressions, IsExpression expression)
    (typed : ∀ expression ∈ expressions, IsTyped expression) :
    let turns := (recorder seed).turns expressions
    Transcript.run refusal fresh (unlines expressions) (.run (some seed) directory .repl) =
      (0,
        { stdout := unlines (Desk.bannerLines ++ narrate Turn.result? directory 0 turns)
          stderr := unlines (turns.filterMap Turn.complaint?)
          files := filesLeft directory (turns.flatMap Turn.plots) }) := by
  intro turns
  -- The last line is empty, and the others are the expressions.
  have lines : (Transcript.lines (unlines expressions)).map Line.of =
      (expressions.map trimmed).map .input ++ [.blank] := by
    have blank : Line.of "" = .blank := rfl
    rw [Transcript.lines_unlines unbroken, List.map_append, Line.map_of_expressions plain typed,
      List.map_singleton, blank]
  have entries : Command.repl.entries (unlines expressions) (recorder seed) =
      turns.map .turn := by
    rw [Command.entries, lines, conversation_expressions]
  have ran := (Command.run_eq_entries fresh (unlines expressions) (some seed) .repl
    fun number _ => writable number).2
  have course := Course.of_answerTyped (records_recorder seed) directory
    (Transcript.lines (unlines expressions))
  have code : Line.exitCode ((Transcript.lines (unlines expressions)).map Line.of) = 0 := by
    rw [lines, Line.exitCode_inputs]
    rfl
  rw [ran]
  refine Prod.ext ((congrArg Course.code course).trans code) ?_
  -- The banner is all that is printed before the turns.
  have opened : Transcript.empty.extended Command.repl.opening =
      ⟨unlines Desk.bannerLines, "", []⟩ := rfl
  have left := extended_printing ⟨unlines Desk.bannerLines, "", []⟩ directory turns
  simp only [← unlines_append, String.empty_append, List.nil_append] at left
  rw [Option.getD_some, entries, Transcript.extended_append, opened]
  exact left

end Runs

/-- An argument of two minus signs, a name, an equals sign and a value is an option. -/
theorem formOf_eq_long (name : List Char) {argument value : String}
    (spelled : argument.toList = '-' :: '-' :: (name ++ '=' :: value.toList))
    (whole : '=' ∉ name) : formOf argument = .long (String.ofList name) (some value) := by
  -- The name ends at the first equals sign, and it has none itself.
  have taken : (name ++ '=' :: value.toList).takeWhile (· != '=') = name := by
    rw [List.takeWhile_append_of_pos]
    · simp
    · intro char member
      simpa using fun same : char = '=' => whole (same ▸ member)
  unfold formOf
  rw [spelled]
  split
  case h_1 short => simp at short
  case h_2 rest _ same =>
    obtain rfl : name ++ '=' :: value.toList = rest := by simpa using same
    simp [taken]
  case h_3 other same =>
    simp only [List.cons.injEq] at same
    exact absurd same.2.1.symm other
  case h_4 => simp_all

/-- A seed and a directory are taken as the options of a run. -/
theorem requestOf_options {text directory : String} {seed : UInt64}
    (spelled : Options.seedOf? text = some seed) (named : directory ≠ "") (rest : List String) :
    requestOf (["--seed=" ++ text, "--plot-dir=" ++ directory] ++ rest) =
      readFrom .top .none ⟨some seed, some directory⟩ [] rest := by
  have first : formOf ("--seed=" ++ text) = .long "seed" (some text) :=
    formOf_eq_long "seed".toList (by simp) (by decide)
  have second : formOf ("--plot-dir=" ++ directory) = .long "plot-dir" (some directory) :=
    formOf_eq_long "plot-dir".toList (by simp) (by decide)
  -- Neither option has been given before, and both have a valid value.
  have seedName : optionNamed? "seed" = some .seed := rfl
  have directoryName : optionNamed? "plot-dir" = some .directory := rfl
  rw [List.cons_append, List.cons_append, List.nil_append, requestOf, readFrom, first]
  simp only [seedName, Options.add?, Options.none, spelled, Option.map_some]
  rw [readFrom, second]
  simp only [directoryName]
  simp [Options.add?, named]

/-- With these options, lines are asked for. -/
theorem requestOf_repl {text directory : String} {seed : UInt64}
    (spelled : Options.seedOf? text = some seed) (named : directory ≠ "") :
    requestOf (["--seed=" ++ text, "--plot-dir=" ++ directory] ++ ["repl"]) =
      .run (some seed) directory .repl := by
  -- Behind the options there is only the word for the interactive mode.
  rw [requestOf_options spelled named]
  simp [readFrom, formOf, finish, Options.orElse, Options.none]

/-- With these options, expressions are asked for behind two minus signs, however they start. -/
theorem requestOf_eval {text directory : String} {seed : UInt64} {expressions : List String}
    (spelled : Options.seedOf? text = some seed) (named : directory ≠ "")
    (nonempty : expressions ≠ []) :
    requestOf (["--seed=" ++ text, "--plot-dir=" ++ directory] ++ "eval" :: "--" :: expressions) =
      .run (some seed) directory (.eval expressions) := by
  -- What stands behind the two minus signs is not looked at as options.
  rw [requestOf_options spelled named]
  simp [readFrom, formOf, finish, Options.orElse, Options.none, nonempty]

/--
The two front ends agree on expressions.

Give expressions as arguments, and the same expressions as lines that are taken as they are typed,
with the same seed and a directory in which plots can be written. Let the turns be those of all the
expressions, one after another in one session, and let those that passed be the ones before the
first that fails.

The arguments print the results that passed, one on a line, and the exit code is zero exactly if all
of them did. The lines print the same results, each after the notices on its plots, below the
banner, and go on to the end with exit code zero. Where one fails, the arguments end with an error
line on the standard error output, which tells its message; the same line is the first one there of
the other run. Where none fails, both runs leave the same files behind. The last part says which
arguments ask for the two runs; a run over arguments needs at least one of them.
-/
theorem arguments_agree_with_lines (refusal : String → Option String) (fresh seed : UInt64)
    (stdin directory : String) (expressions : List String)
    (unbroken : ∀ expression ∈ expressions, '\n' ∉ expression.toList)
    (plain : ∀ expression ∈ expressions, IsExpression expression)
    (typed : ∀ expression ∈ expressions, IsTyped expression)
    (writable : ∀ number, refusal (plotPath directory number) = none) :
    let turns := (recorder seed).turns expressions
    let passed := turns.takeWhile Turn.succeeds
    let results := passed.filterMap Turn.result?
    let byArguments :=
      Transcript.run refusal fresh stdin (.run (some seed) directory (.eval expressions))
    let byLines :=
      Transcript.run refusal fresh (unlines expressions) (.run (some seed) directory .repl)
    passed.map (·.outcome) = results.map .ok ∧
      byArguments.2.stdout = unlines results ∧
      byArguments.1 = (if passed.length = expressions.length then 0 else 1) ∧
      byLines.2.stdout = unlines (Desk.bannerLines ++ narrate Turn.result? directory 0 turns) ∧
      results <+: turns.filterMap Turn.result? ∧
      byLines.1 = 0 ∧
      (∀ failing later, turns = passed ++ failing :: later →
        ∃ failure, failing.outcome = .error failure ∧
          byArguments.2.stderr = unlines
            ((plotFiles directory 0 ((passed ++ [failing]).flatMap Turn.plots)).map noticeLine ++
              ["Error: " ++ failure.message]) ∧
          byLines.2.stderr = unlines
            (("Error: " ++ failure.message) :: later.filterMap Turn.complaint?)) ∧
      (passed.length = expressions.length → byArguments.2.files = byLines.2.files) ∧
      (∀ text, Options.seedOf? text = some seed → directory ≠ "" →
        requestOf (["--seed=" ++ text, "--plot-dir=" ++ directory] ++ ["repl"]) =
            .run (some seed) directory .repl ∧
          (expressions ≠ [] →
            requestOf (["--seed=" ++ text, "--plot-dir=" ++ directory] ++
                "eval" :: "--" :: expressions) =
              .run (some seed) directory (.eval expressions))) := by
  -- Both runs are given in full by the turns; what remains is to split these at the first failure.
  intro turns passed results byArguments byLines
  have allPass : ∀ turn ∈ passed, turn.succeeds = true := fun turn member =>
    List.mem_takeWhile_imp member
  have arguments : byArguments = _ := run_eval writable fresh stdin seed expressions
  have lines : byLines = _ := run_repl writable fresh seed unbroken plain typed
  have complete : passed.length = expressions.length ↔ ∀ turn ∈ turns, turn.succeeds = true := by
    rw [← Session.length_turns (recorder seed) expressions]
    exact Turn.length_takeWhile_succeeds turns
  refine ⟨Turn.outcomes_of_succeed allPass, ?_, ?_, ?_, ?_, ?_, ?_, ?_, ?_⟩
  · rw [arguments]
  · rw [arguments]
    simp only [complete, List.all_eq_true, turns]
  · rw [lines]
  · exact (List.takeWhile_prefix Turn.succeeds).filterMap Turn.result?
  · rw [lines]
  · intro failing later whole
    obtain ⟨failure, outcome, ending, complaints⟩ := exists_failure_of_passed whole directory
    rw [arguments, lines]
    exact ⟨failure, outcome, congrArg unlines ending, congrArg unlines complaints⟩
  · intro all
    rw [arguments, lines]
    exact congrArg (fun taken : List Turn => filesLeft directory (taken.flatMap Turn.plots))
      (Turn.untilFailure_of_succeed (complete.mp all))
  · intro text spelled named
    exact ⟨requestOf_repl spelled named, requestOf_eval spelled named⟩

/-- Expressions that use one another, with white space around, a failure and a sign in front. -/
private def failingExpressions : List String := [" x := y ", "x", "x + unknown()", "-x"]

/-- Expressions that succeed, with a plot. -/
private def plottedExpressions : List String := ["plot(x, x, 3, 3, 1)", "-x"]

/-- The session in which a variable stands for another one. -/
private def defining : Session :=
  ⟨.builtin, ⟨⟨[], ⟨[("x", .var "y")]⟩⟩, .recording [], .ofSeed 7⟩⟩

/-- The third expression fails, and the others use the value of the first. -/
private theorem turns_failingExpressions :
    (recorder 7).turns failingExpressions =
      [⟨[], .ok "y"⟩, ⟨[], .ok "y"⟩, ⟨[], .error (.evaluation (.unknownOperation "unknown"))⟩,
        ⟨[], .ok "-y"⟩] := by
  have readAssignment : readExpr " x := y " = .ok (.op ":=" [.var "x", .var "y"]) :=
    readExpr_ofList rfl rfl
  have readVariable : readExpr "x" = .ok (.var "x") := readExpr_ofList rfl rfl
  have readFailing : readExpr "x + unknown()" = .ok (.op "+" [.var "x", .op "unknown" []]) :=
    readExpr_ofList rfl rfl
  have readNegation : readExpr "-x" = .ok (.op "negate" [.var "x"]) := readExpr_ofList rfl rfl
  -- The first expression defines the variable, and no other one changes the session.
  have assignment : (recorder 7).interpret " x := y " = (.ok "y", defining) :=
    Session.interpret_of_ok readAssignment rfl rfl
  have lookup : defining.interpret "x" = (.ok "y", defining) :=
    Session.interpret_of_ok readVariable rfl rfl
  have failing : defining.interpret "x + unknown()" =
      (.error (.evaluation (.unknownOperation "unknown")), defining) :=
    Session.interpret_of_error readFailing rfl
  have negation : defining.interpret "-x" = (.ok "-y", defining) :=
    Session.interpret_of_ok readNegation rfl rfl
  simp only [failingExpressions, Session.turns, Session.turn, assignment, lookup, failing,
    negation]
  rfl

/-- All expressions have a result. -/
private theorem turns_plottedExpressions :
    (recorder 7).turns plottedExpressions = [⟨[pointPlot "x"], .ok "1"⟩, ⟨[], .ok "-x"⟩] := by
  have readPlot : readExpr "plot(x, x, 3, 3, 1)" = .ok (pointCall "x") := readExpr_ofList rfl rfl
  have readNegation : readExpr "-x" = .ok (.op "negate" [.var "x"]) := readExpr_ofList rfl rfl
  -- After the plot its variable still has no value.
  let drawn : Session := ⟨.builtin, ⟨.empty, .recording [pointPlot "x"], .ofSeed 7⟩⟩
  have plot : (recorder 7).interpret "plot(x, x, 3, 3, 1)" = (.ok "1", drawn) :=
    Session.interpret_of_ok readPlot (evaluate_pointCall rfl) rfl
  have negation : drawn.interpret "-x" = (.ok "-x", drawn) :=
    Session.interpret_of_ok readNegation rfl rfl
  simp only [plottedExpressions, Session.turns, Session.turn, plot, negation]
  rfl

/-- Both front ends tell the failure of an expression by the same line, and where all expressions
have results, both leave the file of the plot behind. -/
theorem arguments_agree_with_lines_samples :
    (let byArguments :=
        Transcript.run (fun _ => none) 0 "" (.run (some 7) "plots" (.eval failingExpressions))
      let byLines := Transcript.run (fun _ => none) 0 (unlines failingExpressions)
        (.run (some 7) "plots" .repl)
      byArguments.1 = 1 ∧ byArguments.2.stdout = "y\ny\n" ∧
      byArguments.2.stderr = "Error: Evaluation error: Unknown operation: unknown\n" ∧
      byLines.1 = 0 ∧ byLines.2.stdout = unlines (Desk.bannerLines ++ ["y", "y", "-y"]) ∧
      byLines.2.stderr = "Error: Evaluation error: Unknown operation: unknown\n") ∧
    (let byArguments :=
        Transcript.run (fun _ => none) 0 "" (.run (some 7) "plots" (.eval plottedExpressions))
      let byLines := Transcript.run (fun _ => none) 0 (unlines plottedExpressions)
        (.run (some 7) "plots" .repl)
      byArguments.1 = 0 ∧ byArguments.2.stdout = "1\n-x\n" ∧ byLines.1 = 0 ∧
      byLines.2.stdout =
        unlines (Desk.bannerLines ++ ["Plot written to plots/plot-1.svg", "1", "-x"]) ∧
      byArguments.2.files = [("plots/plot-1.svg", Svg.document .standard (pointPlot "x"))] ∧
      byArguments.2.files = byLines.2.files ∧
      requestOf (["--seed=" ++ "7", "--plot-dir=" ++ "plots"] ++
          "eval" :: "--" :: plottedExpressions) =
        .run (some 7) "plots" (.eval plottedExpressions)) := by
  have typed {expressions : List String}
      (kept : ∀ expression ∈ expressions, backspace ∉ expression.toList) :
      ∀ expression ∈ expressions, IsTyped expression :=
    fun expression member => typedLine_eq_self _ (kept expression member)
  have failingPlain : ∀ expression ∈ failingExpressions, IsExpression expression := by
    simp only [failingExpressions, List.forall_mem_cons]
    exact ⟨⟨_, _, rfl, by decide⟩, ⟨_, _, rfl, by decide⟩, ⟨_, _, rfl, by decide⟩,
      ⟨_, _, rfl, by decide⟩, by simp⟩
  have plottedPlain : ∀ expression ∈ plottedExpressions, IsExpression expression := by
    simp only [plottedExpressions, List.forall_mem_cons]
    exact ⟨⟨_, _, rfl, by decide⟩, ⟨_, _, rfl, by decide⟩, by simp⟩
  constructor
  · -- Two expressions pass, and the third one fails.
    obtain ⟨_, results, argumentsCode, lines, _, linesCode, failure, _, _⟩ :=
      arguments_agree_with_lines (fun _ => none) 0 7 "" "plots" failingExpressions (by decide)
        failingPlain (typed (by decide)) fun _ => rfl
    rw [turns_failingExpressions] at results argumentsCode lines failure
    obtain ⟨failure, failed, argumentsFailure, linesFailure⟩ := failure _ _ rfl
    cases failed
    exact ⟨argumentsCode, results, argumentsFailure, linesCode, lines, linesFailure⟩
  · -- Both expressions pass, so the runs leave the same file behind.
    obtain ⟨_, results, argumentsCode, lines, _, linesCode, _, files, requests⟩ :=
      arguments_agree_with_lines (fun _ => none) 0 7 "" "plots" plottedExpressions (by decide)
        plottedPlain (typed (by decide)) fun _ => rfl
    rw [turns_plottedExpressions] at results argumentsCode lines files
    refine ⟨argumentsCode, results, linesCode, lines, ?_, files rfl,
      (requests "7" rfl (by decide)).2 (List.cons_ne_nil _ _)⟩
    have left : (Transcript.run (fun _ => none) 0 ""
        (.run (some 7) "plots" (.eval plottedExpressions))).2.files = _ :=
      congrArg (·.2.files) (run_eval (fun _ => rfl) 0 "" 7 plottedExpressions)
    have path : plotPath "plots" 1 = "plots/plot-1.svg" := by decide
    rw [turns_plottedExpressions, Turn.untilFailure_cons_of_succeeds rfl,
      Turn.untilFailure_cons_of_succeeds rfl] at left
    simpa [Turn.untilFailure, filesLeft, plotFiles, path] using left

end CommandLine

end Calculator
