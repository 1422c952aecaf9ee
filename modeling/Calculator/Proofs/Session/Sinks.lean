import Calculator.Proofs.Evaluation.Confinement

/-! Sinks: a session goes the same way whether its plots are recorded or drawn as pictures. -/

namespace Calculator

/-- The picture of a plot. -/
def ScatterPlot.picture (size : PictureSize) (plot : ScatterPlot) : Picture :=
  ⟨plot.title, Svg.document size plot⟩

/-- What a recording sink and a sink for pictures hold before the same plots are drawn in both. -/
structure SinkPair where
  plots : List ScatterPlot
  size : PictureSize
  pictures : List Picture

/-- The first machine has recorded the plots of which the second has pictures, and in all else they
are the same. -/
structure DrawnAlike (held : SinkPair) (first second : Machine) : Prop where
  scope : first.scope = second.scope
  random : first.random = second.random
  sinks : ∃ drawn : List ScatterPlot, first.sink = .recording (held.plots ++ drawn) ∧
    second.sink = .pictures held.size (held.pictures ++ drawn.map (·.picture held.size))

/-- Evaluations draw the same plots in a recording sink as in a sink for pictures. -/
def drawing : Simulation where
  names := Only fun _ => True
  World := SinkPair
  inner held := held
  machines := DrawnAlike
  unique := biUnique_only
  scopes := by
    intro held first second alike
    rw [alike.scope]
    exact second.scope.matches_self
  assign := by
    intro held first second name paired value other alike isPaired values
    obtain ⟨rfl, _⟩ := isPaired
    obtain ⟨rfl, _⟩ := Expr.matches_only.mp values
    exact ⟨congrArg (·.assign name value) alike.scope, alike.random, alike.sinks⟩
  push alike := ⟨congrArg Scope.push alike.scope, alike.random, alike.sinks⟩
  bindLocal := by
    intro held first second name paired number alike isPaired
    obtain ⟨rfl, _⟩ := isPaired
    exact ⟨congrArg (·.bindLocal name (.num number)) alike.scope, alike.random, alike.sinks⟩
  pop alike := ⟨congrArg Scope.pop alike.scope, alike.random, alike.sinks⟩
  draw := by
    intro held first second curve other name paired points alike curves isPaired
    obtain ⟨rfl, _⟩ := isPaired
    obtain ⟨rfl, _⟩ := Expr.matches_only.mp curves
    -- The plot joins those that were drawn, on one side as it is and on the other as a picture.
    obtain ⟨drawn, recorded, pictured⟩ := alike.sinks
    refine ⟨alike.scope, alike.random, drawn ++ [⟨curve.text, name, s!"f({name})", points⟩], ?_, ?_⟩
    · simp [recorded, Sink.draw]
    · simp [pictured, Sink.draw, ScatterPlot.picture]

/-- Machines that have drawn alike toss the same side. -/
theorem sharesTosses_drawing : drawing.SharesTosses := by
  -- The coins come from the same generator on both sides.
  intro held first second alike
  unfold Evaluation.toss
  rw [alike.random]
  generalize second.random.toss = outcome
  exact .ok rfl ⟨alike.scope, rfl, alike.sinks⟩

/-- An evaluation has the same answer on machines that have drawn alike, and they go on so. -/
theorem DrawnAlike.evaluate {held : SinkPair} {first second : Machine}
    (alike : DrawnAlike held first second) (expr : Expr) :
    (evaluate .builtin expr).answer first = (evaluate .builtin expr).answer second ∧
      DrawnAlike held ((evaluate .builtin expr).after first)
        ((evaluate .builtin expr).after second) := by
  -- Every name is its own partner, so matching answers are equal ones.
  have matching : Expr.Matches (Only fun _ => True) expr expr :=
    Expr.matches_only.mpr ⟨rfl, fun _ _ => trivial⟩
  have runs := drawing.runs_evaluate (fun _ => sharesTosses_drawing) matching held
  obtain ⟨answers, ends⟩ := runs.answer alike
  exact ⟨answers.eq_of_only, ends⟩

namespace Session

/-- The answer to an evaluation is that of the machine. -/
theorem evaluate_fst (session : Session) (expr : Expr) :
    (session.evaluate expr).1 =
      (Calculator.evaluate session.registry expr).answer session.machine := by
  -- The answer is read off the same run.
  unfold Session.evaluate Evaluation.answer
  split <;> simp_all

/-- An input that cannot be read is answered so, and nothing happens. -/
theorem interpret_of_refused {input : String} {failure : Failure}
    (refused : readExpr input = .error failure) (session : Session) :
    session.interpret input = (.error failure, session) := by
  -- What cannot be read is not evaluated.
  rw [interpret, refused]

/-- An input that is read is answered by the text of its value, or by why it has none. -/
theorem interpret_of_read {input : String} {expr : Expr} (read : readExpr input = .ok expr)
    (session : Session) :
    session.interpret input =
      (((session.evaluate expr).1.map Expr.text).mapError Failure.evaluation,
        (session.evaluate expr).2) := by
  -- What can be read is evaluated, and the value is written as a text.
  rw [interpret, read]
  simp only
  split <;> simp_all [Except.map, Except.mapError]

/-- An input with a value is answered by the text of the value. -/
theorem interpret_of_ok {session : Session} {input text : String} {expr value : Expr}
    {left : Machine} (read : readExpr input = .ok expr)
    (ran : Calculator.evaluate session.registry expr session.machine = .ok value left)
    (told : value.text = text) :
    session.interpret input = (.ok text, { session with machine := left }) := by
  -- Reading and evaluating both succeed.
  simp only [interpret, read, evaluate, ran, told]

/-- An input without a value is answered by why it has none. -/
theorem interpret_of_error {session : Session} {input : String} {expr : Expr} {error : EvalError}
    {left : Machine} (read : readExpr input = .ok expr)
    (ran : Calculator.evaluate session.registry expr session.machine = .error error left) :
    session.interpret input = (.error (.evaluation error), { session with machine := left }) := by
  -- The input is read, and its evaluation fails.
  simp only [interpret, read, evaluate, ran]

/-- The sessions have the built-in operations, and their machines have drawn alike. -/
structure Alike (held : SinkPair) (first second : Session) : Prop where
  left : first.registry = .builtin
  right : second.registry = .builtin
  machines : DrawnAlike held first.machine second.machine

namespace Alike

variable {held : SinkPair} {first second : Session}

/-- An evaluation has the same answer in both sessions. -/
theorem evaluate (alike : Alike held first second) (expr : Expr) :
    (first.evaluate expr).1 = (second.evaluate expr).1 ∧
      Alike held (first.evaluate expr).2 (second.evaluate expr).2 := by
  -- A session evaluates on its own machine, and the two machines are drawn alike.
  have evaluated := alike.machines.evaluate expr
  rw [evaluate_fst, evaluate_fst, evaluate_snd, evaluate_snd, alike.left, alike.right]
  exact ⟨evaluated.1, rfl, rfl, evaluated.2⟩

/-- An input has the same answer in both sessions. -/
theorem interpret (alike : Alike held first second) (input : String) :
    (first.interpret input).1 = (second.interpret input).1 ∧
      Alike held (first.interpret input).2 (second.interpret input).2 := by
  -- Reading has nothing to do with the session.
  cases read : readExpr input with
  | error failure =>
    rw [interpret_of_refused read, interpret_of_refused read]
    exact ⟨rfl, alike⟩
  | ok expr =>
    obtain ⟨same, still⟩ := alike.evaluate expr
    rw [interpret_of_read read, interpret_of_read read, same]
    exact ⟨rfl, still⟩

/-- Both sessions forget their variables. -/
theorem clearVariables (alike : Alike held first second) :
    Alike held first.clearVariables second.clearVariables :=
  ⟨alike.left, alike.right, rfl, alike.machines.random, alike.machines.sinks⟩

/-- The random sources of both sessions start anew. -/
theorem seed (alike : Alike held first second) (seed : UInt64) :
    Alike held (first.seed seed) (second.seed seed) :=
  ⟨alike.left, alike.right, alike.machines.scope, rfl, alike.machines.sinks⟩

end Alike

/-- What a session can be asked to do. -/
inductive Step where
  | interpret (input : String)
  | evaluate (expr : Expr)
  | clearVariables
  | seed (seed : UInt64)

/-- What a session answers. -/
inductive Reply where
  | text (result : Except Failure String)
  | value (result : Except EvalError Expr)
  | done

/-- Takes a step. -/
def perform (session : Session) : Step → Reply × Session
  | .interpret input => (.text (session.interpret input).1, (session.interpret input).2)
  | .evaluate expr => (.value (session.evaluate expr).1, (session.evaluate expr).2)
  | .clearVariables => (.done, session.clearVariables)
  | .seed seed => (.done, session.seed seed)

/-- Takes steps one after another: the answer to each, with the session that it leaves behind. -/
def trace (session : Session) : List Step → List (Reply × Session)
  | [] => []
  | step :: rest => session.perform step :: (session.perform step).2.trace rest

/-- A step has the same answer in both sessions. -/
theorem Alike.perform {held : SinkPair} {first second : Session} (alike : Alike held first second)
    (step : Step) :
    (first.perform step).1 = (second.perform step).1 ∧
      Alike held (first.perform step).2 (second.perform step).2 := by
  -- Each kind of step has its own lemma.
  cases step with
  | interpret input =>
    obtain ⟨same, still⟩ := alike.interpret input
    exact ⟨congrArg Reply.text same, still⟩
  | evaluate expr =>
    obtain ⟨same, still⟩ := alike.evaluate expr
    exact ⟨congrArg Reply.value same, still⟩
  | clearVariables => exact ⟨rfl, alike.clearVariables⟩
  | seed seed => exact ⟨rfl, alike.seed seed⟩

/-- Steps taken one after another have the same answers in both sessions. -/
theorem Alike.trace {held : SinkPair} {first second : Session} (alike : Alike held first second)
    (steps : List Step) :
    List.Forall₂ (fun left right => left.1 = right.1 ∧ Alike held left.2 right.2)
      (first.trace steps) (second.trace steps) := by
  -- By induction on the steps; the sessions stay alike after each of them.
  induction steps generalizing first second with
  | nil => exact .nil
  | cons step rest ih =>
    have performed := alike.perform step
    exact .cons performed (ih performed.2)

/--
Sessions do not depend on their sinks.

Taken from the same variables and the same random source, once with a recording sink and once with a
sink for pictures, the same steps have the same answers one by one, be they results or failures.
After each of them the variables, the random sources and the titles of the plots are the same, and
what was drawn in between is on one side a list of plots and on the other their pictures.
-/
theorem trace_ignores_sink (scope : Scope) (random : Generator) (plots : List ScatterPlot)
    (size : PictureSize) (pictures : List Picture)
    (sameTitles : plots.map (·.title) = pictures.map (·.title)) (steps : List Step) :
    List.Forall₂
      (fun (left right : Reply × Session) =>
        left.1 = right.1 ∧
        left.2.machine.scope = right.2.machine.scope ∧
        left.2.machine.random = right.2.machine.random ∧
        left.2.machine.sink.count = right.2.machine.sink.count ∧
        left.2.machine.sink.titles = right.2.machine.sink.titles ∧
        ∃ drawn : List ScatterPlot, left.2.machine.sink = .recording (plots ++ drawn) ∧
          right.2.machine.sink = .pictures size (pictures ++ drawn.map (·.picture size)))
      (trace ⟨.builtin, ⟨scope, .recording plots, random⟩⟩ steps)
      (trace ⟨.builtin, ⟨scope, .pictures size pictures, random⟩⟩ steps) := by
  have starts : Alike ⟨plots, size, pictures⟩ ⟨.builtin, ⟨scope, .recording plots, random⟩⟩
      ⟨.builtin, ⟨scope, .pictures size pictures, random⟩⟩ :=
    ⟨rfl, rfl, rfl, rfl, [], by simp, by simp⟩
  refine (starts.trace steps).imp fun left right ⟨same, alike⟩ => ?_
  obtain ⟨drawn, recorded, pictured⟩ := alike.machines.sinks
  -- A picture has the title of its plot.
  have titles : left.2.machine.sink.titles = right.2.machine.sink.titles := by
    simp [recorded, pictured, Sink.titles, sameTitles, ScatterPlot.picture]
  refine ⟨same, alike.machines.scope, alike.machines.random, ?_, titles, drawn, recorded, pictured⟩
  rw [Sink.count, Sink.count, titles]

/-- Plots inside a repetition, a failure after a plot, and a choice by a coin, with one plot held
before. -/
theorem trace_ignores_sink_repeated :
    let parabola : Expr := .op "plot"
      [.op "^" [.var "x", .num 2], .var "x", .num 0, .num 1, .num 1]
    let steps : List Step := [.evaluate (.op "repeat" [.num 2, parabola]), .seed 3,
      .evaluate (.op "+" [parabola, .op "unknown" []]), .clearVariables,
      .interpret "randomlyPick(y := 1, plot(y, x, 0, 1, 1))"]
    let recording := trace
      ⟨.builtin, ⟨.empty, .recording [⟨"x", "x", "f(x)", []⟩], .ofSeed 7⟩⟩ steps
    let pictures := trace
      ⟨.builtin, ⟨.empty, .pictures .standard [⟨"x", "<svg/>"⟩], .ofSeed 7⟩⟩ steps
    recording.map (·.1) = pictures.map (·.1) ∧
      recording.map (·.2.machine.sink.titles) = pictures.map (·.2.machine.sink.titles) := by
  -- The two traces are compared pair by pair, the replies first and then the titles.
  intro parabola steps recording pictures
  have alike := trace_ignores_sink .empty (.ofSeed 7) [⟨"x", "x", "f(x)", []⟩] .standard
    [⟨"x", "<svg/>"⟩] rfl steps
  constructor
  · rw [← List.forall₂_eq_eq_eq, List.forall₂_map_left_iff, List.forall₂_map_right_iff]
    exact alike.imp fun _ _ same => same.1
  · rw [← List.forall₂_eq_eq_eq, List.forall₂_map_left_iff, List.forall₂_map_right_iff]
    exact alike.imp fun _ _ same => same.2.2.2.2.1

end Session

end Calculator
