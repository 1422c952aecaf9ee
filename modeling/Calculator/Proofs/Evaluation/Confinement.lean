import Calculator.Proofs.Evaluation.Simulation

/-! Confinement: evaluation reads and changes only the bindings that it can reach. -/

namespace Calculator

variable {reachable : String → Prop}

namespace Frame

/-- The frames have the same values under the reachable names. -/
def Agrees (reachable : String → Prop) (frame other : Frame) : Prop :=
  ∀ name, reachable name → frame.get? name = other.get? name

/-- Values of reachable names mention reachable names only. -/
def Closed (reachable : String → Prop) (frame : Frame) : Prop :=
  ∀ name value, reachable name → frame.get? name = some value →
    ∀ used, value.Mentions used → reachable used

/-- The frame has the values that it had under all other names. -/
def Untouched (reachable : String → Prop) (before after : Frame) : Prop :=
  ∀ name, ¬ reachable name → after.get? name = before.get? name

/-- A frame is closed if the values of its entries mention reachable names only. -/
theorem closed_of_entries {frame : Frame}
    (mentioned : ∀ entry ∈ frame.entries, reachable entry.1 →
      ∀ used, entry.2.Mentions used → reachable used) : frame.Closed reachable := by
  -- A value that is found belongs to an entry of the frame.
  intro name value isReachable found
  obtain ⟨_, _, entries, _⟩ := List.lookup_eq_some_iff.mp found
  exact mentioned (name, value) (by simp [entries]) isReachable

/-- Frames match on the reachable names exactly when they agree there and are closed. -/
theorem matches_only {frame other : Frame} :
    frame.Matches (Only reachable) other ↔
      frame.Agrees reachable other ∧ frame.Closed reachable ∧ other.Closed reachable := by
  constructor
  · intro matching
    -- Matching values are the same value, which mentions reachable names only.
    have each (name : String) (isReachable : reachable name) :
        frame.get? name = other.get? name ∧ ∀ value, frame.get? name = some value →
          ∀ used, value.Mentions used → reachable used := by
      have values := matching name name ⟨rfl, isReachable⟩
      generalize frame.get? name = left at values ⊢
      generalize other.get? name = right at values ⊢
      cases values with
      | none => simp
      | some values =>
        obtain ⟨rfl, mentioned⟩ := Expr.matches_only.mp values
        exact ⟨rfl, by simpa using mentioned⟩
    refine ⟨fun name isReachable => (each name isReachable).1,
      fun name value isReachable => (each name isReachable).2 value, ?_⟩
    intro name value isReachable found
    rw [← (each name isReachable).1] at found
    exact (each name isReachable).2 value found
  · rintro ⟨agrees, closed, _⟩ name paired ⟨rfl, isReachable⟩
    rw [← agrees name isReachable]
    cases found : frame.get? name with
    | none => exact .none
    | some value => exact .some (Expr.matches_only.mpr ⟨rfl, closed name value isReachable found⟩)

/-- Stacks match on the reachable names exactly when they agree there and are closed. -/
theorem forall₂_matches_only {frames others : List Frame} :
    List.Forall₂ (Matches (Only reachable)) frames others ↔
      List.Forall₂ (Agrees reachable) frames others ∧
        ∀ frame ∈ frames ++ others, frame.Closed reachable := by
  -- The frames are compared one by one, from the inside out.
  induction frames generalizing others with
  | nil => cases others <;> simp
  | cons frame outer ih =>
    cases others with
    | nil => simp
    | cons other outside =>
      simp only [List.forall₂_cons, matches_only, ih, List.forall_mem_append, List.forall_mem_cons]
      tauto

/-- A frame is untouched by nothing. -/
theorem Untouched.refl (frame : Frame) : Untouched reachable frame frame := fun _ _ => rfl

/-- A frame that is untouched twice is untouched. -/
theorem Untouched.trans {first second third : Frame} (left : Untouched reachable first second)
    (right : Untouched reachable second third) : Untouched reachable first third :=
  fun name outside => (right name outside).trans (left name outside)

/-- A value under a reachable name leaves all other names untouched. -/
theorem untouched_insert (frame : Frame) {name : String} (isReachable : reachable name)
    (value : Expr) : Untouched reachable frame (frame.insert name value) := by
  -- A name that is not reachable is not the one that is bound.
  intro other outside
  rw [get?_insert, if_neg]
  rintro rfl
  exact outside isReachable

end Frame

namespace Scope

/-- Frame by frame, the bindings of all but the reachable names are as before. -/
structure Untouched (reachable : String → Prop) (before after : Scope) : Prop where
  locals : List.Forall₂ (Frame.Untouched reachable) before.locals after.locals
  globals : Frame.Untouched reachable before.globals after.globals

namespace Untouched

variable {before after scope : Scope}

/-- Doing nothing touches nothing. -/
theorem refl (scope : Scope) : Untouched reachable scope scope :=
  ⟨List.forall₂_same.mpr fun frame _ => .refl frame, .refl scope.globals⟩

/-- Two steps that touch nothing else touch nothing else together. -/
theorem trans (left : Untouched reachable before scope) (right : Untouched reachable scope after) :
    Untouched reachable before after :=
  ⟨forall₂_trans Frame.Untouched.trans left.locals right.locals, left.globals.trans right.globals⟩

/-- An assignment to a reachable name touches nothing else. -/
theorem assign {name : String} (isReachable : reachable name) (scope : Scope) (value : Expr) :
    Untouched reachable scope (scope.assign name value) := by
  -- The innermost frame that binds the name is changed, or else the global one.
  rw [Scope.assign, modifyBinder]
  split
  · next found =>
    exact ⟨forall₂_of_modifyBinder? found Frame.Untouched.refl
      fun frame _ => frame.untouched_insert isReachable value, .refl _⟩
  · exact ⟨(refl scope).locals, scope.globals.untouched_insert isReachable value⟩

/-- Binding a reachable name touches nothing else. -/
theorem bindLocal {name : String} (isReachable : reachable name) (scope : Scope) (value : Expr) :
    Untouched reachable scope (scope.bindLocal name value) := by
  -- The innermost frame is changed, which is the global one if there is no other.
  obtain ⟨locals, globals⟩ := scope
  cases locals with
  | nil => exact ⟨.nil, globals.untouched_insert isReachable value⟩
  | cons frame outer =>
    exact ⟨.cons (frame.untouched_insert isReachable value) (refl ⟨outer, globals⟩).locals,
      .refl globals⟩

/-- A frame is entered. -/
theorem push (untouched : Untouched reachable before after) :
    Untouched reachable before.push after.push :=
  ⟨.cons (.refl .empty) untouched.locals, untouched.globals⟩

/-- The frame that was entered is left. -/
theorem pop (untouched : Untouched reachable before.push after) :
    Untouched reachable before after.pop := by
  -- The frame that is left was not there before.
  obtain ⟨locals, globals⟩ := untouched
  refine ⟨?_, globals⟩
  rw [Scope.pop]
  generalize after.locals = left at locals ⊢
  cases locals with
  | cons _ outer => exact outer

end Untouched

end Scope

/-- Variables match themselves under all names. -/
theorem Scope.matches_self (scope : Scope) : scope.Matches (Only fun _ => True) scope := by
  -- All names are reachable, so there is nothing to be mentioned outside of them.
  refine .of_frames (Frame.forall₂_matches_only.mpr ⟨?_, fun _ _ _ _ _ _ _ _ => trivial⟩)
  exact List.forall₂_same.mpr fun _ _ _ _ => rfl

/-- Two machines that cannot be told apart through the reachable names, each with its own other
bindings untouched since the variables before. -/
structure Confined (reachable : String → Prop) (before : Scope × Scope) (first second : Machine) :
    Prop where
  scopes : first.scope.Matches (Only reachable) second.scope
  sink : first.sink = second.sink
  random : first.random = second.random
  left : before.1.Untouched reachable first.scope
  right : before.2.Untouched reachable second.scope

/-- Every name is paired with itself at most. -/
theorem biUnique_only : Relator.BiUnique (Only reachable) :=
  ⟨fun _ _ _ left right => left.1.trans right.1.symm,
    fun _ _ _ left right => left.1.symm.trans right.1⟩

/-- Evaluations confined to reachable names keep machines indistinguishable through these. -/
def confinement (reachable : String → Prop) : Simulation where
  names := Only reachable
  World := Scope × Scope
  inner before := (before.1.push, before.2.push)
  machines := Confined reachable
  unique := biUnique_only
  scopes confined := confined.scopes
  assign := by
    intro before first second name paired value other confined isPaired values
    obtain ⟨rfl, isReachable⟩ := isPaired
    exact ⟨confined.scopes.assign biUnique_only ⟨rfl, isReachable⟩ values, confined.sink,
      confined.random, confined.left.trans (.assign isReachable _ value),
      confined.right.trans (.assign isReachable _ other)⟩
  push confined := ⟨confined.scopes.push, confined.sink, confined.random, confined.left.push,
    confined.right.push⟩
  bindLocal := by
    intro before first second name paired number confined isPaired
    obtain ⟨rfl, isReachable⟩ := isPaired
    exact ⟨confined.scopes.bindLocal biUnique_only ⟨rfl, isReachable⟩ (.num number), confined.sink,
      confined.random, confined.left.trans (.bindLocal isReachable _ _),
      confined.right.trans (.bindLocal isReachable _ _)⟩
  pop confined := ⟨confined.scopes.pop, confined.sink, confined.random, confined.left.pop,
    confined.right.pop⟩
  draw := by
    intro before first second curve other name paired points confined curves isPaired
    -- Matching curves are the same curve, so they are drawn under the same captions.
    obtain ⟨rfl, _⟩ := Expr.matches_only.mp curves
    obtain ⟨rfl, _⟩ := isPaired
    exact ⟨confined.scopes, congrArg (Sink.draw _) confined.sink, confined.random, confined.left,
      confined.right⟩

/-- Indistinguishable machines toss the same side. -/
theorem sharesTosses_confinement : (confinement reachable).SharesTosses := by
  intro before first second confined
  -- The generators are the same, so they give the same side and the same next generator.
  unfold Evaluation.toss
  rw [confined.random]
  generalize second.random.toss = outcome
  exact .ok rfl ⟨confined.scopes, confined.sink, rfl, confined.left, confined.right⟩

/-- Answers that match on reachable names are the same. -/
theorem AnswersMatch.eq_of_only {answer other : Except EvalError Expr}
    (answers : AnswersMatch (Only reachable) (Expr.Matches (Only reachable)) answer other) :
    answer = other := by
  -- Values and errors with reachable names only are matched by themselves.
  cases answers with
  | ok values => rw [(Expr.matches_only.mp values).1]
  | error causes => rw [causes.eq_of_only]

/--
Evaluation depends only on, and changes only, the bindings that it can reach.

Two machines whose frames agree on the reachable names, with closed bindings there, give the same
answer, be it a result or a failure, the same plots and the same random numbers. Afterwards they
still agree and are still closed, and in each of them every other binding is as it was.
-/
theorem evaluate_confined (reachable : String → Prop) (expr : Expr)
    (mentioned : ∀ name, expr.Mentions name → reachable name) (first second : Machine)
    (agree : List.Forall₂ (Frame.Agrees reachable) first.scope.frames second.scope.frames)
    (closed : ∀ frame ∈ first.scope.frames ++ second.scope.frames, frame.Closed reachable)
    (sameSink : first.sink = second.sink) (sameRandom : first.random = second.random) :
    let left := (evaluate .builtin expr).after first
    let right := (evaluate .builtin expr).after second
    (evaluate .builtin expr).answer first = (evaluate .builtin expr).answer second ∧
      left.sink = right.sink ∧ left.random = right.random ∧
      List.Forall₂ (Frame.Agrees reachable) left.scope.frames right.scope.frames ∧
      (∀ frame ∈ left.scope.frames ++ right.scope.frames, frame.Closed reachable) ∧
      List.Forall₂ (Frame.Untouched reachable) first.scope.frames left.scope.frames ∧
      List.Forall₂ (Frame.Untouched reachable) second.scope.frames right.scope.frames := by
  -- The two runs are one simulation, whose names are the reachable ones.
  intro left right
  have starts : (confinement reachable).machines (first.scope, second.scope) first second :=
    { scopes := .of_frames (Frame.forall₂_matches_only.mpr ⟨agree, closed⟩)
      sink := sameSink
      random := sameRandom
      left := .refl first.scope
      right := .refl second.scope }
  have runs := (confinement reachable).runs_evaluate (fun _ => sharesTosses_confinement)
    (Expr.matches_only.mpr ⟨rfl, mentioned⟩) (first.scope, second.scope)
  obtain ⟨answers, ends⟩ := runs.answer starts
  obtain ⟨stillAgree, stillClosed⟩ := Frame.forall₂_matches_only.mp ends.scopes.frames
  exact ⟨answers.eq_of_only, ends.sink, ends.random, stillAgree, stillClosed,
    Scope.forall₂_frames.mpr ⟨ends.left.locals, ends.left.globals⟩,
    Scope.forall₂_frames.mpr ⟨ends.right.locals, ends.right.globals⟩⟩

/-- A machine with variables that lead from one to the next, and with others aside. -/
private def chainMachine (aside : Expr) : Machine :=
  ⟨⟨[⟨[("x", .op "+" [.var "y", .num 1]), ("aside", .num 3)]⟩],
    ⟨[("y", .num 2), ("aside", aside)]⟩⟩, .recording [], .ofSeed 7⟩

/-- A sum that assigns to a chain of variables has the same answer whatever is bound aside, and
leaves that alone. -/
theorem evaluate_confined_chain :
    let sum : Expr := .op "for" [.num 0, .var "x", .var "i", .num 1, .assign "y" (.var "i")]
    let answer := (evaluate .builtin sum).answer
    answer (chainMachine (.num 5)) = answer (chainMachine (.var "aside")) ∧
      ((evaluate .builtin sum).after (chainMachine (.num 5))).scope.globals.get? "aside" =
        some (.num 5) := by
  intro sum answer
  have mentioned : ∀ name, sum.Mentions name → name ≠ "aside" := by
    simp [sum, Expr.assign, eq_comm]
  have agree : List.Forall₂ (Frame.Agrees (· ≠ "aside")) (chainMachine (.num 5)).scope.frames
      (chainMachine (.var "aside")).scope.frames := by
    refine .cons (fun _ _ => rfl) (.cons (fun name outside => ?_) .nil)
    have other : (name == "aside") = false := beq_false_of_ne outside
    simp [chainMachine, Frame.get?, List.lookup_cons, other]
  -- Of the entries that are not aside, only that of `x` has a variable in its value.
  have clean (aside : Expr) : ∀ frame ∈ (chainMachine aside).scope.frames,
      frame.Closed (· ≠ "aside") := by
    simp only [chainMachine, Scope.frames, List.cons_append, List.nil_append, List.forall_mem_cons,
      List.not_mem_nil, IsEmpty.forall_iff, implies_true, and_true]
    constructor
    · exact Frame.closed_of_entries (by simp [eq_comm])
    · exact Frame.closed_of_entries (by simp)
  have closed := List.forall_mem_append.mpr ⟨clean (.num 5), clean (.var "aside")⟩
  obtain ⟨same, _, _, _, _, untouched, _⟩ := evaluate_confined (· ≠ "aside") sum mentioned
    (chainMachine (.num 5)) (chainMachine (.var "aside")) agree closed rfl rfl
  exact ⟨same, (Scope.forall₂_frames.mp untouched).2 "aside" (by simp)⟩

end Calculator
