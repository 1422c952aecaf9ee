import Calculator.Proofs.Expr.Parts
import Calculator.Simplification
import Mathlib.Data.List.Forall2

/-! Normal forms: what simplification leaves has no bound variable and nothing to fold. -/

namespace Calculator

section Fallible

variable {α β : Type}

/-- One computation after another succeeds exactly when both do. -/
theorem except_bind_eq_ok {first : Except EvalError α} {next : α → Except EvalError β}
    {result : β} :
    (first >>= next) = .ok result ↔ ∃ value, first = .ok value ∧ next value = .ok result := by
  -- What fails first fails as a whole.
  cases first with
  | error cause => simp [bind, Except.bind]
  | ok value => simp [bind, Except.bind]

/-- Computing on every element succeeds exactly when each result comes from its element. -/
theorem mapM_eq_ok {compute : α → Except EvalError β} {inputs : List α} {results : List β} :
    inputs.mapM compute = .ok results ↔
      List.Forall₂ (fun input result => compute input = .ok result) inputs results := by
  -- The first result and the others are taken apart on both sides.
  induction inputs generalizing results with
  | nil => simp [pure, Except.pure, eq_comm]
  | cons input rest ih =>
    simp only [List.mapM_cons, except_bind_eq_ok, List.forall₂_cons_left_iff, pure, Except.pure,
      Except.ok.injEq, ih]
    grind

/-- A relation between paired elements gives way to one that it implies on these elements. -/
theorem forall₂_imp_of_mem {related implied : α → β → Prop} {inputs : List α} {results : List β}
    (pairs : List.Forall₂ related inputs results)
    (implies : ∀ input ∈ inputs, ∀ result, related input result → implied input result) :
    List.Forall₂ implied inputs results := by
  -- By induction on the pairs.
  induction pairs with
  | nil => exact .nil
  | cons head _ ih =>
    simp only [List.forall_mem_cons] at implies
    exact .cons (implies.1 _ head) (ih implies.2)

/-- Computations that agree on paired elements agree on the lists, failures included. -/
theorem mapM_eq_of_forall₂ {γ : Type} {compute : α → Except EvalError β}
    {other : γ → Except EvalError β} {inputs : List α} {others : List γ}
    (agree : List.Forall₂ (fun input paired => compute input = other paired) inputs others) :
    inputs.mapM compute = others.mapM other := by
  -- By induction on the pairs; the computations agree one after another.
  induction agree with
  | nil => rfl
  | cons head _ ih => rw [List.mapM_cons, List.mapM_cons, head, ih]

/-- Computations that agree on every element agree on the list. -/
theorem mapM_congr_of_mem {compute other : α → Except EvalError β} {inputs : List α}
    (agree : ∀ input ∈ inputs, compute input = other input) :
    inputs.mapM compute = inputs.mapM other :=
  mapM_eq_of_forall₂ (List.forall₂_same.mpr agree)

/-- Computing on every element fails only as it does on one of them. -/
theorem mapM_eq_error {compute : α → Except EvalError β} {inputs : List α} {cause : EvalError}
    (fails : inputs.mapM compute = .error cause) :
    ∃ input ∈ inputs, compute input = .error cause := by
  -- The first element that fails is the one; the elements after it are never reached.
  induction inputs with
  | nil => cases fails
  | cons input rest ih =>
    rw [List.mapM_cons] at fails
    cases computed : compute input with
    | error found =>
      rw [computed] at fails
      cases fails
      exact ⟨input, List.mem_cons_self, computed⟩
    | ok result =>
      rw [computed] at fails
      cases continued : rest.mapM compute with
      | error found =>
        rw [continued] at fails
        cases fails
        obtain ⟨later, member, blamed⟩ := ih continued
        exact ⟨later, List.mem_cons_of_mem _ member, blamed⟩
      | ok results =>
        rw [continued] at fails
        cases fails

end Fallible

/-- Expressions are all numbers exactly when they are the numbers found. -/
theorem Expr.numbers?_eq_some {operands : List Expr} {values : List Float} :
    Expr.numbers? operands = some values ↔ operands = values.map .num := by
  -- Only a number in front leaves anything to say about the rest.
  induction operands generalizing values with
  | nil => cases values <;> simp [numbers?]
  | cons first rest ih =>
    cases first with
    | num value => cases values <;> simp [numbers?, ih, and_comm]
    | var name => cases values <;> simp [numbers?]
    | op name operands => cases values <;> simp [numbers?]

section Folding

variable {mode : Mode} {name : String} {operands : List Expr}

/-- Folding either leaves the operation as it is, or all operands are numbers and the operation's
value on them decides. -/
theorem fold_cases (mode : Mode) (name : String) (operands : List Expr) :
    fold mode name operands = .ok (.op name operands) ∨
      ∃ primitive values, Primitive.ofName? name = some primitive ∧ operands = values.map .num ∧
        ((∃ value, primitive.value? mode values = .ok (some value) ∧
            fold mode name operands = .ok (.num value)) ∨
          ∃ cause, primitive.value? mode values = .error cause ∧
            fold mode name operands = .error cause) := by
  unfold fold
  split
  · next primitive values named found =>
    have numbers := Expr.numbers?_eq_some.mp found
    cases valued : primitive.value? mode values with
    | error cause => exact .inr ⟨primitive, values, named, numbers, .inr ⟨cause, valued, rfl⟩⟩
    | ok result =>
      -- An operation may have no value on numbers, and then it stays.
      cases result with
      | none => exact .inl rfl
      | some value => exact .inr ⟨primitive, values, named, numbers, .inl ⟨value, valued, rfl⟩⟩
  · exact .inl rfl

/-- Folding gives a number exactly when all operands are numbers that the operation has a value
on. -/
theorem fold_eq_num {value : Float} :
    fold mode name operands = .ok (.num value) ↔
      ∃ primitive values, Primitive.ofName? name = some primitive ∧ operands = values.map .num ∧
        primitive.value? mode values = .ok (some value) := by
  constructor
  · -- Of the three outcomes only one is a number.
    intro folded
    obtain kept | ⟨primitive, values, named, numbers, ⟨found, valued, gives⟩ | ⟨cause, _, fails⟩⟩ :=
      fold_cases mode name operands
    · rw [kept] at folded
      cases folded
    · rw [gives] at folded
      cases folded
      exact ⟨primitive, values, named, numbers, valued⟩
    · rw [fails] at folded
      cases folded
  · rintro ⟨primitive, values, named, numbers, valued⟩
    simp only [fold, named, Expr.numbers?_eq_some.mpr numbers, valued]
    rfl

end Folding

/-- Nothing is left to replace or to fold in the expression. -/
inductive Settled (mode : Mode) (scope : Scope) : Expr → Prop
  | number (value : Float) : Settled mode scope (.num value)
  | free {name : String} (unbound : scope.get? name = none) : Settled mode scope (.var name)
  | operation {name : String} {operands : List Expr}
      (settled : ∀ operand ∈ operands, Settled mode scope operand)
      (unfolded : fold mode name operands = .ok (.op name operands)) :
      Settled mode scope (.op name operands)

section Reduction

variable {mode : Mode} {scope : Scope} {replace : String → Except EvalError Expr}

/-- Expressions are reduced one after another. -/
theorem reduceAll_eq_mapM (operands : List Expr) :
    Expr.reduceAll mode replace operands = operands.mapM (·.reduce mode replace) := by
  -- By induction on the operands; the first failure ends both.
  induction operands with
  | nil => rw [Expr.reduceAll]; rfl
  | cons first rest ih => rw [Expr.reduceAll, List.mapM_cons, ih]

/-- An operation is folded once its operands are reduced. -/
theorem reduce_op (name : String) (operands : List Expr) :
    (Expr.op name operands).reduce mode replace =
      (do fold mode name (← operands.mapM (·.reduce mode replace))) := by
  -- The operands are reduced first, and then the operation is folded.
  rw [Expr.reduce, reduceAll_eq_mapM]

/-- An operation reduces to what its reduced operands fold to. -/
theorem reduce_op_eq_ok {name : String} {operands : List Expr} {result : Expr} :
    (Expr.op name operands).reduce mode replace = .ok result ↔
      ∃ results,
        List.Forall₂ (fun operand result => operand.reduce mode replace = .ok result)
          operands results ∧
        fold mode name results = .ok result := by
  -- A sequence succeeds if all of its parts do.
  rw [reduce_op, except_bind_eq_ok]
  simp only [mapM_eq_ok]

/-- Reduction settles an expression if the replacements of its variables are settled. -/
theorem settled_reduce
    (replaces : ∀ name result, replace name = .ok result → Settled mode scope result)
    {expr result : Expr} (reduced : expr.reduce mode replace = .ok result) :
    Settled mode scope result := by
  -- Operands are settled before the operation on them is folded or left.
  induction expr generalizing result with
  | num value =>
    rw [Expr.reduce] at reduced
    cases reduced
    exact .number value
  | var name =>
    rw [Expr.reduce] at reduced
    exact replaces name result reduced
  | op name operands ih =>
    obtain ⟨results, reducedAll, folded⟩ := reduce_op_eq_ok.mp reduced
    obtain kept | ⟨_, _, _, _, ⟨value, _, gives⟩ | ⟨cause, _, fails⟩⟩ :=
      fold_cases mode name results
    · -- The operation stays, and each of its new operands was settled by the induction.
      rw [kept] at folded
      cases folded
      refine .operation ?_ kept
      clear kept reduced
      induction reducedAll with
      | nil => simp
      | cons head tail rest =>
        simp only [List.forall_mem_cons] at ih ⊢
        exact ⟨ih.1 head, rest ih.2⟩
    · rw [gives] at folded
      cases folded
      exact .number value
    · rw [fails] at folded
      cases folded

/-- Reduction leaves a settled expression as it is. -/
theorem reduce_of_settled
    (keeps : ∀ name, scope.get? name = none → replace name = .ok (.var name))
    {expr : Expr} (settled : Settled mode scope expr) : expr.reduce mode replace = .ok expr := by
  -- Its variables are unbound, its operands reduce to themselves, and nothing is folded.
  induction settled with
  | number value => rw [Expr.reduce]
  | free unbound =>
    rw [Expr.reduce]
    exact keeps _ unbound
  | operation _ unfolded ih => exact reduce_op_eq_ok.mpr ⟨_, List.forall₂_same.mpr ih, unfolded⟩

end Reduction

section Expansion

variable {mode : Mode} {scope : Scope} {limit : Nat} {expanding : List String} {name : String}

/-- An unbound variable expands to itself. -/
theorem expand_of_unbound (unbound : scope.get? name = none) :
    expand mode scope limit expanding name = .ok (.var name) := by
  -- At every limit a name that is not bound is left as it is.
  cases limit <;> simp [expand, unbound]

/-- A variable that is being expanded fails to expand, and so does every one at the limit. -/
theorem expand_of_blocked {value : Expr} (bound : scope.get? name = some value)
    (blocked : limit = 0 ∨ name ∈ expanding) :
    expand mode scope limit expanding name = .error (.recursiveDefinition name) := by
  -- Both reasons are given before the value is looked into.
  rcases blocked with rfl | revisited
  · simp [expand, bound]
  · cases limit <;> simp [expand, bound, revisited]

/-- Below the limit, a variable that is not being expanded gives way to its reduced value. -/
theorem expand_succ_of_fresh {value : Expr} (bound : scope.get? name = some value)
    (fresh : name ∉ expanding) :
    expand mode scope (limit + 1) expanding name =
      value.reduce mode (expand mode scope limit (name :: expanding)) := by
  -- The definition is entered, and the name is in progress from here on.
  simp [expand, bound, fresh]

/-- Induction along the chain of bindings: what holds of a variable whenever it holds of all
variables one step further, and holds where there is no such step, holds of every variable. -/
theorem expand_induction (scope : Scope) {motive : Nat → List String → String → Prop}
    (unbound : ∀ limit expanding name, scope.get? name = none → motive limit expanding name)
    (blocked : ∀ limit expanding name value, scope.get? name = some value →
      limit = 0 ∨ name ∈ expanding → motive limit expanding name)
    (fresh : ∀ limit expanding name value, scope.get? name = some value → name ∉ expanding →
      (∀ inner, motive limit (name :: expanding) inner) → motive (limit + 1) expanding name)
    (limit : Nat) (expanding : List String) (name : String) : motive limit expanding name := by
  -- Each step takes one from the limit and adds the variable to those being expanded.
  induction limit generalizing expanding name with
  | zero =>
    cases bound : scope.get? name with
    | none => exact unbound 0 expanding name bound
    | some value => exact blocked 0 expanding name value bound (.inl rfl)
  | succ limit ih =>
    cases bound : scope.get? name with
    | none => exact unbound (limit + 1) expanding name bound
    | some value =>
      by_cases revisited : name ∈ expanding
      · exact blocked (limit + 1) expanding name value bound (.inr revisited)
      · exact fresh limit expanding name value bound revisited (ih (name :: expanding))

/-- Expansion settles what it gives. -/
theorem settled_expand {result : Expr}
    (expanded : expand mode scope limit expanding name = .ok result) :
    Settled mode scope result := by
  -- Along the chain of bindings only unbound variables and reduced values are given.
  induction limit, expanding, name using expand_induction scope generalizing result with
  | unbound limit expanding name unbound =>
    rw [expand_of_unbound unbound] at expanded
    cases expanded
    exact .free unbound
  | blocked limit expanding name value bound blocked =>
    rw [expand_of_blocked bound blocked] at expanded
    cases expanded
  | fresh limit expanding name value bound fresh ih =>
    -- The value is reduced, with replacements that are settled one step further.
    rw [expand_succ_of_fresh bound fresh] at expanded
    exact settled_reduce (fun inner _ replaced => ih inner replaced) expanded

/-- What simplification gives is settled. -/
theorem settled_simplify {expr result : Expr} (simplified : simplify mode scope expr = .ok result) :
    Settled mode scope result :=
  settled_reduce (fun _ _ expanded => settled_expand expanded) simplified

/-- Simplification leaves a settled expression as it is. -/
theorem simplify_of_settled {expr : Expr} (settled : Settled mode scope expr) :
    simplify mode scope expr = .ok expr :=
  reduce_of_settled (fun _ unbound => expand_of_unbound unbound) settled

/-- An operation simplifies to what its simplified operands fold to. -/
theorem simplify_op_eq_ok {operands : List Expr} {result : Expr} :
    simplify mode scope (.op name operands) = .ok result ↔
      ∃ results,
        List.Forall₂ (fun operand result => simplify mode scope operand = .ok result)
          operands results ∧
        fold mode name results = .ok result :=
  reduce_op_eq_ok

/-- The bound names that are not being expanded, each as often as frames bind it. -/
def Scope.pending (scope : Scope) (expanding : List String) : List String :=
  (scope.frames.flatMap (·.names)).filter (· ∉ expanding)

/-- A variable with a value that is not being expanded is pending. -/
theorem Scope.mem_pending {value : Expr} (bound : scope.get? name = some value)
    (fresh : name ∉ expanding) : name ∈ scope.pending expanding := by
  -- The first frame that gives the name a value lists the name among its entries.
  obtain ⟨frame, inScope, looked⟩ := List.exists_of_findSome?_eq_some bound
  obtain ⟨before, after, entries, _⟩ := List.lookup_eq_some_iff.mp looked
  have named : name ∈ frame.names := by simp [Frame.names, entries]
  have listed : name ∈ scope.frames.flatMap (·.names) :=
    List.mem_flatMap.mpr ⟨frame, inScope, named⟩
  simp [Scope.pending, List.mem_filter, listed, fresh]

/-- Expanding a variable with a value leaves fewer pending. -/
theorem Scope.length_pending_cons {value : Expr} (bound : scope.get? name = some value)
    (fresh : name ∉ expanding) :
    (scope.pending (name :: expanding)).length < (scope.pending expanding).length := by
  -- Every binding of the name is filtered out, and there is at least one.
  have narrowed : scope.pending (name :: expanding) =
      (scope.pending expanding).filter (· ≠ name) := by
    simp [Scope.pending, List.filter_filter]
  rw [narrowed, List.length_filter_lt_length_iff_exists]
  exact ⟨name, Scope.mem_pending bound fresh, by simp⟩

/-- There are never more pending variables than bindings. -/
theorem Scope.length_pending_le (scope : Scope) (expanding : List String) :
    (scope.pending expanding).length ≤ scope.bindingCount :=
  List.length_filter_le _ _

/-- Where the limit covers the pending variables, only one that is being expanded is blocked. -/
theorem mem_of_blocked {value : Expr} (covered : (scope.pending expanding).length ≤ limit)
    (bound : scope.get? name = some value) (blocked : limit = 0 ∨ name ∈ expanding) :
    name ∈ expanding := by
  rcases blocked with rfl | revisited
  · -- Otherwise the name itself would be pending.
    by_contra fresh
    have some := List.length_pos_of_mem (Scope.mem_pending bound fresh)
    omega
  · exact revisited

/-- A limit that covers the pending variables is not reached: a variable with a value that is not
being expanded gives way to its value, and the rest of the limit covers what is then pending. -/
theorem expand_of_fresh {value : Expr} (covered : (scope.pending expanding).length ≤ limit)
    (bound : scope.get? name = some value) (fresh : name ∉ expanding) :
    ∃ rest, limit = rest + 1 ∧ (scope.pending (name :: expanding)).length ≤ rest ∧
      expand mode scope limit expanding name =
        value.reduce mode (expand mode scope rest (name :: expanding)) := by
  -- The name itself is pending, so the limit is not zero.
  have fewer := Scope.length_pending_cons bound fresh
  cases limit with
  | zero => omega
  | succ rest => exact ⟨rest, rfl, by omega, expand_succ_of_fresh bound fresh⟩

end Expansion

section Results

variable {mode : Mode} {scope : Scope} {expr part : Expr}

/-- Every part of a settled expression is settled. -/
theorem Settled.of_isPart (settled : Settled mode scope expr) (isPart : Expr.IsPart part expr) :
    Settled mode scope part := by
  -- The part is reached through operands, and these are settled one by one.
  induction isPart with
  | whole => exact settled
  | operand member _ ih =>
    cases settled with
    | operation each _ => exact ih (each _ member)

/-- An expression is settled exactly when it has no bound variable and no operation that folding
changes or refuses. -/
theorem settled_iff :
    Settled mode scope expr ↔
      (∀ name, expr.Mentions name → scope.get? name = none) ∧
        ∀ name operands, Expr.IsPart (.op name operands) expr →
          fold mode name operands = .ok (.op name operands) := by
  constructor
  · intro settled
    constructor
    · intro name mentions
      -- The variable is itself a part, and a settled variable is unbound.
      cases settled.of_isPart mentions with
      | free unbound => exact unbound
    · intro name operands isPart
      cases settled.of_isPart isPart with
      | operation _ unfolded => exact unfolded
  · intro normal
    obtain ⟨unbound, unfolded⟩ := normal
    induction expr with
    | num value => exact .number value
    | var name => exact .free (unbound name (Expr.mentions_var.mpr rfl))
    | op name operands ih =>
      refine .operation (fun operand member => ?_) (unfolded name operands .whole)
      -- What stands in an operand stands in the operation.
      apply ih operand member
      · intro inner mentions
        exact unbound inner (Expr.mentions_op.mpr ⟨operand, member, mentions⟩)
      · intro inner within isPart
        exact unfolded inner within (.operand member isPart)

end Results

/--
Simplification gives normal forms.

Whatever the variables are bound to, and in both modes: no variable of a result is bound, no
operation in it would be folded or refused by folding, and simplifying the result again gives it
back. Nothing else is needed for that: every expression without a bound variable and without an
operation to fold simplifies to itself.
-/
theorem simplify_gives_normal_form (mode : Mode) (scope : Scope) :
    (∀ expr result, simplify mode scope expr = .ok result →
      (∀ name, result.Mentions name → scope.get? name = none) ∧
      (∀ name operands, Expr.IsPart (.op name operands) result →
        fold mode name operands = .ok (.op name operands)) ∧
      simplify mode scope result = .ok result) ∧
    ∀ expr, (∀ name, Expr.Mentions expr name → scope.get? name = none) →
      (∀ name operands, Expr.IsPart (.op name operands) expr →
        fold mode name operands = .ok (.op name operands)) →
      simplify mode scope expr = .ok expr := by
  -- The normal forms are the settled expressions, which simplification gives and keeps.
  constructor
  · intro expr result simplified
    have settled := settled_simplify simplified
    obtain ⟨unbound, unfolded⟩ := settled_iff.mp settled
    exact ⟨unbound, unfolded, simplify_of_settled settled⟩
  · intro expr unbound unfolded
    exact simplify_of_settled (settled_iff.mpr ⟨unbound, unfolded⟩)

/-- A sum of three, which folding does not know, is left around an unknown operation, a quotient of
different numbers and what a variable stands for through another one. -/
theorem simplify_gives_normal_form_mixture :
    let scope : Scope :=
      ⟨[⟨[("y", .num 2)]⟩], ⟨[("x", .op "/" [.var "y", .num 2]), ("y", .var "x")]⟩⟩
    let expr : Expr := .op "+" [.var "x", .op "f" [.var "z"], .op "/" [.num 1, .num 2]]
    let result : Expr := .op "+" [.num 1, .op "f" [.var "z"], .op "/" [.num 1, .num 2]]
    simplify .symbolic scope expr = .ok result ∧ scope.get? "z" = none ∧
      fold .symbolic "/" [.num 1, .num 2] = .ok (.op "/" [.num 1, .num 2]) ∧
      simplify .symbolic scope result = .ok result := by
  -- The sum has a bound name, a free one and a division that is not folded.
  intro scope expr result
  obtain ⟨results, _⟩ := simplify_gives_normal_form .symbolic scope
  have simplified : simplify .symbolic scope expr = .ok result := rfl
  obtain ⟨unbound, unfolded, again⟩ := results expr result simplified
  refine ⟨simplified, unbound "z" ?_, unfolded "/" _ ?_, again⟩
  · simp [result]
  · exact .operand (by simp) .whole

end Calculator
