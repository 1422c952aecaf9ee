import Calculator.Proofs.Simplification.NormalForm
import Calculator.Resolution

/-! Numeric resolution agrees with a big-step semantics, and its second pass finds no new value. -/

namespace Calculator

/-- The operation has a value on the numbers. -/
inductive Computes : String → List Float → Float → Prop
  | negate (a : Float) : Computes "negate" [a] (-a)
  | sin (a : Float) : Computes "sin" [a] a.sin
  | cos (a : Float) : Computes "cos" [a] a.cos
  | add (a b : Float) : Computes "+" [a, b] (a + b)
  | subtract (a b : Float) : Computes "-" [a, b] (a - b)
  | multiply (a b : Float) : Computes "*" [a, b] (a * b)
  | power (a b : Float) : Computes "^" [a, b] (a.pow b)
  /-- Numbers that compare equal have the quotient one, two zeros too. -/
  | ratio {a b : Float} (equal : (a == b) = true) : Computes "/" [a, b] 1
  | quotient {a b : Float} (different : (a == b) = false) (nonzero : (b == 0) = false) :
      Computes "/" [a, b] (a / b)

/-- The expression has a value while some variables are being expanded: operands come first, and
a variable stands for the value of its binding. -/
inductive Resolves (scope : Scope) : List String → Expr → Float → Prop
  | number (expanding : List String) (value : Float) : Resolves scope expanding (.num value) value
  | binding {expanding : List String} {name : String} {definition : Expr} {value : Float}
      (bound : scope.get? name = some definition) (fresh : name ∉ expanding)
      (resolves : Resolves scope (name :: expanding) definition value) :
      Resolves scope expanding (.var name) value
  | operation {expanding : List String} {name : String} {operands : List Expr}
      {values : List Float} {value : Float} (sizes : operands.length = values.length)
      (resolves : ∀ {operand : Expr} {number : Float},
        (operand, number) ∈ operands.zip values → Resolves scope expanding operand number)
      (computes : Computes name values value) :
      Resolves scope expanding (.op name operands) value

/-- The operation found by a name has the name. -/
theorem Primitive.name_of_ofName? {name : String} {primitive : Primitive}
    (named : Primitive.ofName? name = some primitive) : primitive.name = name := by
  -- The search compares names.
  have found := List.find?_some named
  simpa using found

/-- A quotient with a value is one of equal operands, or of others over a divisor but zero. -/
theorem Primitive.computes_of_quotient? {a b value : Float}
    (valued : Primitive.quotient? .precise a b = .ok (some value)) : Computes "/" [a, b] value := by
  unfold Primitive.quotient? at valued
  -- Equality of the operands is looked at before the divisor is.
  split at valued
  · next equal =>
    cases valued
    exact .ratio equal
  · next different =>
    dsimp only at valued
    split at valued
    · cases valued
    · next nonzero =>
      cases valued
      exact .quotient (by simpa using different) (by simpa using nonzero)

/-- The value that an operation has on numbers is the one computed. -/
theorem Primitive.computes_of_value? {primitive : Primitive} {values : List Float} {value : Float}
    (valued : primitive.value? .precise values = .ok (some value)) :
    Computes primitive.name values value := by
  unfold Primitive.value? at valued
  -- One case for each operation with the operands that it takes, and one for all the rest.
  split at valued
  · cases valued; exact .negate _
  · cases valued; exact .sin _
  · cases valued; exact .cos _
  · cases valued; exact .add _ _
  · cases valued; exact .subtract _ _
  · cases valued; exact .multiply _ _
  · exact computes_of_quotient? valued
  · cases valued; exact .power _ _
  · cases valued

/-- Every value computed is one that an operation has. -/
theorem Computes.value? {name : String} {values : List Float} {value : Float}
    (computes : Computes name values value) :
    ∃ primitive, Primitive.ofName? name = some primitive ∧
      primitive.value? .precise values = .ok (some value) := by
  -- Each rule belongs to one function; only the two of a division have side conditions.
  cases computes with
  | negate => exact ⟨.negate, by decide, rfl⟩
  | sin => exact ⟨.sin, by decide, rfl⟩
  | cos => exact ⟨.cos, by decide, rfl⟩
  | add => exact ⟨.add, by decide, rfl⟩
  | subtract => exact ⟨.subtract, by decide, rfl⟩
  | multiply => exact ⟨.multiply, by decide, rfl⟩
  | power => exact ⟨.power, by decide, rfl⟩
  | ratio equal =>
    exact ⟨.divide, by decide, by simp [Primitive.value?, Primitive.quotient?, equal]⟩
  | quotient different nonzero =>
    exact ⟨.divide, by decide,
      by simp [Primitive.value?, Primitive.quotient?, different, nonzero]⟩

/-- Folding gives a number exactly when the operation computes it from its operands. -/
theorem fold_eq_num_iff {name : String} {operands : List Expr} {value : Float} :
    fold .precise name operands = .ok (.num value) ↔
      ∃ values, operands = values.map .num ∧ Computes name values value := by
  -- A fold gives a number where a primitive does, and the rules say what the primitives give.
  rw [fold_eq_num]
  constructor
  · rintro ⟨primitive, values, named, numbers, valued⟩
    have computes := Primitive.computes_of_value? valued
    rw [Primitive.name_of_ofName? named] at computes
    exact ⟨values, numbers, computes⟩
  · rintro ⟨values, numbers, computes⟩
    obtain ⟨primitive, named, valued⟩ := computes.value?
    exact ⟨primitive, values, named, numbers, valued⟩

/-- An operation resolves to what it computes from the values of its operands. -/
theorem resolves_op_iff {scope : Scope} {expanding : List String} {name : String}
    {operands : List Expr} {value : Float} :
    Resolves scope expanding (.op name operands) value ↔
      ∃ values, List.Forall₂ (Resolves scope expanding) operands values ∧
        Computes name values value := by
  -- An operation has one rule, which pairs operands with their values.
  constructor
  · intro resolves
    cases resolves with
    | operation sizes resolves computes =>
      exact ⟨_, List.forall₂_iff_zip.mpr ⟨sizes, resolves⟩, computes⟩
  · rintro ⟨values, resolves, computes⟩
    obtain ⟨sizes, resolves⟩ := List.forall₂_iff_zip.mp resolves
    exact .operation sizes resolves computes

/-- Reduction gives a number exactly when the expression resolves to it, if that is so for the
variables. -/
theorem reduce_eq_num_iff {scope : Scope} {expanding : List String}
    {replace : String → Except EvalError Expr}
    (replaces : ∀ name value,
      replace name = .ok (.num value) ↔ Resolves scope expanding (.var name) value)
    (expr : Expr) (value : Float) :
    expr.reduce .precise replace = .ok (.num value) ↔ Resolves scope expanding expr value := by
  -- The induction is on the tree alone: what stands behind a variable is the replacement's part.
  induction expr generalizing value with
  | num number =>
    rw [Expr.reduce]
    constructor
    · rintro ⟨⟩
      exact .number expanding number
    · rintro ⟨⟩
      rfl
  | var name =>
    rw [Expr.reduce]
    exact replaces name value
  | op name operands ih =>
    -- The operands reduce to numbers exactly when they resolve to them, one by one.
    have operandwise (values : List Float) :
        List.Forall₂ (fun operand result => operand.reduce .precise replace = .ok result)
            operands (values.map .num) ↔
          List.Forall₂ (Resolves scope expanding) operands values := by
      rw [List.forall₂_map_right_iff]
      constructor
      · intro reduced
        exact forall₂_imp_of_mem reduced fun operand member number =>
          (ih operand member number).mp
      · intro resolved
        exact forall₂_imp_of_mem resolved fun operand member number =>
          (ih operand member number).mpr
    rw [reduce_op_eq_ok, resolves_op_iff]
    constructor
    · rintro ⟨results, reduced, folded⟩
      obtain ⟨values, rfl, computes⟩ := fold_eq_num_iff.mp folded
      exact ⟨values, (operandwise values).mp reduced, computes⟩
    · rintro ⟨values, resolved, computes⟩
      have folded := fold_eq_num_iff.mpr ⟨values, rfl, computes⟩
      exact ⟨values.map .num, (operandwise values).mpr resolved, folded⟩

/-- A variable resolves to what its binding does while the variable is being expanded. -/
theorem resolves_var_iff {scope : Scope} {expanding : List String} {name : String}
    {value : Float} :
    Resolves scope expanding (.var name) value ↔
      ∃ definition, scope.get? name = some definition ∧ name ∉ expanding ∧
        Resolves scope (name :: expanding) definition value := by
  -- A variable has one rule, which follows its definition.
  constructor
  · intro resolves
    cases resolves with
    | binding bound fresh resolves => exact ⟨_, bound, fresh, resolves⟩
  · rintro ⟨definition, bound, fresh, resolves⟩
    exact .binding bound fresh resolves

/-- Expansion gives a number exactly when the variable resolves to it, as long as the limit covers
the variables that are pending. -/
theorem expand_eq_num_iff {scope : Scope} {limit : Nat} {expanding : List String}
    (covered : (scope.pending expanding).length ≤ limit) (name : String) (value : Float) :
    expand .precise scope limit expanding name = .ok (.num value) ↔
      Resolves scope expanding (.var name) value := by
  -- The induction follows the chain of bindings; the trees along it are met by reduction.
  induction limit using Nat.strongRecOn generalizing expanding name value with
  | ind limit ih =>
    rw [resolves_var_iff]
    cases bound : scope.get? name with
    | none => simp [expand_of_unbound bound]
    | some definition =>
      by_cases revisited : name ∈ expanding
      · simp [expand_of_blocked bound (.inr revisited), revisited]
      · obtain ⟨rest, rfl, restCovered, expands⟩ := expand_of_fresh covered bound revisited
        rw [expands, reduce_eq_num_iff (ih rest (Nat.lt_succ_self rest) restCovered)]
        simp [revisited]

/-- Simplification gives a number exactly when the expression resolves to it. -/
theorem simplify_eq_num_iff {scope : Scope} {expr : Expr} {value : Float} :
    simplify .precise scope expr = .ok (.num value) ↔ Resolves scope [] expr value := by
  -- At the start every bound name is pending, and the limit counts them all.
  have covered := scope.length_pending_le []
  exact reduce_eq_num_iff (expand_eq_num_iff covered) expr value

section Demand

variable {scope : Scope} {name : String} {operands : List Expr} {expr : Expr}

/-- Numbers are demanded of one expression after another. -/
theorem demandAll_eq_mapM (operands : List Expr) :
    Expr.demandAll operands = operands.mapM Expr.demand := by
  -- By induction on the operands; the first failure ends both.
  induction operands with
  | nil => rw [Expr.demandAll]; rfl
  | cons first rest ih => rw [Expr.demandAll, List.mapM_cons, ih]

/-- Why a settled expression other than a number has none: an unbound variable in it, or an
operation in it that has no value. -/
inductive Blames (scope : Scope) (expr : Expr) : EvalError → Prop
  | undefined {name : String} (unbound : scope.get? name = none)
      (occurs : Expr.IsPart (.var name) expr) : Blames scope expr (.undefinedVariable name)
  | notNumeric {name : String} {operands : List Expr}
      (occurs : Expr.IsPart (.op name operands) expr) : Blames scope expr (.notNumeric name)

/-- An operand's blame is the operation's. -/
theorem Blames.op {operand : Expr} {cause : EvalError} (blames : Blames scope operand cause)
    (member : operand ∈ operands) : Blames scope (.op name operands) cause := by
  -- What occurs in an operand occurs in the operation.
  cases blames with
  | undefined unbound occurs => exact .undefined unbound (.operand member occurs)
  | notNumeric occurs => exact .notNumeric (.operand member occurs)

/-- A settled expression is a number, or demanding one fails for a reason that stands in it. -/
theorem demand_of_settled (settled : Settled .precise scope expr) :
    (∃ value, expr = .num value) ∨
      ∃ cause, expr.demand = .error cause ∧ Blames scope expr cause := by
  -- An operation fails as its first operand without a number does, or else on its own account.
  induction settled with
  | number value => exact .inl ⟨value, rfl⟩
  | free unbound => exact .inr ⟨_, by rw [Expr.demand], .undefined unbound .whole⟩
  | @operation name operands settled unfolded ih =>
    right
    rw [Expr.demand, demandAll_eq_mapM]
    cases demanded : operands.mapM Expr.demand with
    | error cause =>
      -- The first operand without a number is no number itself, so it blames what it fails with.
      obtain ⟨operand, member, fails⟩ := mapM_eq_error demanded
      obtain ⟨value, rfl⟩ | ⟨found, blamed, blames⟩ := ih operand member
      · rw [Expr.demand] at fails
        cases fails
      · rw [blamed] at fails
        cases fails
        exact ⟨cause, rfl, blames.op member⟩
    | ok values =>
      -- Operands with numbers are numbers, and on those the operation was left unfolded.
      have numbers : List.Forall₂ (fun operand value => operand = .num value) operands values := by
        refine forall₂_imp_of_mem (mapM_eq_ok.mp demanded) fun operand member value found => ?_
        obtain ⟨number, rfl⟩ | ⟨cause, fails, _⟩ := ih operand member
        · rw [Expr.demand] at found
          cases found
          rfl
        · rw [fails] at found
          cases found
      rw [← List.forall₂_map_right_iff, List.forall₂_eq_eq_eq] at numbers
      refine ⟨.notNumeric name, ?_, .notNumeric .whole⟩
      simp only [bind, Except.bind, ← numbers, unfolded]
      rfl

/-- Among settled expressions only a number has a number, its own. -/
theorem demand_eq_ok_iff (settled : Settled .precise scope expr) {value : Float} :
    expr.demand = .ok value ↔ expr = .num value := by
  -- A settled expression that is not a number is blamed for something.
  constructor
  · intro demanded
    obtain ⟨number, rfl⟩ | ⟨cause, fails, _⟩ := demand_of_settled settled
    · rw [Expr.demand] at demanded
      cases demanded
      rfl
    · rw [fails] at demanded
      cases demanded
  · rintro rfl
    rw [Expr.demand]

end Demand

section SecondPass

variable {scope : Scope} {expr : Expr}

/-- A second pass over a simplified expression: its operands are resolved one by one, and the
operation on their numbers is simplified anew. -/
def secondPass (scope : Scope) : Expr → Except EvalError Float
  | .num value => .ok value
  | .var name => .error (.undefinedVariable name)
  | .op name operands => do
    let values ← operands.mapM (toNumber scope)
    match ← simplify .precise scope (.op name (values.map .num)) with
    | .num value => return value
    | .var _ | .op _ _ => throw (.notNumeric name)

/-- A settled expression stands for what is demanded of it. -/
theorem toNumber_of_settled (settled : Settled .precise scope expr) :
    toNumber scope expr = expr.demand := by
  -- Simplifying leaves a settled expression as it is.
  rw [toNumber, simplify_of_settled settled]
  rfl

/-- Simplifying an operation on numbers folds it. -/
theorem simplify_op_nums (mode : Mode) (scope : Scope) (name : String) (values : List Float) :
    simplify mode scope (.op name (values.map .num)) = fold mode name (values.map .num) := by
  -- Numbers reduce to themselves.
  have kept : Expr.reduceAll mode (expand mode scope scope.bindingCount []) (values.map .num) =
      .ok (values.map .num) := by
    rw [reduceAll_eq_mapM, mapM_eq_ok, List.forall₂_same]
    simp [Expr.reduce]
  rw [simplify, Expr.reduce, kept]
  rfl

/-- The number demanded of a settled expression is the one that a second pass finds. -/
theorem demand_eq_secondPass (settled : Settled .precise scope expr) :
    expr.demand = secondPass scope expr := by
  -- The operands are settled too, so simplifying them again does not change them.
  cases settled with
  | number value => rw [Expr.demand, secondPass]
  | free unbound => rw [Expr.demand, secondPass]
  | @operation name operands settled unfolded =>
    have resolved : operands.mapM (toNumber scope) = operands.mapM Expr.demand :=
      mapM_congr_of_mem fun operand member => toNumber_of_settled (settled operand member)
    rw [Expr.demand, secondPass, demandAll_eq_mapM, resolved]
    exact bind_congr fun values =>
      congrArg (· >>= _) (simplify_op_nums .precise scope name values).symm

end SecondPass

/-- An expression stands for a number exactly when simplification gives the number. -/
theorem toNumber_eq_ok_iff {scope : Scope} {expr : Expr} {value : Float} :
    toNumber scope expr = .ok value ↔ simplify .precise scope expr = .ok (.num value) := by
  rw [toNumber, except_bind_eq_ok]
  -- What simplification leaves is settled, and of that only a number has a number.
  constructor
  · rintro ⟨rest, simplified, demanded⟩
    rw [simplified, (demand_eq_ok_iff (settled_simplify simplified)).mp demanded]
  · intro simplified
    exact ⟨.num value, simplified, by rw [Expr.demand]⟩

section Definitions

variable {scope : Scope} {expanding fewer more : List String} {name : String}
  {expr definition : Expr} {value : Float}

/-- What resolves while some variables are being expanded resolves while fewer of them are. -/
theorem Resolves.mono (resolves : Resolves scope expanding expr value)
    (included : fewer ⊆ expanding) : Resolves scope fewer expr value := by
  -- By induction on the resolution; fewer names in progress forbid fewer definitions.
  induction resolves generalizing fewer with
  | number => exact .number fewer _
  | binding bound fresh _ ih =>
    exact .binding bound (fun member => fresh (included member))
      (ih (List.cons_subset_cons _ included))
  | operation sizes _ computes ih =>
    exact .operation sizes (fun member => ih member included) computes

/-- What resolves does so without a variable, unless the variable's own definition does. -/
theorem Resolves.without (defined : scope.get? name = some definition)
    (resolves : Resolves scope expanding expr value) (included : more ⊆ name :: expanding) :
    Resolves scope more expr value ∨ ∃ number, Resolves scope [name] definition number := by
  induction resolves generalizing more with
  | number => exact .inl (.number more _)
  | @binding expanding other _ _ bound fresh resolves ih =>
    by_cases same : other = name
    · -- The definition resolves while its variable is being expanded.
      subst same
      rw [bound] at defined
      cases defined
      exact .inr ⟨_, resolves.mono (by simp)⟩
    · have added : other :: more ⊆ name :: other :: expanding := by
        refine List.cons_subset.mpr ⟨by simp, fun _ member => ?_⟩
        exact (List.mem_cons.mp (included member)).elim (by simp +contextual) (by simp +contextual)
      refine (ih added).imp_left fun resolves => .binding bound (fun member => ?_) resolves
      exact (List.mem_cons.mp (included member)).elim same fresh
  | operation sizes _ computes ih =>
    -- If no operand needs the variable, neither does the operation.
    by_cases found : ∃ number, Resolves scope [name] definition number
    · exact .inr found
    · refine .inl (.operation sizes (fun member => ?_) computes)
      exact (ih member included).resolve_right found

/-- A variable has the value that its definition has. -/
theorem toNumber_var_iff (defined : scope.get? name = some definition) :
    toNumber scope (.var name) = .ok value ↔ toNumber scope definition = .ok value := by
  have resolves_iff {expr : Expr} {value : Float} :
      toNumber scope expr = .ok value ↔ Resolves scope [] expr value :=
    toNumber_eq_ok_iff.trans simplify_eq_num_iff
  rw [resolves_iff, resolves_var_iff]
  constructor
  · rintro ⟨_, bound, _, resolves⟩
    rw [defined] at bound
    cases bound
    exact resolves_iff.mpr (resolves.mono (List.nil_subset _))
  · intro measured
    obtain resolves | ⟨other, resolves⟩ :=
      (resolves_iff.mp measured).without defined (List.Subset.refl [name])
    · exact ⟨definition, defined, List.not_mem_nil, resolves⟩
    · -- If the definition needs the variable, it has been resolved on the way, to the same value.
      have again := resolves_iff.mpr (resolves.mono (List.nil_subset _))
      rw [measured] at again
      cases again
      exact ⟨definition, defined, List.not_mem_nil, resolves⟩

end Definitions

/-- What simplification leaves is resolved by a second pass over it. -/
theorem toNumber_eq_secondPass (scope : Scope) (expr : Expr) :
    toNumber scope expr = (do secondPass scope (← simplify .precise scope expr)) := by
  -- What the first pass leaves is settled, and there the second pass is a demand.
  rw [toNumber]
  cases simplified : simplify .precise scope expr with
  | error cause => rfl
  | ok rest => exact demand_eq_secondPass (settled_simplify simplified)

/-- The numbers that expressions stand for are their values, bottom up. Simplification alone finds
them: the second pass over what it leaves only settles which variable or operation is to blame. -/
theorem toNumber_eq_ok_iff_resolves (scope : Scope) (expr : Expr) :
    (∀ value, toNumber scope expr = .ok value ↔ Resolves scope [] expr value) ∧
    (∀ value, toNumber scope expr = .ok value ↔
      simplify .precise scope expr = .ok (.num value)) ∧
    toNumber scope expr = (do secondPass scope (← simplify .precise scope expr)) ∧
    (∀ rest, simplify .precise scope expr = .ok rest → (∀ value, rest ≠ .num value) →
      (∃ name, toNumber scope expr = .error (.undefinedVariable name) ∧
        scope.get? name = none ∧ Expr.IsPart (.var name) rest) ∨
      ∃ name operands, toNumber scope expr = .error (.notNumeric name) ∧
        Expr.IsPart (.op name operands) rest) ∧
    (∀ name, (EvalError.undefinedVariable name).reason = "Undefined variable " ++ name) ∧
    (∀ name, (EvalError.notNumeric name).reason = "Cannot convert " ++ name ++ " to a number") := by
  -- What simplification leaves is settled, so it is a number or it is blamed for its first part.
  refine ⟨fun value => ?_, fun value => toNumber_eq_ok_iff, toNumber_eq_secondPass scope expr,
    fun rest simplified nonnumber => ?_, fun _ => rfl, fun _ => rfl⟩
  · rw [toNumber_eq_ok_iff, simplify_eq_num_iff]
  · rw [toNumber, simplified]
    obtain ⟨value, rfl⟩ | ⟨cause, fails, blames⟩ := demand_of_settled (settled_simplify simplified)
    · exact absurd rfl (nonnumber value)
    · cases blames with
      | undefined unbound occurs => exact .inl ⟨_, fails, unbound, occurs⟩
      | notNumeric occurs => exact .inr ⟨_, _, fails, occurs⟩

/-- A ratio of two names for zero, and a variable that is defined through itself. -/
private def sampleScope : Scope :=
  ⟨[], ⟨[("x", .op "/" [.var "y", .var "z"]), ("y", .var "z"), ("z", .num 0), ("w", .var "w")]⟩⟩

/-- A ratio of zeros resolves to one through a chain of bindings, a variable that is defined through
itself has no value, and an unknown operation on a number is itself to blame. -/
theorem toNumber_eq_ok_iff_resolves_samples :
    Resolves sampleScope [] (.var "x") 1 ∧
    (∀ value, ¬ Resolves sampleScope [] (.var "w") value) ∧
    simplify .precise sampleScope (.op "f" [.var "x"]) = .ok (.op "f" [.num 1]) ∧
    ∃ name operands, toNumber sampleScope (.op "f" [.var "x"]) = .error (.notNumeric name) ∧
      Expr.IsPart (.op name operands) (.op "f" [.num 1]) := by
  obtain ⟨ratio, _⟩ := toNumber_eq_ok_iff_resolves sampleScope (.var "x")
  obtain ⟨circle, _⟩ := toNumber_eq_ok_iff_resolves sampleScope (.var "w")
  obtain ⟨_, _, _, blames, _⟩ := toNumber_eq_ok_iff_resolves sampleScope (.op "f" [.var "x"])
  refine ⟨(ratio 1).mp rfl, fun value resolves => ?_, rfl, ?_⟩
  · -- Expansion comes back to the variable at once.
    have found := (circle value).mpr resolves
    cases found
  · obtain ⟨name, fails, _⟩ | blamed := blames (.op "f" [.num 1]) rfl (by simp)
    · cases fails
    · exact blamed

end Calculator
