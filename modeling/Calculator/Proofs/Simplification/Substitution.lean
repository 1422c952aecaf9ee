import Calculator.Proofs.Scope.Names
import Calculator.Proofs.Simplification.Cycles

/-! Substitution: simplification folds what is left once all bound variables are replaced, and
values may be simplified beforehand. -/

namespace Calculator

open Relation (ReflTransGen TransGen)

/-- Where each element determines what it is paired with, the list determines the other list. -/
theorem eq_of_forall₂_unique {α β : Type} {related : α → β → Prop} {inputs : List α}
    {results others : List β}
    (each : List.Forall₂ (fun input result => ∀ other, related input other → other = result)
      inputs results)
    (pairs : List.Forall₂ related inputs others) : others = results := by
  -- By induction on the pairs; each input has only one result.
  induction each generalizing others with
  | nil =>
    cases pairs
    rfl
  | cons head _ ih =>
    cases pairs with
    | cons found rest => rw [head _ found, ih rest]

namespace Scope

/-- The second expression is the first with its bound variables replaced by their innermost values,
and the bound variables in these values too, through and through. -/
inductive Substitutes (scope : Scope) : Expr → Expr → Prop
  | number (value : Float) : Substitutes scope (.num value) (.num value)
  | free {name : String} (unbound : scope.get? name = none) :
      Substitutes scope (.var name) (.var name)
  | binding {name : String} {value full : Expr} (bound : scope.get? name = some value)
      (inner : Substitutes scope value full) : Substitutes scope (.var name) full
  | operation {name : String} {operands fulls : List Expr} (sizes : operands.length = fulls.length)
      (inner : ∀ {operand full : Expr}, (operand, full) ∈ operands.zip fulls →
        Substitutes scope operand full) :
      Substitutes scope (.op name operands) (.op name fulls)

variable {scope : Scope} {expr full other : Expr} {name : String}

/-- The operands of an operation are replaced one by one. -/
theorem substitutes_op_iff {operands : List Expr} :
    scope.Substitutes (.op name operands) full ↔
      ∃ fulls, List.Forall₂ scope.Substitutes operands fulls ∧ full = .op name fulls := by
  -- An operation has one rule, which pairs operands with what they become.
  constructor
  · intro substitutes
    cases substitutes with
    | operation sizes inner => exact ⟨_, List.forall₂_iff_zip.mpr ⟨sizes, inner⟩, rfl⟩
  · rintro ⟨fulls, operandwise, rfl⟩
    obtain ⟨sizes, inner⟩ := List.forall₂_iff_zip.mp operandwise
    exact .operation sizes inner

/-- There is only one way to replace all bound variables. -/
theorem Substitutes.unique (first : scope.Substitutes expr full)
    (second : scope.Substitutes expr other) : other = full := by
  -- A variable is bound or not, and its innermost value is the only one looked at.
  induction first generalizing other with
  | number value =>
    cases second
    rfl
  | free unbound =>
    cases second with
    | free => rfl
    | binding bound _ =>
      rw [unbound] at bound
      cases bound
  | binding bound _ ih =>
    cases second with
    | free unbound =>
      rw [unbound] at bound
      cases bound
    | binding again inner =>
      rw [bound] at again
      cases again
      exact ih inner
  | @operation name operands fulls sizes _ ih =>
    obtain ⟨others, operandwise, rfl⟩ := substitutes_op_iff.mp second
    -- Each operand has one replacement, so there is one list of them.
    have each : List.Forall₂ (fun operand full => ∀ other, scope.Substitutes operand other →
        other = full) operands fulls :=
      List.forall₂_iff_zip.mpr ⟨sizes, fun member _ inner => ih member inner⟩
    rw [eq_of_forall₂_unique each operandwise]

/-- Where all bound variables can be replaced, every variable is grounded. -/
theorem Substitutes.grounded (substitutes : scope.Substitutes expr full)
    (mentions : expr.Mentions name) : scope.Grounded name := by
  -- The replacement itself has come to an end on every way through the definitions.
  induction substitutes generalizing name with
  | number value => exact absurd mentions (Expr.not_mentions_num value name)
  | free unbound =>
    rw [← Expr.mentions_var.mp mentions]
    exact grounded_of_unbound unbound
  | binding bound _ ih =>
    rw [← Expr.mentions_var.mp mentions]
    exact grounded_of_value bound fun _ used => ih used
  | @operation _ operands fulls sizes _ ih =>
    obtain ⟨operand, member, inside⟩ := Expr.mentions_op.mp mentions
    -- The operand stands beside its own replacement.
    obtain ⟨index, within, rfl⟩ := List.mem_iff_getElem.mp member
    have paired : (operands[index], fulls[index]) ∈ operands.zip fulls := by
      have beside : index < (operands.zip fulls).length := by
        rw [List.length_zip]
        omega
      exact List.mem_of_getElem (h := beside) List.getElem_zip
    exact ih paired inside

/-- All bound variables of an expression can be replaced if they can one by one. -/
theorem exists_substitutes_of_vars
    (vars : ∀ name, expr.Mentions name → ∃ full, scope.Substitutes (.var name) full) :
    ∃ full, scope.Substitutes expr full := by
  induction expr with
  | num value => exact ⟨.num value, .number value⟩
  | var name => exact vars name (Expr.mentions_var.mpr rfl)
  | op name operands ih =>
    -- The replaced operands are put together from the last one on.
    have operandwise : ∃ fulls, List.Forall₂ scope.Substitutes operands fulls := by
      have each : ∀ operand ∈ operands, ∃ full, scope.Substitutes operand full := by
        intro operand member
        refine ih operand member fun used inside => ?_
        exact vars used (Expr.mentions_op.mpr ⟨operand, member, inside⟩)
      clear ih vars
      induction operands with
      | nil => exact ⟨[], .nil⟩
      | cons first rest rest_ih =>
        rw [List.forall_mem_cons] at each
        obtain ⟨full, head⟩ := each.1
        obtain ⟨fulls, tail⟩ := rest_ih each.2
        exact ⟨full :: fulls, .cons head tail⟩
    obtain ⟨fulls, operandwise⟩ := operandwise
    exact ⟨.op name fulls, substitutes_op_iff.mpr ⟨fulls, operandwise, rfl⟩⟩

/-- A grounded variable can be replaced. -/
theorem Grounded.exists_substitutes (grounded : scope.Grounded name) :
    ∃ full, scope.Substitutes (.var name) full := by
  -- The induction follows the definitions to their end.
  induction grounded with
  | intro name _ ih =>
    cases bound : scope.get? name with
    | none => exact ⟨.var name, .free bound⟩
    | some value =>
      have inner : ∃ full, scope.Substitutes value full := by
        refine exists_substitutes_of_vars fun used mentions => ?_
        -- A variable in the value is used by the name if it is bound itself.
        cases usedBound : scope.get? used with
        | none => exact ⟨.var used, .free usedBound⟩
        | some _ => exact ih used ⟨value, bound, mentions, by simp [usedBound]⟩
      obtain ⟨full, inner⟩ := inner
      exact ⟨full, .binding bound inner⟩

/-- Simplifying an expression is simplifying it without variables once all bound ones are
replaced. -/
theorem Substitutes.simplify_eq (mode : Mode) (substitutes : scope.Substitutes expr full) :
    simplify mode scope expr = simplify mode .empty full := by
  induction substitutes with
  | number value => rfl
  | free unbound => exact (expand_of_unbound unbound).trans (expand_of_unbound rfl).symm
  | @binding name value full bound inner ih =>
    -- The variable is grounded, so that its value is simplified as if it stood alone.
    have grounded := grounded_of_value bound fun _ => inner.grounded
    rw [← simplify_value_of_grounded bound grounded, ih]
  | @operation name operands fulls sizes _ ih =>
    -- Operands come to the same one by one, failures included, and are folded alike.
    have operandwise : operands.mapM (simplify mode scope) = fulls.mapM (simplify mode .empty) :=
      mapM_eq_of_forall₂ (List.forall₂_iff_zip.mpr ⟨sizes, ih⟩)
    exact (reduce_op name operands).trans <|
      (congrArg (· >>= fold mode name) operandwise).trans (reduce_op name fulls).symm

end Scope

section Presimplification

variable {scope changed : Scope} {limit : Nat} {expanding : List String} {name : String}

/-- Some values have been simplified symbolically beforehand, and all others are the same. -/
def Scope.Presimplifies (scope changed : Scope) : Prop :=
  ∀ name, changed.get? name = scope.get? name ∨
    ∃ value result, scope.get? name = some value ∧ changed.get? name = some result ∧
      simplify .symbolic scope value = .ok result

/-- The same variables are bound. -/
theorem Scope.Presimplifies.get?_eq_none (presimplifies : scope.Presimplifies changed)
    (unbound : scope.get? name = none) : changed.get? name = none := by
  -- The name was bound to the same before, or it was bound to something.
  rcases presimplifies name with same | ⟨value, _, bound, _⟩
  · rw [same, unbound]
  · rw [unbound] at bound
    cases bound

/-- A value that can be simplified is simplified alike while its variable is being expanded, as long
as the variables being expanded lead to it. -/
theorem reduce_value_of_simplify {value result : Expr} {mode : Mode}
    (bound : scope.get? name = some value) (simplified : simplify mode scope value = .ok result)
    (covered : (scope.pending (name :: expanding)).length ≤ limit)
    (path : ∀ earlier ∈ expanding, TransGen scope.Uses earlier name) :
    value.reduce mode (expand mode scope limit (name :: expanding)) = .ok result := by
  rw [← simplified, simplify]
  -- A result means that the variable is grounded, so nothing in the value leads back to it.
  have grounded := Scope.grounded_of_value bound fun _ => grounded_of_simplify simplified
  refine reduce_value_congr bound fun used uses => ?_
  refine expand_congr covered (scope.length_pending_le []) fun reached leads => ?_
  have apart : reached ∉ name :: expanding := by
    intro member
    have back : ReflTransGen scope.Uses reached name := by
      rcases List.mem_cons.mp member with rfl | before
      · exact .refl
      · exact (path reached before).to_reflTransGen
    exact grounded.not_circular .refl (.head' uses (leads.trans back))
  simp [apart]

/-- Values that were simplified symbolically beforehand do not change precise expansions, as long as
the variables being expanded lead to the one at hand and the limit covers those that are pending. -/
theorem expand_presimplified (presimplifies : scope.Presimplifies changed)
    (covered : (scope.pending expanding).length ≤ limit)
    (path : ∀ earlier ∈ expanding, TransGen scope.Uses earlier name) :
    expand .precise changed limit expanding name = expand .precise scope limit expanding name := by
  -- Both expansions follow the definitions as they were, up to a value that was simplified.
  induction limit, expanding, name using expand_induction scope with
  | unbound limit expanding name unbound =>
    rw [expand_of_unbound unbound, expand_of_unbound (presimplifies.get?_eq_none unbound)]
  | blocked limit expanding name value bound blocked =>
    rcases presimplifies name with same | ⟨_, _, _, again, _⟩
    · rw [expand_of_blocked bound blocked, expand_of_blocked (same.trans bound) blocked]
    · rw [expand_of_blocked bound blocked, expand_of_blocked again blocked]
  | fresh limit expanding name value bound fresh ih =>
    have fewer := Scope.length_pending_cons bound fresh
    rcases presimplifies name with same | ⟨found, result, was, now, simplified⟩
    · -- The value is the same, and its variables lead one step further.
      rw [expand_succ_of_fresh bound fresh, expand_succ_of_fresh (same.trans bound) fresh]
      refine reduce_congr fun used mentions => ?_
      cases usedBound : scope.get? used with
      | none =>
        rw [expand_of_unbound usedBound, expand_of_unbound (presimplifies.get?_eq_none usedBound)]
      | some _ =>
        have uses : scope.Uses name used := ⟨value, bound, mentions, by simp [usedBound]⟩
        exact ih used (by omega) (Scope.transGen_uses_cons path uses)
    · -- What was simplified symbolically still has the precise result of the value.
      rw [was] at bound
      cases bound
      have reduced : value.reduce .symbolic (expand .symbolic scope limit (name :: expanding)) =
          .ok result := reduce_value_of_simplify was simplified (by omega) path
      rw [expand_succ_of_fresh was fresh, expand_succ_of_fresh now fresh]
      refine reduce_precise_of_symbolic (fun used _ expanded => ?_) reduced
      refine expand_precise_of_symbolic (fun unused unbound => ?_) expanded
      exact expand_of_unbound (presimplifies.get?_eq_none unbound)

/-- Values that were simplified symbolically beforehand change no precise result and no number. -/
theorem Scope.Presimplifies.simplify_eq (presimplifies : scope.Presimplifies changed)
    (sameCount : changed.bindingCount = scope.bindingCount) (expr : Expr) :
    simplify .precise changed expr = simplify .precise scope expr ∧
      toNumber changed expr = toNumber scope expr := by
  have simplified : simplify .precise changed expr = simplify .precise scope expr := by
    rw [simplify, simplify, sameCount]
    refine reduce_congr fun name _ => ?_
    exact expand_presimplified presimplifies (scope.length_pending_le []) (by simp)
  refine ⟨simplified, ?_⟩
  -- A number is demanded of the precise result alone.
  rw [toNumber, toNumber, simplified]

end Presimplification

section Rebinding

variable {scope changed : Scope} {inner outer : List Frame} {frame : Frame} {name : String}
  {value result : Expr}

/-- A name that has a value keeps its place when it gets another one. -/
theorem Frame.names_insert (bound : frame.get? name = some value) (result : Expr) :
    (frame.insert name result).names = frame.names := by
  obtain ⟨entries⟩ := frame
  simp only [Frame.get?, Frame.insert, Frame.names] at bound ⊢
  -- The entries in front of the name are passed one by one.
  induction entries with
  | nil => cases bound
  | cons entry rest ih =>
    rw [Frame.put]
    by_cases found : entry.1 = name
    · rw [if_pos found]
      simp [found]
    · have passed : (name == entry.1) = false := beq_false_of_ne (Ne.symm found)
      rw [List.lookup_cons, passed] at bound
      rw [if_neg found, List.map_cons, List.map_cons, ih bound]

/-- Simplifying one binding symbolically, in whichever frame, presimplifies the variables. -/
theorem Scope.presimplifies_of_frames (frames : scope.frames = inner ++ frame :: outer)
    (bound : frame.get? name = some value)
    (simplified : simplify .symbolic scope value = .ok result)
    (rebound : changed.frames = inner ++ frame.insert name result :: outer) :
    scope.Presimplifies changed := by
  intro other
  rw [Scope.get?, Scope.get?, frames, rebound, List.findSome?_append, List.findSome?_append,
    List.findSome?_cons, List.findSome?_cons, Frame.get?_insert]
  by_cases same : other = name
  · -- A frame further in may hide the binding, and then it does not matter.
    subst same
    rw [if_pos rfl, bound]
    cases inner.findSome? (·.get? other) with
    | some hidden => exact .inl rfl
    | none => exact .inr ⟨value, result, rfl, rfl, simplified⟩
  · rw [if_neg same]
    exact .inl rfl

/-- Rebinding a name changes the number of bindings nowhere. -/
theorem Scope.bindingCount_of_frames (frames : scope.frames = inner ++ frame :: outer)
    (bound : frame.get? name = some value)
    (rebound : changed.frames = inner ++ frame.insert name result :: outer) :
    changed.bindingCount = scope.bindingCount := by
  -- The changed frame has the names that it had before.
  simp only [Scope.bindingCount, frames, rebound, List.flatMap_append, List.flatMap_cons,
    Frame.names_insert bound]

end Rebinding

/--
Simplification is substitution followed by folding.

If no variable of the expression leads into a cycle, there is exactly one way to replace all bound
variables, and in both modes the expression simplifies to what the replaced one simplifies to
without any variables, failures included. And a binding of any frame may be simplified symbolically
beforehand: this changes no precise result and no number, whatever the expression.
-/
theorem simplify_substitutes_then_folds (scope : Scope) :
    (∀ expr, (¬ ∃ circular, scope.LeadsTo expr circular) →
      ∃ full, scope.Substitutes expr full ∧ (∀ other, scope.Substitutes expr other → other = full) ∧
        ∀ mode, simplify mode scope expr = simplify mode .empty full) ∧
    ∀ (inner outer : List Frame) (frame : Frame) (name : String) (value result : Expr)
      (changed : Scope), scope.frames = inner ++ frame :: outer → frame.get? name = some value →
      simplify .symbolic scope value = .ok result →
      changed.frames = inner ++ frame.insert name result :: outer →
      ∀ expr, simplify .precise changed expr = simplify .precise scope expr ∧
        toNumber changed expr = toNumber scope expr := by
  constructor
  · intro expr acyclic
    -- Without a cycle symbolic simplification succeeds, which only grounded variables allow.
    have grounded : ∀ name, expr.Mentions name → scope.Grounded name := by
      intro name mentions
      cases simplified : simplify .symbolic scope expr with
      | ok result => exact grounded_of_simplify simplified mentions
      | error cause =>
        obtain ⟨circular, leads, _⟩ := circular_of_simplify simplified
        exact absurd ⟨circular, leads⟩ acyclic
    obtain ⟨full, substitutes⟩ := Scope.exists_substitutes_of_vars
      fun name mentions => (grounded name mentions).exists_substitutes
    exact ⟨full, substitutes, fun _ => substitutes.unique, fun mode => substitutes.simplify_eq mode⟩
  · intro inner outer frame name value result changed frames bound simplified rebound
    exact (Scope.presimplifies_of_frames frames bound simplified rebound).simplify_eq
      (Scope.bindingCount_of_frames frames bound rebound)

/-- A quotient of two variables, one of which is bound further in too. There it is a number, while
the outer binding leads back to the quotient. -/
private def layeredScope : Scope :=
  ⟨[⟨[("y", .num 1)]⟩], ⟨[("x", .op "/" [.var "y", .var "z"]), ("y", .var "x"), ("z", .num 0)]⟩⟩

/-- The quotient fails as it does once its innermost values are put in, also if this was done
beforehand. -/
theorem simplify_substitutes_then_folds_layers :
    layeredScope.Substitutes (.var "x") (.op "/" [.num 1, .num 0]) ∧
    simplify .precise layeredScope (.var "x") = .error (.divisionByZero 1) ∧
    toNumber ⟨layeredScope.locals, layeredScope.globals.insert "x" (.op "/" [.num 1, .num 0])⟩
      (.op "sin" [.var "x"]) = .error (.divisionByZero 1) := by
  -- The substitution of the variable is unique, and folding it divides by zero.
  obtain ⟨substitution, rebinding⟩ := simplify_substitutes_then_folds layeredScope
  have simplified : simplify .symbolic layeredScope (.op "/" [.var "y", .var "z"]) =
      .ok (.op "/" [.num 1, .num 0]) := rfl
  have substitutes : layeredScope.Substitutes (.var "x") (.op "/" [.num 1, .num 0]) :=
    .binding rfl (Scope.substitutes_op_iff.mpr ⟨[.num 1, .num 0],
      .cons (.binding rfl (.number 1)) (.cons (.binding rfl (.number 0)) .nil), rfl⟩)
  have acyclic : ¬ ∃ circular, layeredScope.LeadsTo (.var "x") circular := by
    rintro ⟨circular, name, mentions, _, leads, cycle⟩
    exact (substitutes.grounded mentions).not_circular leads cycle
  obtain ⟨full, _, unique, folds⟩ := substitution (.var "x") acyclic
  refine ⟨substitutes, ?_, ?_⟩
  · rw [folds, ← unique _ substitutes]
    rfl
  · have rebound := rebinding layeredScope.locals [] layeredScope.globals "x" _ _
      ⟨layeredScope.locals, layeredScope.globals.insert "x" (.op "/" [.num 1, .num 0])⟩
      rfl rfl simplified rfl (.op "sin" [.var "x"])
    rw [rebound.2]
    rfl

end Calculator
