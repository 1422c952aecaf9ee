import Calculator.Scope
import Mathlib.Data.List.Forall2

/-! The names that frames bind, and what assignments and loops may change about them. -/

namespace Calculator

/-- Filtering a name away does not hide another. -/
theorem lookup_filter {α : Type} {name other : String} (apart : other ≠ name)
    (entries : List (String × α)) :
    (entries.filter (·.1 != name)).lookup other = entries.lookup other := by
  induction entries with
  | nil => rfl
  | cons entry rest ih =>
    obtain ⟨first, value⟩ := entry
    by_cases dropped : first = name
    · -- An entry that is dropped is not the one that is looked for.
      subst dropped
      have passed : (other == first) = false := beq_false_of_ne apart
      simp [List.lookup_cons, passed, ih]
    · simp [dropped, List.lookup_cons, ih]

namespace Frame

/-- Putting a value changes what is found under its name alone. -/
theorem lookup_put (name other : String) (value : Expr) (entries : List (String × Expr)) :
    (put name value entries).lookup other =
      if other = name then some value else entries.lookup other := by
  -- The entries are passed one by one, up to the one with the name or to the end.
  induction entries with
  | nil =>
    by_cases same : other = name
    · simp [put, same]
    · simp [put, List.lookup_cons, same, beq_false_of_ne same]
  | cons entry rest ih =>
    obtain ⟨first, old⟩ := entry
    rw [put]
    by_cases found : first = name
    · -- The value is put in the place of the old one, which the name alone decides.
      subst found
      by_cases same : other = first
      · simp [same]
      · simp [List.lookup_cons, same, beq_false_of_ne same]
    · rw [if_neg found]
      by_cases same : other = first
      · simp [same, found]
      · simp [List.lookup_cons, beq_false_of_ne same, ih]

/-- Giving a name a value leaves the values of all others. -/
theorem get?_insert (frame : Frame) (name other : String) (value : Expr) :
    (frame.insert name value).get? other = if other = name then some value else frame.get? other :=
  lookup_put name other value frame.entries

/-- Giving a name a value binds this name and no other. -/
theorem contains_insert (frame : Frame) (name other : String) (value : Expr) :
    (frame.insert name value).contains other = (other == name || frame.contains other) := by
  -- The name is the inserted one, or it is looked up as before.
  rw [contains, get?_insert]
  by_cases same : other = name
  · simp [same]
  · simp [same, contains]

/-- Taking a name's value away leaves the values of all others. -/
theorem get?_erase (frame : Frame) (name other : String) :
    (frame.erase name).get? other = if other = name then none else frame.get? other := by
  -- Only the entries of the erased name are gone.
  rw [get?, erase]
  split
  · next same =>
    subst same
    rw [List.lookup_eq_none_iff]
    intro entry kept
    rw [bne_comm]
    exact (List.mem_filter.mp kept).2
  · next apart => exact lookup_filter apart frame.entries

/-- The frames bind the same names. -/
def SameNames (before after : Frame) : Prop := ∀ name, after.contains name = before.contains name

/-- A name that is bound can get another value. -/
theorem sameNames_insert {frame : Frame} {name : String} (bound : frame.contains name = true)
    (value : Expr) : SameNames frame (frame.insert name value) := by
  -- The inserted name was bound before, and no other is touched.
  intro other
  rw [contains_insert]
  by_cases same : other = name
  · simp [same, bound]
  · simp [same]

/-- A frame binds the names that it binds. -/
theorem SameNames.refl (frame : Frame) : SameNames frame frame := fun _ => rfl

/-- Names that are the same twice are the same. -/
theorem SameNames.trans {first second third : Frame} (left : SameNames first second)
    (right : SameNames second third) : SameNames first third :=
  fun name => (right name).trans (left name)

end Frame

namespace Scope

open Calculator.Frame (SameNames)

/-- Some frame above the global one binds the name. -/
def bindsLocally (scope : Scope) (name : String) : Bool := scope.locals.any (·.contains name)

/-- A name is bound locally or globally. -/
theorem contains_eq (scope : Scope) (name : String) :
    scope.contains name = (scope.bindsLocally name || scope.globals.contains name) := by
  -- The globals come last in the list of frames.
  simp [contains, frames, bindsLocally]

/-- Frames that are related twice, one by one, are related. -/
theorem forall₂_trans {related : Frame → Frame → Prop} {first second third : List Frame}
    (trans : ∀ {a b c}, related a b → related b c → related a c)
    (left : List.Forall₂ related first second) (right : List.Forall₂ related second third) :
    List.Forall₂ related first third := by
  -- The stacks are as deep as each other, so they are followed together.
  induction left generalizing third with
  | nil => exact right
  | cons frame _ ih =>
    cases right with
    | cons next rest => exact .cons (trans frame next) (ih rest)

/-- Stacks whose frames bind the same names bind the same names. -/
theorem any_contains_of_forall₂ {before after : List Frame}
    (same : List.Forall₂ SameNames before after) (name : String) :
    after.any (·.contains name) = before.any (·.contains name) := by
  -- By induction on the frames, of which each has the same names after as before.
  induction same with
  | nil => rfl
  | cons frame _ ih => rw [List.any_cons, List.any_cons, ih, frame name]

/--
What an evaluation may do to the variables.

Local frames keep their names and the global frame keeps its own; a name that is new there is an
assigned one that no local frame binds.
-/
structure Keeps (assigned : String → Prop) (before after : Scope) : Prop where
  locals : List.Forall₂ SameNames before.locals after.locals
  globals : ∀ name, before.globals.contains name = true → after.globals.contains name = true
  fresh : ∀ name, after.globals.contains name = true → before.globals.contains name = false →
    assigned name ∧ before.bindsLocally name = false

namespace Keeps

variable {assigned wider : String → Prop} {first second third : Scope}

/-- The local frames together bind what they bound. -/
theorem bindsLocally (keeps : first.Keeps assigned second) (name : String) :
    second.bindsLocally name = first.bindsLocally name :=
  any_contains_of_forall₂ keeps.locals name

/-- Doing nothing keeps the variables. -/
theorem refl (scope : Scope) : scope.Keeps assigned scope where
  locals := List.forall₂_same.2 fun frame _ => SameNames.refl frame
  globals := fun _ bound => bound
  fresh := fun _ bound unbound => absurd bound (by simp [unbound])

/-- Two steps that keep the variables keep them together. -/
theorem trans (left : first.Keeps assigned second) (right : second.Keeps assigned third) :
    first.Keeps assigned third where
  locals := forall₂_trans SameNames.trans left.locals right.locals
  globals := fun name bound => right.globals name (left.globals name bound)
  fresh := by
    intro name bound unbound
    -- The name is new in one of the two steps, and the local frames bind the same at both.
    cases between : second.globals.contains name with
    | true => exact left.fresh name between unbound
    | false =>
      obtain ⟨isAssigned, notLocal⟩ := right.fresh name bound between
      exact ⟨isAssigned, (left.bindsLocally name).symm.trans notLocal⟩

/-- More names may be assigned. -/
theorem mono (keeps : first.Keeps assigned second) (more : ∀ name, assigned name → wider name) :
    first.Keeps wider second where
  -- The frames do not speak of the assigned names; only the fresh globals do.
  locals := keeps.locals
  globals := keeps.globals
  fresh := by
    intro name bound unbound
    obtain ⟨isAssigned, notLocal⟩ := keeps.fresh name bound unbound
    exact ⟨more name isAssigned, notLocal⟩

/-- Variables that are kept stand in as many frames. -/
theorem depth_eq (keeps : first.Keeps assigned second) : second.depth = first.depth := by
  -- The local frames are paired one by one.
  rw [depth, depth, keeps.locals.length_eq]

end Keeps

/-- Changing the innermost binder of a name leaves every frame related to what it was, if the change
does. -/
theorem forall₂_of_modifyBinder? {related : Frame → Frame → Prop} {name : String}
    {change : Frame → Frame} {before after : List Frame}
    (changed : modifyBinder? name change before = some after)
    (refl : ∀ frame, related frame frame)
    (same : ∀ frame : Frame, frame.contains name = true → related frame (change frame)) :
    List.Forall₂ related before after := by
  -- The frames inside the binder and those around it are left as they are.
  induction before generalizing after with
  | nil => exact nomatch changed
  | cons frame outer ih =>
    rw [modifyBinder?] at changed
    split at changed
    · rename_i bound
      obtain rfl := Option.some.inj changed
      exact .cons (same frame bound) (List.forall₂_same.2 fun frame _ => refl frame)
    · obtain ⟨rest, found, rfl⟩ := Option.map_eq_some_iff.1 changed
      exact .cons (refl frame) (ih found)

/-- Where no binder is found, no frame binds the name. -/
theorem any_contains_of_modifyBinder? {name : String} {change : Frame → Frame}
    {frames : List Frame} (none : modifyBinder? name change frames = none) :
    frames.any (·.contains name) = false := by
  -- Every frame was passed because it does not bind the name.
  induction frames with
  | nil => rfl
  | cons frame outer ih =>
    rw [modifyBinder?] at none
    split at none
    · exact nomatch none
    · rename_i unbound
      rw [List.any_cons, ih (Option.map_eq_none_iff.1 none)]
      simpa using unbound

/-- An assignment binds at most its own name, and only globally. -/
theorem keeps_assign {assigned : String → Prop} {name : String} (isAssigned : assigned name)
    (scope : Scope) (value : Expr) : scope.Keeps assigned (scope.assign name value) := by
  unfold assign modifyBinder
  split
  · -- A local binder only gets another value.
    rename_i found
    have same := forall₂_of_modifyBinder? found SameNames.refl fun frame bound =>
      Frame.sameNames_insert bound value
    exact { locals := same, globals := fun _ bound => bound
            fresh := fun _ bound unbound => absurd bound (by simp [unbound]) }
  · -- Without a local binder the name may be new in the global frame.
    rename_i none
    refine ⟨List.forall₂_same.2 fun frame _ => SameNames.refl frame, ?_, ?_⟩
    · intro other bound
      simp [Frame.contains_insert, bound]
    · intro other bound unbound
      simp only [Frame.contains_insert, unbound, Bool.or_false, beq_iff_eq] at bound
      subst bound
      exact ⟨isAssigned, any_contains_of_modifyBinder? none⟩

/-- The state of a loop that has entered a frame for its variable: without this frame the
variables are kept, and the loop's variable is not bound. -/
structure Inside (assigned : String → Prop) (name : String) (before scope : Scope) : Prop where
  entered : scope.locals ≠ []
  kept : before.Keeps assigned scope.pop
  unbound : scope.pop.contains name = false

namespace Inside

variable {assigned : String → Prop} {name : String} {before scope after : Scope}

/-- A loop enters with a variable that is not bound. -/
theorem push (unbound : before.contains name = false) :
    Inside assigned name before before.push :=
  ⟨by simp [Scope.push], Keeps.refl before, unbound⟩

/-- Setting the loop's variable and evaluating the body leaves the loop in such a state, even if
the body assigns the variable: the frame of the loop binds it first. -/
theorem visit (inside : Inside assigned name before scope) {value : Expr}
    (keeps : (scope.bindLocal name value).Keeps assigned after) :
    Inside assigned name before after := by
  -- The innermost frame is the loop's own, and the others are those that the loop started with.
  obtain ⟨entered, kept, unbound⟩ := inside
  obtain ⟨innermost, outer, split⟩ := List.exists_cons_of_ne_nil entered
  have bound : scope.bindLocal name value =
      ⟨innermost.insert name value :: outer, scope.globals⟩ := by
    simp [bindLocal, split]
  rw [bound] at keeps
  have outside : scope.pop = ⟨outer, scope.globals⟩ := by
    simp [pop, split]
  rw [outside] at kept unbound
  obtain ⟨locals, globals⟩ := after
  obtain ⟨sameLocals, keptGlobals, fresh⟩ := keeps
  cases sameLocals with
  | @cons _ top _ rest sameTop sameRest =>
    -- Names that are new in the global frame are bound in none of the frames, the loop's included.
    have step : (Scope.mk outer scope.globals).Keeps assigned ⟨rest, globals⟩ := by
      refine ⟨sameRest, keptGlobals, ?_⟩
      intro other boundNow unboundThen
      obtain ⟨isAssigned, notLocal⟩ := fresh other boundNow unboundThen
      simp only [bindsLocally, List.any_cons, Bool.or_eq_false_iff] at notLocal ⊢
      exact ⟨isAssigned, notLocal.2⟩
    -- An assignment to the loop's variable ends in the loop's frame, so it is not bound globally.
    rw [contains_eq, Bool.or_eq_false_iff] at unbound
    have notGlobal : globals.contains name = false := by
      by_contra boundNow
      obtain ⟨_, notLocal⟩ := fresh name (by simpa using boundNow) unbound.2
      simp [bindsLocally, Frame.contains_insert] at notLocal
    refine ⟨by simp, kept.trans step, ?_⟩
    rw [contains_eq, Bool.or_eq_false_iff]
    exact ⟨(step.bindsLocally name).trans unbound.1, notGlobal⟩

end Inside

end Scope

end Calculator
