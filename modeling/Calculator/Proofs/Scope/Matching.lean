import Calculator.Proofs.Expr.Matching
import Calculator.Proofs.Scope.Names
import Mathlib.Data.Option.Basic
import Mathlib.Logic.Relator

/-! Variables that match: paired names have matching values, frame by frame. -/

namespace Calculator

open Relator (BiUnique)

variable {names : String → String → Prop}

namespace Frame

/-- Paired names have matching values, or neither has a value. -/
def Matches (names : String → String → Prop) (frame other : Frame) : Prop :=
  ∀ name paired, names name paired →
    Option.Rel (Expr.Matches names) (frame.get? name) (other.get? paired)

namespace Matches

variable {frame other : Frame} {name paired : String}

/-- Frames without bindings match. -/
theorem empty : Matches names Frame.empty Frame.empty := fun _ _ _ => .none

/-- Paired names are bound together. -/
theorem contains (matching : Matches names frame other) (isPaired : names name paired) :
    frame.contains name = other.contains paired := by
  -- A frame contains the names for which it has a value.
  have values := matching name paired isPaired
  rw [Frame.contains, Frame.contains]
  generalize frame.get? name = left at values ⊢
  generalize other.get? paired = right at values ⊢
  cases values <;> rfl

/-- Giving paired names matching values changes nothing else. -/
theorem insert (unique : BiUnique names) (matching : Matches names frame other)
    (isPaired : names name paired) {value replacement : Expr}
    (values : Expr.Matches names value replacement) :
    Matches names (frame.insert name value) (other.insert paired replacement) := by
  intro used counterpart also
  rw [get?_insert, get?_insert]
  -- A name is the one that is bound exactly when its partner is.
  have together : used = name ↔ counterpart = paired := Relator.rel_eq unique also isPaired
  by_cases same : used = name
  · rw [if_pos same, if_pos (together.mp same)]
    exact .some values
  · rw [if_neg same, if_neg (mt together.mpr same)]
    exact matching used counterpart also

end Matches

end Frame

namespace Scope

/-- The frames match one by one. -/
structure Matches (names : String → String → Prop) (scope other : Scope) : Prop where
  locals : List.Forall₂ (Frame.Matches names) scope.locals other.locals
  globals : Frame.Matches names scope.globals other.globals

variable {scope other : Scope} {name paired : String}

/-- Frames are related one by one exactly when the local ones and the global ones are. -/
theorem forall₂_frames {related : Frame → Frame → Prop} :
    List.Forall₂ related scope.frames other.frames ↔
      List.Forall₂ related scope.locals other.locals ∧ related scope.globals other.globals := by
  -- Seen from the outermost frame, the global one is the first.
  rw [← List.forall₂_reverse_iff]
  simp [frames, and_comm, List.forall₂_reverse_iff]

/-- Stacks that match are searched alike. -/
theorem findSome?_matches {frames others : List Frame}
    (matching : List.Forall₂ (Frame.Matches names) frames others) (isPaired : names name paired) :
    Option.Rel (Expr.Matches names) (frames.findSome? (·.get? name))
      (others.findSome? (·.get? paired)) := by
  -- A frame is passed on one side exactly when it is on the other.
  induction matching with
  | nil => exact .none
  | @cons frame counterpart _ _ head _ ih =>
    have values := head name paired isPaired
    rw [List.findSome?_cons, List.findSome?_cons]
    generalize frame.get? name = left at values ⊢
    generalize counterpart.get? paired = right at values ⊢
    cases values with
    | some found => exact .some found
    | none => exact ih

/-- The innermost binders of paired names stand in the same place. -/
theorem modifyBinder?_matches {frames others : List Frame} {change update : Frame → Frame}
    (matching : List.Forall₂ (Frame.Matches names) frames others) (isPaired : names name paired)
    (changes : ∀ {frame other : Frame}, Frame.Matches names frame other →
      Frame.Matches names (change frame) (update other)) :
    Option.Rel (List.Forall₂ (Frame.Matches names)) (modifyBinder? name change frames)
      (modifyBinder? paired update others) := by
  induction matching with
  | nil => exact .none
  | cons head outer ih =>
    rw [modifyBinder?, modifyBinder?, head.contains isPaired]
    split
    · exact .some (.cons (changes head) outer)
    · -- The frame is kept, and the binder lies further out or nowhere.
      generalize modifyBinder? name change _ = left at ih ⊢
      generalize modifyBinder? paired update _ = right at ih ⊢
      cases ih with
      | some rest => exact .some (.cons head rest)
      | none => exact .none

namespace Matches

/-- All frames match, the global one too. -/
theorem frames (matching : Matches names scope other) :
    List.Forall₂ (Frame.Matches names) scope.frames other.frames :=
  forall₂_frames.mpr ⟨matching.locals, matching.globals⟩

/-- Frames that match one by one make up variables that match. -/
theorem of_frames (matching : List.Forall₂ (Frame.Matches names) scope.frames other.frames) :
    Matches names scope other :=
  ⟨(forall₂_frames.mp matching).1, (forall₂_frames.mp matching).2⟩

/-- Paired names have matching values. -/
theorem get? (matching : Matches names scope other) (isPaired : names name paired) :
    Option.Rel (Expr.Matches names) (scope.get? name) (other.get? paired) :=
  findSome?_matches matching.frames isPaired

/-- A value of a name is matched by one of its partner. -/
theorem exists_value (matching : Matches names scope other) (isPaired : names name paired)
    {value : Expr} (bound : scope.get? name = some value) :
    ∃ partner, other.get? paired = some partner ∧ Expr.Matches names value partner := by
  -- The values match, so there is one on both sides.
  have values := matching.get? isPaired
  rw [bound] at values
  generalize other.get? paired = found at values ⊢
  cases values with
  | some matching => exact ⟨_, rfl, matching⟩

/-- The partner of a name without a value has none. -/
theorem get?_eq_none (matching : Matches names scope other) (isPaired : names name paired)
    (unbound : scope.get? name = none) : other.get? paired = none := by
  -- The values match, so there is none on both sides.
  have values := matching.get? isPaired
  rw [unbound] at values
  generalize other.get? paired = found at values ⊢
  cases values
  rfl

/-- Paired names are bound together. -/
theorem contains (matching : Matches names scope other) (isPaired : names name paired) :
    scope.contains name = other.contains paired := by
  -- By induction on the frames, which match one by one.
  have each := matching.frames
  rw [Scope.contains, Scope.contains]
  generalize scope.frames = left at each ⊢
  generalize other.frames = right at each ⊢
  induction each with
  | nil => rfl
  | cons head _ ih => rw [List.any_cons, List.any_cons, head.contains isPaired, ih]

/-- Assigning matching values to paired names changes matching frames. -/
theorem assign (unique : BiUnique names) (matching : Matches names scope other)
    (isPaired : names name paired) {value replacement : Expr}
    (values : Expr.Matches names value replacement) :
    Matches names (scope.assign name value) (other.assign paired replacement) := by
  -- Either both have a local frame with the name, or both take the globals.
  have binders := modifyBinder?_matches matching.locals isPaired
    fun matching => Frame.Matches.insert unique matching isPaired values
  rw [Scope.assign, Scope.assign, modifyBinder, modifyBinder]
  generalize modifyBinder? name _ scope.locals = left at binders ⊢
  generalize modifyBinder? paired _ other.locals = right at binders ⊢
  cases binders with
  | some locals => exact ⟨locals, matching.globals⟩
  | none => exact ⟨matching.locals, matching.globals.insert unique isPaired values⟩

/-- Binding paired names to matching values changes the innermost frames. -/
theorem bindLocal (unique : BiUnique names) (matching : Matches names scope other)
    (isPaired : names name paired) {value replacement : Expr}
    (values : Expr.Matches names value replacement) :
    Matches names (scope.bindLocal name value) (other.bindLocal paired replacement) := by
  -- The innermost frame takes the name, or the globals do where there is none.
  obtain ⟨locals, globals⟩ := matching
  rw [Scope.bindLocal, Scope.bindLocal]
  generalize scope.locals = left at locals ⊢
  generalize other.locals = right at locals ⊢
  cases locals with
  | nil => exact ⟨.nil, globals.insert unique isPaired values⟩
  | cons head outer => exact ⟨.cons (head.insert unique isPaired values) outer, globals⟩

/-- A frame is entered on both sides. -/
theorem push (matching : Matches names scope other) : Matches names scope.push other.push :=
  ⟨.cons .empty matching.locals, matching.globals⟩

/-- A frame is left on both sides. -/
theorem pop (matching : Matches names scope other) : Matches names scope.pop other.pop := by
  -- Both lose their innermost frame, if there is one.
  obtain ⟨locals, globals⟩ := matching
  rw [Scope.pop, Scope.pop]
  refine ⟨?_, globals⟩
  generalize scope.locals = left at locals ⊢
  generalize other.locals = right at locals ⊢
  cases locals with
  | nil => exact .nil
  | cons _ outer => exact outer

end Matches

end Scope

end Calculator
