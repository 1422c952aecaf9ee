import Calculator.Expr.Basic

/-! Variables and their values, in frames that local bindings come and go with. -/

namespace Calculator

/-- Bindings of names to values. A name has at most one value in force, its first. -/
structure Frame where
  entries : List (String × Expr)

namespace Frame

/-- No bindings. -/
def empty : Frame := ⟨[]⟩

/-- The value of a name. -/
def get? (frame : Frame) (name : String) : Option Expr := frame.entries.lookup name

/-- The name has a value. -/
def contains (frame : Frame) (name : String) : Bool := (frame.get? name).isSome

/-- Puts a value in the place of a name's old one, or at the end. -/
def put (name : String) (value : Expr) : List (String × Expr) → List (String × Expr)
  | [] => [(name, value)]
  | entry :: rest =>
    if entry.1 = name then (name, value) :: rest else entry :: put name value rest

/-- Gives a name a value. -/
def insert (frame : Frame) (name : String) (value : Expr) : Frame :=
  ⟨put name value frame.entries⟩

/-- Takes a name's value away. -/
def erase (frame : Frame) (name : String) : Frame :=
  ⟨frame.entries.filter (·.1 != name)⟩

/-- The bound names, in no order of meaning. -/
def names (frame : Frame) : List String := frame.entries.map (·.1)

end Frame

/-- A stack of frames over a global one. -/
structure Scope where
  /-- The frames of the constructs being evaluated, the innermost first. -/
  locals : List Frame
  /-- The frame that outlives every evaluation. -/
  globals : Frame

namespace Scope

/-- Nothing is bound, and only the global frame is there. -/
def empty : Scope := ⟨[], .empty⟩

/-- All frames, the innermost first. -/
def frames (scope : Scope) : List Frame := scope.locals ++ [scope.globals]

/-- The innermost value of a name. -/
def get? (scope : Scope) (name : String) : Option Expr :=
  scope.frames.findSome? (·.get? name)

/-- Some frame binds the name. -/
def contains (scope : Scope) (name : String) : Bool := scope.frames.any (·.contains name)

/-- Changes the innermost of some frames that binds a name. -/
def modifyBinder? (name : String) (change : Frame → Frame) : List Frame → Option (List Frame)
  | [] => none
  | frame :: outer =>
    if frame.contains name then some (change frame :: outer)
    else (modifyBinder? name change outer).map (frame :: ·)

/-- Changes the innermost frame that binds a name, or else the global frame. -/
def modifyBinder (scope : Scope) (name : String) (change : Frame → Frame) : Scope :=
  match modifyBinder? name change scope.locals with
  | some locals => { scope with locals }
  | none => { scope with globals := change scope.globals }

/-- Replaces the innermost value of a name, or binds the name globally. -/
def assign (scope : Scope) (name : String) (value : Expr) : Scope :=
  scope.modifyBinder name (·.insert name value)

/-- Binds a name in the innermost frame, whatever the frames around it hold. -/
def bindLocal (scope : Scope) (name : String) (value : Expr) : Scope :=
  match scope.locals with
  | [] => { scope with globals := scope.globals.insert name value }
  | frame :: outer => { scope with locals := frame.insert name value :: outer }

/-- Takes the innermost value of a name away and returns it; an outer one comes into force again. -/
def remove (scope : Scope) (name : String) : Option Expr × Scope :=
  (scope.get? name, scope.modifyBinder name (·.erase name))

/-- Puts a name into its place in an ordered list of different names. -/
def insertName (name : String) : List String → List String
  | [] => [name]
  | first :: rest =>
    if name < first then name :: first :: rest
    else if name = first then first :: rest
    else first :: insertName name rest

/-- The bound names in the order of their characters, each once. -/
def names (scope : Scope) : List String :=
  (scope.frames.flatMap (·.names)).foldr insertName []

/-- The visible bindings, ordered by name. -/
def bindings (scope : Scope) : List (String × Expr) :=
  scope.names.filterMap fun (name : String) => (scope.get? name).map (name, ·)

/-- How many names are bound. -/
def size (scope : Scope) : Nat := scope.names.length

/-- How many bindings the frames hold, hidden ones included. -/
def bindingCount (scope : Scope) : Nat := (scope.frames.flatMap (·.names)).length

/-- No frame binds anything. -/
def isEmpty (scope : Scope) : Bool := scope.frames.all (·.entries.isEmpty)

/-- How many frames there are. -/
def depth (scope : Scope) : Nat := scope.locals.length + 1

/-- Enters a new innermost frame. -/
def push (scope : Scope) : Scope := { scope with locals := .empty :: scope.locals }

/-- Leaves the innermost frame; the global frame is never left. -/
def pop (scope : Scope) : Scope := { scope with locals := scope.locals.tail }

end Scope

end Calculator
