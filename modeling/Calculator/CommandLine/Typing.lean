import Calculator.CommandLine.Desk
import Calculator.Text.Cluster

/-! Lines as they are meant: a backspace takes back the last thing typed. -/

namespace Calculator.CommandLine

/-- The character that takes back what stands before it. -/
def backspace : Char := Char.ofNat 8

/-- What has been typed, the last character first, and the sizes of its clusters, the last one
first. -/
structure Typed where
  text : List Char
  sizes : List Nat

namespace Typed

/-- Nothing has been typed. -/
def empty : Typed := ⟨[], []⟩

/-- The bytes of a cluster, counted up to 256 and then from zero again. -/
def size (cluster : List Char) : Nat := (String.ofList cluster).utf8ByteSize % 256

/-- Drops a number of bytes; `none` if they end inside a character. -/
def dropBytes : List Char → Nat → Option (List Char)
  | text, 0 => some text
  | [], _ + 1 => none
  | char :: rest, count + 1 =>
    if char.utf8Size ≤ count + 1 then dropBytes rest (count + 1 - char.utf8Size) else none

/-- Types one more cluster. A backspace drops the size of the last cluster that is left, if there is
one. -/
def add (typed : Typed) (cluster : List Char) : Option Typed :=
  if cluster = [backspace] then
    match typed.sizes with
    | [] => some typed
    | size :: sizes => (dropBytes typed.text size).map fun (text : List Char) => ⟨text, sizes⟩
  else some ⟨cluster.reverse ++ typed.text, size cluster :: typed.sizes⟩

end Typed

/-- The characters that remain of a line; `none` if a character was cut. -/
def typedLine (line : List Char) : Option (List Char) :=
  ((Text.clusters line).foldlM Typed.add .empty).map fun (typed : Typed) => typed.text.reverse

/-- Clusters without a backspace all remain. -/
theorem foldlM_add (clusters : List (List Char)) (typed : Typed)
    (plain : [backspace] ∉ clusters) :
    ∃ sizes, clusters.foldlM Typed.add typed =
      some ⟨clusters.flatten.reverse ++ typed.text, sizes⟩ := by
  -- Each cluster is put on top of those before it.
  induction clusters generalizing typed with
  | nil => exact ⟨typed.sizes, rfl⟩
  | cons cluster rest ih =>
    have other : cluster ≠ [backspace] := fun same => plain (by simp [same])
    have later : [backspace] ∉ rest := fun held => plain (List.mem_cons_of_mem _ held)
    have added : typed.add cluster =
        some ⟨cluster.reverse ++ typed.text, Typed.size cluster :: typed.sizes⟩ := by
      simp [Typed.add, other]
    obtain ⟨sizes, remaining⟩ :=
      ih ⟨cluster.reverse ++ typed.text, Typed.size cluster :: typed.sizes⟩ later
    refine ⟨sizes, ?_⟩
    rw [List.foldlM_cons, added]
    simpa using remaining

/-- A line without a backspace is meant as it is written. -/
theorem typedLine_eq_self (line : List Char) (plain : backspace ∉ line) :
    typedLine line = some line := by
  -- A cluster that is a backspace would bring one into the line.
  have clustersPlain : [backspace] ∉ Text.clusters line := by
    intro held
    apply plain
    rw [← Text.flatten_clusters line]
    exact List.mem_flatten.2 ⟨_, held, by simp⟩
  obtain ⟨sizes, remaining⟩ := foldlM_add _ Typed.empty clustersPlain
  rw [typedLine, remaining]
  simp [Typed.empty, Text.flatten_clusters]

/-- Answers a line of the interactive mode as it is meant. A cut character breaks the run off. -/
def Desk.answerTyped (desk : Desk) (line : String) : Reaction :=
  match typedLine line.toList with
  | some typed => desk.answerLine (String.ofList typed)
  | none => ⟨[], .error 101⟩

end Calculator.CommandLine
