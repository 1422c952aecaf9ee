import Calculator.Proofs.Scope.Names
import Mathlib.Data.List.Basic

/-! The bound names in order: each is listed once, and they are sorted by their bytes. -/

namespace Calculator

section Bytes

/-- The bytes of a text. -/
def utf8Bytes (text : String) : List UInt8 := text.toByteArray.data.toList

/-- A text is its characters encoded one by one. -/
theorem utf8Bytes_eq (text : String) :
    utf8Bytes text = text.toList.flatMap String.utf8EncodeChar := by
  -- The bytes of a text are those of its characters in order.
  rw [utf8Bytes, ← String.utf8Encode_toList, List.utf8Encode, List.toList_data_toByteArray]

/-- A smaller character decides the order of the bytes, whatever follows. -/
theorem utf8EncodeChar_lt {first second : Char} (less : first < second) (rest other : List UInt8) :
    String.utf8EncodeChar first ++ rest < String.utf8EncodeChar second ++ other := by
  have numbers : first.val.toNat < second.val.toNat := less
  have bounded : second.val.toNat < 0x110000 := by
    rcases second.valid with low | high <;> omega
  simp only [String.utf8EncodeChar]
  generalize first.val.toNat = low at numbers ⊢
  generalize second.val.toNat = high at numbers bounded ⊢
  have digits (number : Nat) : number / 4096 = number / 64 / 64 ∧
      number / 262144 = number / 64 / 64 / 64 := by omega
  -- Longer encodings start with a larger byte; in those of one length the first different digit
  -- to the base 64 decides.
  split_ifs
  all_goals
    simp only [List.cons_append, List.nil_append, List.cons_lt_cons_iff, UInt8.lt_iff_toNat_lt,
      ← UInt8.toNat_inj, UInt8.toNat_ofNat', digits]
    omega

/-- The order of the characters is that of the bytes. -/
theorem utf8Bytes_lt {text other : String} (less : text < other) :
    utf8Bytes text < utf8Bytes other := by
  -- By induction on the characters: the first that differ decide, and their bytes differ alike.
  rw [utf8Bytes_eq, utf8Bytes_eq]
  have chars : text.toList < other.toList := less
  generalize text.toList = left at chars ⊢
  generalize other.toList = right at chars ⊢
  induction left generalizing right with
  | nil =>
    cases right with
    | nil => exact absurd chars (List.lt_irrefl [])
    | cons second others =>
      have encoded : String.utf8EncodeChar second ≠ [] := String.utf8EncodeChar_ne_nil
      obtain ⟨byte, bytes, starts⟩ := List.exists_cons_of_ne_nil encoded
      simp [starts]
  | cons first rest ih =>
    cases right with
    | nil => exact absurd chars (List.not_lt_nil _)
    | cons second others =>
      rw [List.flatMap_cons, List.flatMap_cons]
      rcases List.cons_lt_cons_iff.mp chars with less | ⟨rfl, further⟩
      · exact utf8EncodeChar_lt less _ _
      · exact List.append_left_lt (ih others further)

end Bytes

section Names

/-- A name is listed once it has been put into its place, and no other is lost or added. -/
theorem Scope.mem_insertName {name other : String} {names : List String} :
    other ∈ insertName name names ↔ other = name ∨ other ∈ names := by
  -- By induction on the names; the new one is put before, in place of or behind the first.
  induction names with
  | nil => simp [insertName]
  | cons first rest ih =>
    rw [insertName]
    split
    · simp
    · split
      · next same => simp [same]
      · simp [ih, or_left_comm]

/-- Names that are in order are so when a further one has been put into its place. -/
theorem Scope.pairwise_insertName (name : String) {names : List String}
    (sorted : names.Pairwise (· < ·)) : (insertName name names).Pairwise (· < ·) := by
  induction names with
  | nil => simp [insertName]
  | cons first rest ih =>
    rw [insertName]
    obtain ⟨before, sortedRest⟩ := List.pairwise_cons.mp sorted
    split
    · next less =>
      refine List.pairwise_cons.mpr ⟨?_, sorted⟩
      simp only [List.forall_mem_cons]
      exact ⟨less, fun other member => String.lt_trans less (before other member)⟩
    · split
      · exact sorted
      · next notLess different =>
        -- The name comes after the first one, and so does all that was behind it.
        refine List.pairwise_cons.mpr ⟨fun other member => ?_, ih sortedRest⟩
        rcases mem_insertName.mp member with rfl | member
        · exact Std.lt_of_le_of_ne (String.not_lt.mp notLess) (Ne.symm different)
        · exact before other member

/-- The names are listed in order. -/
theorem Scope.pairwise_names (scope : Scope) : scope.names.Pairwise (· < ·) := by
  -- By induction on the names; each is inserted into a list in order.
  rw [names]
  induction scope.frames.flatMap (·.names) with
  | nil => exact .nil
  | cons name rest ih => exact pairwise_insertName name ih

/-- The names that a frame lists are those with a value. -/
theorem Frame.mem_names {frame : Frame} {name : String} :
    name ∈ frame.names ↔ frame.contains name = true := by
  -- An entry gives its name a value.
  simp [names, contains, get?, List.lookup_isSome_iff]

/-- The names that are listed are those that stand in the frames. -/
theorem Scope.mem_names {scope : Scope} {name : String} :
    name ∈ scope.names ↔ scope.contains name = true := by
  -- Inserting the names one by one loses none and adds none.
  have listed (names : List String) : name ∈ names.foldr insertName [] ↔ name ∈ names := by
    induction names with
    | nil => rfl
    | cons first rest ih => rw [List.foldr_cons, mem_insertName, ih, List.mem_cons]
  rw [names, listed, contains]
  simp [Frame.mem_names]

/-- A frame without entries is one that binds no name. -/
theorem Frame.entries_eq_nil_iff (frame : Frame) :
    frame.entries = [] ↔ ∀ name, ¬ frame.contains name = true := by
  -- A frame without entries has no names.
  have listed : frame.entries = [] ↔ frame.names = [] := List.map_eq_nil_iff.symm
  rw [listed, List.eq_nil_iff_forall_not_mem]
  exact forall_congr' fun name => not_congr mem_names

/-- No frame binds anything exactly when no name is listed. -/
theorem Scope.isEmpty_iff (scope : Scope) : scope.isEmpty = true ↔ scope.names = [] := by
  rw [List.eq_nil_iff_forall_not_mem]
  simp only [mem_names, contains, isEmpty, List.any_eq_true, List.all_eq_true, List.isEmpty_iff,
    Frame.entries_eq_nil_iff, not_exists, not_and]
  -- Both sides say that no frame binds any name, and differ in which is taken first.
  exact ⟨fun each name frame member => each frame member name,
    fun each frame member name => each name frame member⟩

end Names

end Calculator
