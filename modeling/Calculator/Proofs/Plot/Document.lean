import Calculator.Plot.Svg
import Mathlib.Data.List.Basic

/-! Documents of plots: what is written in them, and that it can be read again. -/

namespace Calculator.Svg

section Reading

/-- What stands behind each opening bracket of markup, up to the next one. -/
def tags : List Char → List (List Char)
  | [] => []
  | char :: rest =>
    if char = '<' then rest.takeWhile (· != '<') :: tags rest else tags rest

/-- The characters that markup stands for. -/
def unescaped : List Char → List Char
  | '&' :: 'a' :: 'm' :: 'p' :: ';' :: rest => '&' :: unescaped rest
  | '&' :: 'l' :: 't' :: ';' :: rest => '<' :: unescaped rest
  | '&' :: 'g' :: 't' :: ';' :: rest => '>' :: unescaped rest
  | '&' :: 'q' :: 'u' :: 'o' :: 't' :: ';' :: rest => Char.ofNat 0x22 :: unescaped rest
  | '&' :: 'a' :: 'p' :: 'o' :: 's' :: ';' :: rest => Char.ofNat 0x27 :: unescaped rest
  | char :: rest => char :: unescaped rest
  | [] => []

/-- The text that a tag places, if it places one: it stands on a line of its own behind the tag. -/
def textIn? (tag : List Char) : Option String :=
  if "text ".toList.isPrefixOf tag then
    some (String.ofList (unescaped ((tag.dropWhile (· != '>')).drop 2).dropLast))
  else none

/-- The centre of the circle that a tag draws, if it draws one: its first two values. -/
def centreIn? (tag : List Char) : Option (String × String) :=
  if "circle cx=\"".toList.isPrefixOf tag then
    let fromX := tag.drop "circle cx=\"".toList.length
    let x := fromX.takeWhile (· != '\x22')
    let y := (fromX.drop (x.length + "\" cy=\"".toList.length)).takeWhile (· != '\x22')
    some (String.ofList x, String.ofList y)
  else none

/-- The texts of a document, in order. -/
def texts (document : String) : List String := (tags document.toList).filterMap textIn?

/-- The centres of the circles of a document, in order. -/
def centres (document : String) : List (String × String) :=
  (tags document.toList).filterMap centreIn?

end Reading

/-- Where a point of a plot is drawn: at its pixel, or at the edge of the box around the points. -/
def centreOf (size : PictureSize) (plot : ScatterPlot) (point : Float × Float) : Int × Int :=
  let box := Box.ofSize size
  let x := pixel (.covering (plot.points.map (·.1))) box.left box.right point.1
  let y := pixel (.covering (plot.points.map (·.2))) box.bottom box.top point.2
  (max box.left (min (box.right + 1) x), max box.top (min (box.bottom + 1) y))

/-- The document shows a plot: its first texts are the title and the labels, and its circles are
those of the finite points, in order and no others. -/
structure Depicts (size : PictureSize) (document : String) (plot : ScatterPlot) : Prop where
  captions : [plot.title, plot.yLabel, plot.xLabel] <+: texts document
  points : centres document =
    (plot.points.filter fun point => point.1.isFinite && point.2.isFinite).map fun point =>
      (toString (centreOf size plot point).1, toString (centreOf size plot point).2)

section Escaping

/-- A character is read from what markup writes for it. -/
theorem unescaped_escapedChar (char : Char) (rest : List Char) :
    unescaped ((escapedChar char).toList ++ rest) = char :: unescaped rest := by
  -- Five characters are written by name, and the others stand for themselves.
  unfold escapedChar
  split_ifs with ampersand less greater quote apostrophe
  · rw [beq_iff_eq] at ampersand
    simp [unescaped, ampersand]
  · rw [beq_iff_eq] at less
    simp [unescaped, less]
  · rw [beq_iff_eq] at greater
    simp [unescaped, greater]
  · rw [beq_iff_eq] at quote
    simp [unescaped, quote]
  · rw [beq_iff_eq] at apostrophe
    simp [unescaped, apostrophe]
  · rw [beq_iff_eq] at ampersand
    rw [String.toList_singleton, List.cons_append, List.nil_append, unescaped] <;> simp_all

/-- A text is read from what markup writes for it. -/
theorem unescaped_escaped (text : String) : unescaped (escaped text).toList = text.toList := by
  -- Each character is read by itself, whatever follows.
  have all (chars : List Char) :
      unescaped (chars.flatMap fun char => (escapedChar char).toList) = chars := by
    induction chars with
    | nil => rfl
    | cons char rest ih => rw [List.flatMap_cons, unescaped_escapedChar, ih]
  rw [escaped, String.toList_join, List.flatMap_map]
  exact all text.toList

/-- No bracket is left in an escaped text. -/
theorem not_mem_escaped (text : String) : '<' ∉ (escaped text).toList := by
  -- The only character that would be written so is written by name.
  have none (char : Char) : '<' ∉ (escapedChar char).toList := by
    unfold escapedChar
    split_ifs with ampersand less
    iterate 5 decide
    simpa using fun same : '<' = char => less (beq_iff_eq.2 same.symm)
  rw [escaped, String.toList_join, List.flatMap_map]
  simp [none]

end Escaping

section Numerals

/-- A magnitude is written with digits. -/
theorem not_mem_toDigits {char : Char} (noDigit : char.isDigit = false) (size : Nat) :
    char ∉ Nat.toDigits 10 size := by
  -- Each character of a numeral is a digit.
  intro member
  have digit := Nat.isDigit_of_mem_toDigits (by decide) (by decide) member
  rw [noDigit] at digit
  cases digit

/-- A number is written with digits and perhaps a sign. -/
theorem not_mem_repr {char : Char} (noSign : char ≠ '-') (noDigit : char.isDigit = false)
    (number : Int) : char ∉ number.repr.toList := by
  -- Behind the sign there are the digits of a magnitude.
  rw [Int.repr_eq_if]
  split_ifs
  · simpa using not_mem_toDigits noDigit _
  · simpa [noSign] using not_mem_toDigits noDigit _

end Numerals

section Markup

/-- The characters of lines, each of them ended. -/
def written (lines : List String) : List Char := lines.flatMap fun line => line.toList ++ ['\n']

/-- The lines are markup with these texts and these centres of circles. -/
def Holds (lines contents : List String) (places : List (String × String)) : Prop :=
  ∃ chunks : List (List Char), written lines = chunks.flatMap ('<' :: ·) ∧
    (∀ chunk ∈ chunks, '<' ∉ chunk) ∧
    chunks.filterMap textIn? = contents ∧ chunks.filterMap centreIn? = places

/-- Behind a bracket, a tag reaches as far as the next bracket. -/
theorem tags_flatMap {chunks : List (List Char)} (closed : ∀ chunk ∈ chunks, '<' ∉ chunk) :
    tags (chunks.flatMap ('<' :: ·)) = chunks := by
  -- What has no bracket is passed over until the next tag begins.
  have passed {before : List Char} (none : '<' ∉ before) (rest : List Char) :
      tags (before ++ rest) = tags rest := by
    induction before with
    | nil => rfl
    | cons char before ih =>
      have apart : char ≠ '<' := fun same => none (same ▸ List.mem_cons_self)
      rw [List.cons_append, tags, if_neg apart]
      exact ih fun member => none (List.mem_cons_of_mem _ member)
  induction chunks with
  | nil => rfl
  | cons chunk rest ih =>
    have free : '<' ∉ chunk := closed chunk List.mem_cons_self
    have later := ih fun other member => closed other (List.mem_cons_of_mem _ member)
    have ends : (chunk ++ rest.flatMap ('<' :: ·)).takeWhile (· != '<') = chunk := by
      rw [List.takeWhile_append_of_pos fun char member => by
        simpa using fun same : char = '<' => free (same ▸ member)]
      cases rest <;> simp
    rw [List.flatMap_cons, List.cons_append, tags, if_pos rfl, ends, passed free, later]

/-- Lines after others add their texts and circles. -/
theorem Holds.append {first second contents more : List String}
    {places others : List (String × String)} (holds : Holds first contents places)
    (also : Holds second more others) :
    Holds (first ++ second) (contents ++ more) (places ++ others) := by
  -- The chunks of both parts stand one after another.
  obtain ⟨chunks, text, closed, rfl, rfl⟩ := holds
  obtain ⟨following, textAfter, closedAfter, rfl, rfl⟩ := also
  refine ⟨chunks ++ following, ?_, ?_, by simp, by simp⟩
  · rw [written, List.flatMap_append, ← written, ← written, text, textAfter, List.flatMap_append]
  · intro chunk member
    rcases List.mem_append.1 member with member | member
    · exact closed chunk member
    · exact closedAfter chunk member

/-- A line before others adds its texts and circles. -/
theorem Holds.cons {line : String} {lines contents more : List String}
    {places others : List (String × String)} (holds : Holds [line] contents places)
    (also : Holds lines more others) :
    Holds (line :: lines) (contents ++ more) (places ++ others) :=
  holds.append also

/-- No lines hold nothing. -/
theorem holds_nil : Holds [] [] [] := ⟨[], rfl, by simp, rfl, rfl⟩

/-- A line that is one tag holds what is in the tag. -/
theorem holds_tag {line tag : String} (opens : line.toList = '<' :: tag.toList)
    (closed : '<' ∉ tag.toList) :
    Holds [line] (textIn? (tag.toList ++ ['\n'])).toList
      (centreIn? (tag.toList ++ ['\n'])).toList := by
  -- The line is one chunk.
  refine ⟨[tag.toList ++ ['\n']], ?_, ?_, ?_, ?_⟩
  · simp [written, opens]
  · simpa using closed
  · cases found : textIn? (tag.toList ++ ['\n']) <;> simp [found]
  · cases found : centreIn? (tag.toList ++ ['\n']) <;> simp [found]

/-- A number is written without brackets and quotes. -/
@[simp] theorem marks_not_mem_repr (number : Int) :
    '<' ∉ number.repr.toList ∧ '>' ∉ number.repr.toList ∧ '\x22' ∉ number.repr.toList :=
  ⟨not_mem_repr (by decide) (by decide) number, not_mem_repr (by decide) (by decide) number,
    not_mem_repr (by decide) (by decide) number⟩

/-- A line that is a tag of another kind holds neither a text nor a circle. -/
theorem holds_other {line : String} (tag : String) (opens : line.toList = '<' :: tag.toList)
    (closed : '<' ∉ tag.toList) (noText : textIn? (tag.toList ++ ['\n']) = none)
    (noCircle : centreIn? (tag.toList ++ ['\n']) = none) : Holds [line] [] [] := by
  -- The tag is the only thing on the line.
  simpa only [noText, noCircle, Option.toList_none] using holds_tag opens closed

/-- A stroke is neither a text nor a circle. -/
theorem holds_stroke (x y toX toY : Int) : Holds [stroke x y toX toY] [] [] := by
  -- The tag is another one, and the numbers in it bring no bracket.
  refine holds_other ("polyline " ++ String.intercalate " "
    [field "fill" "none", field "opacity" "1", field "stroke" "#666666",
      field "stroke-width" "1", field "points" s!"{x},{y} {toX},{toY} "] ++ "/>") ?_ ?_ ?_ ?_
  · simp [stroke]
  · simp [field, toString]
  · simp [textIn?]
  · simp [centreIn?]

/-- A value ends at its quote. -/
theorem takeWhile_value {value : List Char} (unquoted : '\x22' ∉ value) (rest : List Char) :
    (value ++ '\x22' :: rest).takeWhile (· != '\x22') = value := by
  -- The value itself has no quote.
  rw [List.takeWhile_append_of_pos fun char member => by
    simpa using fun same : char = '\x22' => unquoted (same ▸ member)]
  simp

/-- The centre of a circle is read from its first two values. -/
theorem centreIn?_circle {x y : List Char} (unquotedX : '\x22' ∉ x) (unquotedY : '\x22' ∉ y)
    (rest : List Char) :
    centreIn? ("circle cx=\"".toList ++ (x ++ "\" cy=\"".toList ++ (y ++ '\x22' :: rest))) =
      some (String.ofList x, String.ofList y) := by
  -- Both values stand at fixed distances from the ends of what comes before them.
  have begins := List.isPrefixOf_iff_prefix.2 (List.prefix_append "circle cx=\"".toList
    (x ++ "\" cy=\"".toList ++ (y ++ '\x22' :: rest)))
  have first : (x ++ "\" cy=\"".toList ++ (y ++ '\x22' :: rest)).takeWhile (· != '\x22') = x := by
    rw [List.append_assoc]
    exact takeWhile_value unquotedX _
  have fromY : (x ++ "\" cy=\"".toList ++ (y ++ '\x22' :: rest)).drop
      (x.length + "\" cy=\"".toList.length) = y ++ '\x22' :: rest :=
    List.drop_left' (List.length_append)
  rw [centreIn?, if_pos begins]
  simp only [List.drop_left, first, fromY, takeWhile_value unquotedY]

/-- A dot is the circle around its centre. -/
theorem holds_dot (x y : Int) : Holds [dot x y] [] [(toString x, toString y)] := by
  -- The first two values of the tag are the coordinates, written without quotes.
  let tag := "circle " ++ String.intercalate " "
    [field "cx" (toString x), field "cy" (toString y), field "r" "3",
      field "opacity" "1", field "fill" "#5E81B5", field "stroke" "none",
      field "stroke-width" "1"] ++ "/>"
  have opens : (dot x y).toList = '<' :: tag.toList := by simp [dot, tag]
  have closed : '<' ∉ tag.toList := by simp [tag, field]
  have spelled : ∃ rest, tag.toList ++ ['\n'] = "circle cx=\"".toList ++
      (x.repr.toList ++ "\" cy=\"".toList ++ (y.repr.toList ++ '\x22' :: rest)) :=
    ⟨_, by simp [tag, field]; rfl⟩
  obtain ⟨rest, spelled⟩ := spelled
  have holds := holds_tag opens closed
  rw [spelled, centreIn?_circle (marks_not_mem_repr x).2.2 (marks_not_mem_repr y).2.2] at holds
  simpa [textIn?] using holds

/-- The text that a tag places is read from the line behind the tag. -/
theorem textIn?_text {attributes : List Char} (closed : '>' ∉ attributes) (content : String) :
    textIn? ("text ".toList ++ attributes ++ '>' :: '\n' :: ((escaped content).toList ++ ['\n'])) =
      some content := by
  -- The first closing bracket is the one behind the attributes.
  have named : ∀ char ∈ "text ".toList, (char != '>') = true := List.all_eq_true.1 rfl
  have before : ∀ char ∈ "text ".toList ++ attributes, (char != '>') = true := by
    intro char member
    rcases List.mem_append.1 member with first | later
    · exact named char first
    · simpa using fun same : char = '>' => closed (same ▸ later)
  have begins : "text ".toList.isPrefixOf ("text ".toList ++ attributes ++
      '>' :: '\n' :: ((escaped content).toList ++ ['\n'])) = true := by
    rw [List.append_assoc]
    exact List.isPrefixOf_iff_prefix.2 (List.prefix_append _ _)
  rw [textIn?, if_pos begins, List.dropWhile_append_of_pos before]
  simp [unescaped_escaped]

/-- No attribute of the label holds a bracket. -/
def Label.IsPlain (label : Label) : Prop :=
  ∀ part ∈ [label.shift, label.anchor, label.size, label.fill, label.more],
    '<' ∉ part.toList ∧ '>' ∉ part.toList

/-- The lines of a text hold the text. -/
theorem holds_label {label : Label} (plain : label.IsPlain) (content : String) :
    Holds (label.lines content) [content] [] := by
  let attributes := String.intercalate " "
    [field "x" (toString label.x), field "y" (toString label.y),
      field "dy" label.shift, field "text-anchor" label.anchor,
      field "font-family" "sans-serif", field "font-size" label.size,
      field "opacity" "1", field "fill" label.fill] ++ label.more
  simp only [Label.IsPlain, List.forall_mem_cons] at plain
  have opened : '<' ∉ attributes.toList := by simp [attributes, field, plain]
  have closed : '>' ∉ attributes.toList := by simp [attributes, field, plain]
  -- The text belongs to the tag before it, and another tag ends it.
  refine ⟨["text ".toList ++ attributes.toList ++
      '>' :: '\n' :: ((escaped content).toList ++ ['\n']), "/text>\n".toList], ?_, ?_, ?_, ?_⟩
  · simp [written, Label.lines, attributes]
  · have named : '<' ∉ "text ".toList := by decide
    have ending : '<' ∉ "/text>\n".toList := by decide
    refine List.forall_mem_cons.2 ⟨?_, List.forall_mem_cons.2 ⟨ending, by simp⟩⟩
    simp only [List.mem_append, List.mem_cons, not_or]
    exact ⟨⟨named, opened⟩, by decide, by decide, not_mem_escaped content, by decide, by simp⟩
  · rw [List.filterMap_cons, textIn?_text closed]
    rfl
  · rw [List.append_assoc]
    rfl

/-- Lines without circles, one list of them after another, have no circles. -/
theorem exists_holds_flatMap {α : Type} {lines : α → List String}
    (each : ∀ value, ∃ contents, Holds (lines value) contents []) (values : List α) :
    ∃ contents, Holds (values.flatMap lines) contents [] := by
  -- Each list of lines adds its texts and no circles.
  induction values with
  | nil => exact ⟨[], holds_nil⟩
  | cons value rest ih =>
    obtain ⟨first, holds⟩ := each value
    obtain ⟨others, later⟩ := ih
    exact ⟨first ++ others, holds.append later⟩

end Markup

section Parts

variable (size : PictureSize) (box : Box) (plot : ScatterPlot)

/-- The ground has neither texts nor circles. -/
theorem holds_ground : Holds (ground size) [] [] := by
  -- Both lines are other tags, and the sizes in them bring no bracket.
  have digits (number : Nat) : '<' ∉ Nat.toDigits 10 number := not_mem_toDigits (by decide) number
  let width := toString size.width
  let height := toString size.height
  unfold ground
  refine Holds.cons (holds_other ("svg " ++ String.intercalate " "
      [field "width" width, field "height" height,
        field "viewBox" s!"0 0 {width} {height}",
        field "xmlns" "http://www.w3.org/2000/svg"] ++ ">") ?_ ?_ ?_ ?_)
    (holds_other ("rect " ++ String.intercalate " "
      [field "x" "0", field "y" "0", field "width" width, field "height" height,
        field "opacity" "1", field "fill" "#FFFFFF", field "stroke" "none"] ++ "/>") ?_ ?_ ?_ ?_)
  · simp [width, height]
  · simp [field, width, height, toString, digits]
  · simp [textIn?]
  · simp [centreIn?]
  · simp [width, height]
  · simp [field, width, height, digits]
  · simp [textIn?]
  · simp [centreIn?]

/-- The captions hold the title and the two labels. -/
theorem holds_captions :
    Holds (captions size box plot) [plot.title, plot.yLabel, plot.xLabel] [] := by
  -- There are three labels, and none of their attributes has a bracket.
  unfold captions
  refine ((holds_label ?_ plot.title).append (holds_label ?_ plot.yLabel)).append
    (holds_label ?_ plot.xLabel)
  · simp [Label.IsPlain]
  · simp [Label.IsPlain, field, toString]
  · simp [Label.IsPlain]

/-- An axis has no circles, wherever its marks with their texts and ticks stand. -/
theorem exists_holds_axis (line : Int × Int × Int × Int) (inside : Float → Prop)
    [DecidablePred inside] (label : Float → Label) (plain : ∀ value, (label value).IsPlain)
    (x y toX toY : Float → Int) (values : List Float) :
    ∃ contents, Holds (stroke line.1 line.2.1 line.2.2.1 line.2.2.2 ::
      values.flatMap fun value =>
        if inside value then
          (label value).lines (Axis.markText value) ++
            [stroke (x value) (y value) (toX value) (toY value)]
        else []) contents [] := by
  -- A mark outside of the box leaves nothing behind.
  have each (value : Float) : ∃ contents, Holds (if inside value then
      (label value).lines (Axis.markText value) ++
        [stroke (x value) (y value) (toX value) (toY value)]
      else []) contents [] := by
    split_ifs
    · exact ⟨_, (holds_label (plain value) _).append (holds_stroke _ _ _ _)⟩
    · exact ⟨[], holds_nil⟩
  obtain ⟨contents, marked⟩ := exists_holds_flatMap each values
  exact ⟨contents, (holds_stroke _ _ _ _).append marked⟩

/-- The vertical axis has no circles. -/
theorem exists_holds_verticalAxis (range : AxisRange) :
    ∃ contents, Holds (verticalAxis box range) contents [] :=
  exists_holds_axis (54, box.top, 54, box.bottom) _ _ (by simp [Label.IsPlain]) _ _ _ _ _

/-- The horizontal axis has no circles. -/
theorem exists_holds_horizontalAxis (range : AxisRange) :
    ∃ contents, Holds (horizontalAxis size box range) contents [] :=
  exists_holds_axis (box.left, (size.height : Int) - 45, box.right, (size.height : Int) - 45) _ _
    (by simp [Label.IsPlain]) _ _ _ _ _

/-- Dots are the circles around their centres, in order. -/
theorem holds_map_dot (places : List (Int × Int)) :
    Holds (places.map fun place => dot place.1 place.2) []
      (places.map fun place => (toString place.1, toString place.2)) := by
  -- Each dot adds its circle behind the earlier ones.
  induction places with
  | nil => exact holds_nil
  | cons place rest ih => exact (holds_dot place.1 place.2).append ih

end Parts

/-- The document of a plot shows the plot. -/
theorem depicts_document (size : PictureSize) (plot : ScatterPlot) :
    Depicts size (document size plot) plot := by
  -- The parts stand one after another, and only the dots have circles.
  obtain ⟨heights, vertical⟩ := exists_holds_verticalAxis (Box.ofSize size)
    (.covering (plot.points.map (·.2)))
  obtain ⟨places, horizontal⟩ := exists_holds_horizontalAxis size (Box.ofSize size)
    (.covering (plot.points.map (·.1)))
  have drawn := holds_map_dot ((plot.points.filter fun point =>
    point.1.isFinite && point.2.isFinite).map (centreOf size plot))
  have ended : Holds ["</svg>"] [] [] := holds_other "/svg>" rfl (by decide) rfl rfl
  obtain ⟨chunks, text, closed, contents, circles⟩ :=
    (((((holds_ground size).append (holds_captions size (Box.ofSize size) plot)).append
      vertical).append horizontal).append drawn).append ended
  have spelled : (document size plot).toList = chunks.flatMap ('<' :: ·) := by
    rw [← text, List.map_map, document, String.toList_join, List.flatMap_map]
    simp only [written, String.toList_append]
    rfl
  have read : tags (document size plot).toList = chunks := by rw [spelled, tags_flatMap closed]
  constructor
  · rw [texts, read, contents]
    simp
  · rw [centres, read, circles]
    simp

end Calculator.Svg
