import TemplateCompiler.Diagnostic.Excerpt
import TemplateCompiler.Proofs.Source.Boundaries
import TemplateCompiler.Proofs.Source.LinePartition

/-!
# What an excerpt underlines

An excerpt is laid out from lines, columns, characters and bytes.  For a problem at a true
place of a source, the extent of which ends between two characters, the characters that are
underlined are just those of the extent that stand on the line of the problem; where there
are none, a single caret stands at the column.

The layout measures with natural numbers.  With sizes of a machine, where a difference can
be out of range, a sum too large and a cut beyond a line, it comes to the same excerpt at
every place, also at places that a source does not have.
-/

namespace TemplateCompiler

open Text

theorem Text.IsDivided.head?_eq {text : List Char} {lines : List (List Char)}
    (divided : IsDivided text lines) :
    lines.head? = some (text.takeWhile fun c => !isLineBreak c) := by
  have whole : ∀ {line : List Char}, (∀ c ∈ line, isLineBreak c = false) →
      ∀ c ∈ line, (!isLineBreak c) = true := fun unbroken c member => by simp [unbroken c member]
  cases divided with
  | last unbroken => rw [List.head?_cons, List.takeWhile_eq_self_iff.2 (whole unbroken)]
  | @broken line ending behind lines unbroken isEnding later =>
      have stops : (ending ++ behind).takeWhile (fun c => !isLineBreak c) = [] := by
        cases isEnding <;> rfl
      rw [List.head?_cons, List.takeWhile_append_of_pos (whole unbroken), stops, List.append_nil]

namespace LineTable

variable {lines rest : List Char}

theorem exists_startsAfter_append (offset : Nat) (lines rest : List Char) :
    ∃ earlier, startsAfter offset (lines ++ rest) =
        earlier ++ startsAfter (offset + byteLength lines) rest ∧
      earlier.length = lineBreaks lines rest.head? := by
  induction lines generalizing offset with
  | nil => exact ⟨[], rfl, rfl⟩
  | cons c lines ih =>
      obtain ⟨earlier, startsEq, lengthEq⟩ := ih (offset + c.utf8Size)
      simp only [List.cons_append, startsAfter, lineBreaks, byteLength_cons, List.head?_append,
        ← Nat.add_assoc, startsEq, ← lengthEq]
      split
      · exact ⟨(offset + c.utf8Size) :: earlier, rfl, Nat.add_comm _ _⟩
      · exact ⟨earlier, rfl, (Nat.zero_add _).symm⟩

/-- Behind whole lines a table goes on like that of the text behind them. -/
theorem exists_starts_eq (starts : StartsLine lines rest) :
    ∃ front, (ofText (lines ++ rest)).starts = front ++ (behindText lines rest).starts ∧
      front.length = lineBreaks lines rest.head? := by
  obtain ⟨earlier, startsEq, lengthEq⟩ := exists_startsAfter_append 0 lines rest
  rw [Nat.zero_add] at startsEq
  by_cases empty : lines = []
  · subst empty
    exact ⟨[], rfl, rfl⟩
  obtain ⟨found, positive⟩ := getElem?_startsAfter empty starts 0
  rw [startsEq, List.getElem?_append_left (by omega), Nat.zero_add, ← lengthEq,
    ← List.getLast?_eq_getElem?] at found
  obtain ⟨front, rfl⟩ := List.getLast?_eq_some_iff.1 found
  refine ⟨0 :: front, ?_, ?_⟩
  · rw [ofText, behindText, startsEq]
    simp
  · simpa using lengthEq

theorem lineText?_behindLines (starts : StartsLine lines rest) :
    (ofText (lines ++ rest)).start? (1 + lineBreaks lines rest.head?) = some (byteLength lines) ∧
    (ofText (lines ++ rest)).lineText? (lines ++ rest) (1 + lineBreaks lines rest.head?) =
      some (rest.takeWhile fun c => !isLineBreak c) := by
  obtain ⟨front, startsEq, lengthEq⟩ := exists_starts_eq starts
  have startEq : ∀ index, (ofText (lines ++ rest)).start? (front.length + (index + 1)) =
      (behindText lines rest).start? (index + 1) := by
    intro index
    rw [start?, start?, startsEq, if_neg (by omega), if_neg (by omega),
      List.getElem?_append_right (by omega)]
    congr 1
    omega
  obtain ⟨division, divided⟩ := exists_isDivided rest
  have lineEq := lineText?_behindText divided lines 0
  rw [← List.head?_eq_getElem?, divided.head?_eq] at lineEq
  rw [Nat.add_comm, ← lengthEq]
  refine ⟨startEq 0, ?_⟩
  rw [← lineEq]
  simp only [lineText?, startEq, Nat.add_assoc, Nat.reduceAdd, Nat.zero_add]

end LineTable

/-- The characters of a source that a problem covers on its line. -/
def Position.spanned (source : List Char) (position : Position) : List Char :=
  let table := LineTable.ofText source
  let start := (table.start? position.line).getD 0
  let line := (table.lineText? source position.line).getD []
  charactersAt
    (fun offset => position.span.start ≤ offset && offset < position.span.stop &&
      (start ≤ offset && offset < start + byteLength line)) 0 source

namespace Position

variable {source lines line left behind piece : List Char} {position : Position}

/-- A place in a line of a source: the lines before, what stands before and behind it on its
line, and what is behind the line. -/
structure StandsIn (source : List Char) (position : Position) (lines line left behind : List Char) :
    Prop where
  sourceEq : source = lines ++ (line ++ (left ++ behind))
  offsetEq : position.offset = byteLength (lines ++ line)
  columnEq : position.column = line.length + 1
  start : (LineTable.ofText source).start? position.line = some (byteLength lines)
  text : (LineTable.ofText source).lineText? source position.line = some (line ++ left)

theorem IsTrue.exists_standsIn (isTrue : position.IsTrue source) :
    ∃ lines line left behind, position.StandsIn source lines line left behind := by
  obtain ⟨before, after, rfl, offsetEq, whole⟩ := isTrue.divides
  obtain ⟨lines, line, rfl, unbroken, starts⟩ := exists_line whole
  have placed := isTrue.lineAndColumn
  rw [offsetEq, List.append_assoc, LineTable.lineAndColumn_eq unbroken starts, Prod.mk.injEq]
    at placed
  obtain ⟨lineEq, columnEq⟩ := placed
  obtain ⟨startEq, textEq⟩ := LineTable.lineText?_behindLines starts
  have unbrokenThen : ∀ c ∈ line, (!isLineBreak c) = true := fun c member => by
    simp [unbroken c member]
  rw [List.takeWhile_append_of_pos unbrokenThen] at textEq
  refine ⟨lines, line, after.takeWhile fun c => !isLineBreak c,
    after.dropWhile fun c => !isLineBreak c, ⟨?_, offsetEq, columnEq, ?_, ?_⟩⟩
  · rw [List.takeWhile_append_dropWhile, List.append_assoc]
  · rw [lineEq, List.append_assoc]
    exact startEq
  · rw [lineEq, List.append_assoc]
    exact textEq

theorem StandsIn.line_pos (stands : position.StandsIn source lines line left behind) :
    0 < position.line := by
  have start := stands.start
  rw [LineTable.start?] at start
  split at start
  · contradiction
  · omega

theorem StandsIn.line_le (stands : position.StandsIn source lines line left behind) :
    position.line ≤ (LineTable.ofText source).lineCount := by
  have positive := stands.line_pos
  have start := stands.start
  rw [LineTable.start?, if_neg (by omega)] at start
  have within := (List.getElem?_eq_some_iff.1 start).1
  rw [LineTable.lineCount]
  omega

/-- The extent of a problem, from its place on. -/
theorem StandsIn.exists_piece (stands : position.StandsIn source lines line left behind)
    (short : byteLength source ≤ maxOffset) (stop : IsBoundary source position.span.stop) :
    ∃ piece after, left ++ behind = piece ++ after ∧
      position.span = ⟨byteLength (lines ++ line), byteLength (lines ++ line ++ piece)⟩ := by
  have offsetEq := stands.offsetEq
  have within : position.offset ≤ maxOffset := by
    rw [stands.sourceEq] at short
    simp only [offsetEq, byteLength_append] at short ⊢
    omega
  have sourceEq : source = (lines ++ line) ++ (left ++ behind) :=
    stands.sourceEq.trans (List.append_assoc _ _ _).symm
  have ordered : position.span.start ≤ position.span.stop := by
    simp only [span]
    omega
  obtain ⟨piece, before, after, textEq, spanEq⟩ :=
    Span.exists_selects ordered ⟨lines ++ line, _, sourceEq, offsetEq⟩ stop
  have startEq : byteLength (lines ++ line) = byteLength before := by
    rw [← offsetEq]
    exact congrArg Span.start spanEq
  obtain rfl := eq_of_byteLength_eq (sourceEq.symm.trans textEq) startEq
  refine ⟨piece, after, ?_, spanEq⟩
  exact List.append_cancel_left (sourceEq.symm.trans textEq)

theorem StandsIn.spanned_eq (stands : position.StandsIn source lines line left behind)
    {after : List Char} (restEq : left ++ behind = piece ++ after)
    (spanEq : position.span = ⟨byteLength (lines ++ line), byteLength (lines ++ line ++ piece)⟩) :
    position.spanned source = left.take piece.length := by
  have sourceEq : ∀ {text : List Char}, left ++ behind = text →
      source = (lines ++ line) ++ text := fun textEq =>
    textEq ▸ stands.sourceEq.trans (List.append_assoc _ _ _).symm
  -- the line ends within the extent, or the extent ends on the line
  rcases List.append_eq_append_iff.1 restEq with ⟨more, rfl, rfl⟩ | ⟨more, rfl, rfl⟩
  · rw [List.take_of_length_le (by simp), spanned, stands.start, stands.text, spanEq,
      sourceEq restEq, List.append_assoc left]
    apply charactersAt_between
    intro place
    simp
    omega
  · rw [List.take_left, spanned, stands.start, stands.text, spanEq, sourceEq restEq]
    apply charactersAt_between
    intro place
    simp
    omega

end Position

namespace Excerpt

section Window

variable {layout : ExcerptLayout} {source lines line left behind : List Char}
  {position : Position}

/-- What is underlined in a line of an excerpt, for the characters that a problem covers on
it: those characters, or a single caret if there are none. -/
def Highlights (shown covered : List Char) (highlight : Highlight) : Prop :=
  if covered = [] then highlight.width = 1
  else highlight.width = covered.length ∧
    (shown.drop highlight.start).take highlight.width = covered

/-- A line of an excerpt is a window of the line of a problem: it holds the place of the
problem, the characters that are covered there are underlined, and it is marked as cut just
when it is not the full line. -/
def Underlines (source : List Char) (position : Position) (line : ExcerptLine) : Prop :=
  ∃ before behind highlight,
    (LineTable.ofText source).lineText? source position.line =
      some (before ++ (line.text ++ behind)) ∧
    line.highlight = some highlight ∧
    before.length + highlight.start + 1 = position.column ∧
    highlight.start ≤ line.text.length ∧
    (line.truncated = true ↔ line.text ≠ before ++ (line.text ++ behind)) ∧
    Highlights line.text (position.spanned source) highlight

/-- The width of what is underlined: the characters that are covered on the line. -/
theorem highlightWidth_eq (stands : position.StandsIn source lines line left behind)
    (short : byteLength source ≤ maxOffset) (stop : IsBoundary source position.span.stop) :
    highlightWidth source position left.length = max 1 (position.spanned source).length := by
  obtain ⟨piece, after, restEq, spanEq⟩ := stands.exists_piece short stop
  rw [stands.spanned_eq restEq spanEq, List.length_take, Nat.min_comm, highlightWidth]
  cases lengthEq : position.length with
  | none =>
      -- a point covers no bytes
      have stopLe : position.span.stop ≤ position.span.start := by
        simp only [Position.span, lengthEq, Option.getD_none, Nat.add_zero]
        exact Nat.min_le_left _ _
      rw [spanEq] at stopLe
      have empty : piece = [] := by
        by_contra nonempty
        have := byteLength_pos nonempty
        simp only [byteLength_append] at stopLe
        omega
      simp [empty]
  | some length =>
      have selects : position.span.Selects source piece := by
        refine ⟨lines ++ line, after, ?_, spanEq⟩
        rw [← restEq, List.append_assoc]
        exact stands.sourceEq
      simp [selects.slice?_eq, Nat.min_comm]

/-- A window of a text, and what it leaves out on both sides. -/
theorem take_append_window {first last : Nat} (ordered : first ≤ last) (text : List Char) :
    text.take first ++ ((text.take last).drop first ++ text.drop last) = text := by
  have headEq : (text.take last).take first = text.take first := by
    rw [List.take_take, Nat.min_eq_left ordered]
  rw [← List.append_assoc, ← headEq, List.take_append_drop, List.take_append_drop]

/-- What a window shows from a place on. -/
theorem drop_window {first last : Nat} (within : first ≤ line.length) (left : List Char) :
    (((line ++ left).take last).drop first).drop (line.length - first) =
      left.take (last - line.length) := by
  rw [List.drop_drop, Nat.add_sub_cancel' within, List.drop_take, List.drop_left]

theorem problemLine_underlines (stands : position.StandsIn source lines line left behind)
    (short : byteLength source ≤ maxOffset) (stop : IsBoundary source position.span.stop)
    (number : Nat) :
    Underlines source position (problemLine layout source position number (line ++ left)) := by
  obtain ⟨piece, after, restEq, spanEq⟩ := stands.exists_piece short stop
  have coveredEq := stands.spanned_eq restEq spanEq
  have columnEq : min (position.column - 1) (line ++ left).length = line.length := by
    rw [stands.columnEq, List.length_append]
    omega
  have leftEq : (line ++ left).length - line.length = left.length := by simp
  have widthEq := highlightWidth_eq stands short stop
  rw [Underlines, problemLine]
  simp only [columnEq, leftEq, widthEq]
  set covered := position.spanned source
  set width := max 1 covered.length with widthDef
  set first := line.length - layout.sideWidth with firstDef
  set last := min (line.length + width + layout.sideWidth) (line ++ left).length with lastDef
  have lengthEq : (line ++ left).length = line.length + left.length := List.length_append
  have ordered : first ≤ last := by omega
  have windowEq := take_append_window ordered (line ++ left)
  have firstLength : ((line ++ left).take first).length = first := by
    rw [List.length_take]
    omega
  refine ⟨(line ++ left).take first, (line ++ left).drop last, _, ?_, rfl, ?_, ?_, ?_, ?_⟩
  · rw [windowEq]
    exact stands.text
  · simp only [firstLength, stands.columnEq]
    omega
  · simp only [List.length_drop, List.length_take]
    omega
  · -- the window is the full line just when nothing is left out on either side
    rw [windowEq, Bool.or_eq_true, decide_eq_true_iff, decide_eq_true_iff, ← not_iff_not, not_not]
    constructor
    · rintro fits
      rw [List.take_of_length_le (by omega), show first = 0 by omega, List.drop_zero]
    · intro full
      have := congrArg List.length full
      simp only [List.length_drop, List.length_take] at this
      omega
  · rw [Highlights, drop_window (by omega)]
    split
    · next empty => simp [widthDef, empty]
    · next nonempty =>
        have positive := List.length_pos_iff.2 nonempty
        have shorter : covered.length ≤ left.length := by
          rw [coveredEq, List.length_take]
          exact Nat.min_le_right _ _
        refine ⟨show width = covered.length by omega, ?_⟩
        rw [List.take_take, show min width (last - line.length) = covered.length by omega]
        conv_rhs => rw [coveredEq]
        rw [List.take_eq_take_iff, coveredEq, List.length_take]
        omega

end Window

section Layout

variable {layout : ExcerptLayout} {source : List Char} {position : Position}

/-- What an excerpt around a place of a source shows: as many lines above and below the
place as there are and as the layout admits, numbered without gaps, with numbers that fit
the gutter; the line of the place, and no other, has a highlight, which underlines what the
place covers. -/
structure Shows (layout : ExcerptLayout) (source : List Char) (position : Position)
    (excerpt : Excerpt) : Prop where
  numbers : excerpt.lines.map (·.number) =
    List.range' (position.line - min (position.line - 1) layout.linesBefore)
      (min (position.line - 1) layout.linesBefore + 1 +
        min ((LineTable.ofText source).lineCount - position.line) layout.linesAfter)
  gutter : ∀ line ∈ excerpt.lines, (toString line.number).length ≤ excerpt.gutterWidth
  highlighted : ∀ line ∈ excerpt.lines,
    (line.highlight.isSome = true ↔ line.number = position.line)
  underlined : ∃ line ∈ excerpt.lines, Underlines source position line

theorem length_toString_le {first second : Nat} (ordered : first ≤ second) :
    (toString first).length ≤ (toString second).length := by
  rw [Nat.toString_eq_repr, Nat.toString_eq_repr]
  have short := (Nat.length_repr_le_iff Nat.length_repr_pos).1 (Nat.le_refl second.repr.length)
  exact (Nat.length_repr_le_iff Nat.length_repr_pos).2 (Nat.lt_of_le_of_lt ordered short)

/-- A line of an excerpt, by its number. -/
def lineAt (layout : ExcerptLayout) (source : List Char) (position : Position) (number : Nat) :
    ExcerptLine :=
  let text := ((LineTable.ofText source).lineText? source number).getD []
  if number = position.line then problemLine layout source position number text
  else contextLine layout number text

theorem number_lineAt (number : Nat) : (lineAt layout source position number).number = number := by
  rw [lineAt]
  split <;> rfl

theorem highlight_lineAt (number : Nat) :
    (lineAt layout source position number).highlight.isSome = true ↔ number = position.line := by
  rw [lineAt]
  split
  · next same => simp [problemLine, same]
  · next other => simp [contextLine, other]

theorem build_shows (isTrue : position.IsTrue source) (short : byteLength source ≤ maxOffset)
    (stop : IsBoundary source position.span.stop) :
    Shows layout source position (build layout source position) := by
  obtain ⟨lines, line, left, behind, stands⟩ := isTrue.exists_standsIn
  have positive := stands.line_pos
  have within := stands.line_le
  set count := (LineTable.ofText source).lineCount with countDef
  have problemEq : max 1 (min position.line count) = position.line := by omega
  set first := position.line - min (position.line - 1) layout.linesBefore with firstDef
  set last := min (position.line + layout.linesAfter) count with lastDef
  have firstEq : max 1 (position.line - layout.linesBefore) = first := by omega
  have buildEq : build layout source position =
      ⟨(toString last).length,
        (List.range' first (last + 1 - first)).map (lineAt layout source position)⟩ := by
    simp only [build, ← countDef, problemEq, firstEq, ← lastDef]
    rfl
  rw [buildEq]
  have inRange : ∀ line ∈ (List.range' first (last + 1 - first)).map
      (lineAt layout source position), ∃ number, first ≤ number ∧ number ≤ last ∧
        line = lineAt layout source position number := by
    intro line member
    obtain ⟨number, numbered, rfl⟩ := List.mem_map.1 member
    have := List.mem_range'_1.1 numbered
    exact ⟨number, by omega, by omega, rfl⟩
  refine ⟨?_, ?_, ?_, ?_⟩
  · have lengthEq : last + 1 - first =
        min (position.line - 1) layout.linesBefore + 1 +
          min (count - position.line) layout.linesAfter := by
      omega
    rw [List.map_map, ← lengthEq]
    exact (List.map_congr_left fun number _ => number_lineAt number).trans (List.map_id _)
  · intro line member
    obtain ⟨number, -, le, rfl⟩ := inRange line member
    rw [number_lineAt]
    exact length_toString_le le
  · intro line member
    obtain ⟨number, -, -, rfl⟩ := inRange line member
    rw [number_lineAt]
    exact highlight_lineAt number
  · refine ⟨_, List.mem_map_of_mem (a := position.line) (List.mem_range'_1.2 (by omega)), ?_⟩
    rw [lineAt, if_pos rfl, stands.text, Option.getD_some]
    exact problemLine_underlines stands short stop _

end Layout

section Sizes

/-- The largest size that a machine can count with. -/
def maxSize : Nat := 18446744073709551615

/-- A sum of sizes, if it is one. -/
def sum? (first second : Nat) : Option Nat :=
  if first + second ≤ maxSize then some (first + second) else none

/-- A difference of sizes, which must not be negative. -/
def difference? (larger smaller : Nat) : Option Nat :=
  if smaller ≤ larger then some (larger - smaller) else none

/-- The characters between two places of a text, which must lie in it, in order. -/
def between? (first last : Nat) (text : List Char) : Option (List Char) :=
  if first ≤ last ∧ last ≤ text.length then some ((text.take last).drop first) else none

/-- The line of a problem laid out with sizes of a machine.  Only the start of the window
stops at zero by itself; every other step can fail. -/
def problemLine? (layout : ExcerptLayout) (source : List Char) (position : Position)
    (number : Nat) (text : List Char) : Option ExcerptLine := do
  let before ← difference? (max 1 position.column) 1
  let column := min before text.length
  let left ← difference? text.length column
  let width := highlightWidth source position left
  let first := column - layout.sideWidth
  let marked ← sum? column width
  let wide ← sum? marked layout.sideWidth
  let last := min wide text.length
  let shown ← between? first (max first last) text
  let start ← difference? column first
  return ⟨number, shown, 0 < first || last < text.length, some ⟨start, width⟩⟩

/-- An excerpt laid out with sizes of a machine. -/
def build? (layout : ExcerptLayout) (source : List Char) (position : Position) :
    Option Excerpt := do
  let table := LineTable.ofText source
  let count := table.lineCount
  let problem := max 1 (min position.line count)
  let first := max 1 (problem - layout.linesBefore)
  let last := min (problem + layout.linesAfter) count
  let lines ← (List.range' first (last + 1 - first)).mapM fun number =>
    let text := (table.lineText? source number).getD []
    if number = problem then problemLine? layout source position number text
    else some (contextLine layout number text)
  return ⟨(toString last).length, lines⟩

/-- Whether a layout leaves room for the lines of a source: the width on one side of a
problem and a line with a caret behind it make a size. -/
def LeavesRoom (layout : ExcerptLayout) (source : List Char) : Prop :=
  ∀ number line, (LineTable.ofText source).lineText? source number = some line →
    line.length + 1 + layout.sideWidth ≤ maxSize

variable {layout : ExcerptLayout} {source text : List Char}

/-- It is enough if there is room for the whole source. -/
theorem leavesRoom_of_length (room : source.length + 1 + layout.sideWidth ≤ maxSize) :
    LeavesRoom layout source := by
  intro number line found
  have := (LineTable.lineText?_isInfix found).length_le
  omega

theorem highlightWidth_le (source : List Char) (position : Position) (left : Nat) :
    highlightWidth source position left ≤ max 1 left := by
  unfold highlightWidth
  split
  · omega
  · simp only
    omega

theorem problemLine?_eq (room : text.length + 1 + layout.sideWidth ≤ maxSize)
    (position : Position) (number : Nat) :
    problemLine? layout source position number text =
      some (problemLine layout source position number text) := by
  have beforeEq : difference? (max 1 position.column) 1 = some (position.column - 1) := by
    rw [difference?, if_pos (Nat.le_max_left _ _), Option.some.injEq]
    omega
  simp only [problemLine?, problemLine, beforeEq, Option.bind_eq_bind, Option.bind_some]
  set column := min (position.column - 1) text.length with columnDef
  have leftEq : difference? text.length column = some (text.length - column) :=
    if_pos (Nat.min_le_right _ _)
  rw [leftEq, Option.bind_some]
  have narrow := highlightWidth_le source position (text.length - column)
  set width := highlightWidth source position (text.length - column)
  have markedEq : sum? column width = some (column + width) := if_pos (by omega)
  have wideEq : sum? (column + width) layout.sideWidth = some (column + width + layout.sideWidth) :=
    if_pos (by omega)
  rw [markedEq, Option.bind_some, wideEq, Option.bind_some]
  set first := column - layout.sideWidth with firstDef
  set last := min (column + width + layout.sideWidth) text.length with lastDef
  have shownEq : between? first (max first last) text = some ((text.take last).drop first) := by
    rw [between?, if_pos (by omega), Nat.max_eq_right (by omega)]
  have startEq : difference? column first = some (column - first) := if_pos (by omega)
  rw [shownEq, Option.bind_some, startEq]
  rfl

/-- No step of the layout fails. -/
theorem build?_eq (room : LeavesRoom layout source) (position : Position) :
    build? layout source position = some (build layout source position) := by
  have roomAt : ∀ number,
      (((LineTable.ofText source).lineText? source number).getD []).length + 1 +
        layout.sideWidth ≤ maxSize := by
    intro number
    cases found : (LineTable.ofText source).lineText? source number with
    | some line => exact room number line found
    | none =>
        -- there is always a first line, with room for it
        have starts : StartsLine [] source := .inl rfl
        have := room 1 _ (LineTable.lineText?_behindLines starts).2
        simp only [Option.getD_none, List.length_nil]
        omega
  simp only [build?, build, problemLine?_eq (roomAt _), ← apply_ite some]
  simp only [← Option.pure_def, List.mapM_pure, pure_bind]

end Sizes

/-- An excerpt around a true place of a source underlines what the place covers on its line,
and at no place, true or not, does the layout leave the sizes of a machine. -/
theorem build_underlines (layout : ExcerptLayout) (source : List Char) :
    (∀ position : Position, byteLength source ≤ maxOffset → position.IsTrue source →
      IsBoundary source position.span.stop →
        Shows layout source position (build layout source position)) ∧
    (LeavesRoom layout source →
      ∀ position, build? layout source position = some (build layout source position)) :=
  ⟨fun _ short isTrue stop => build_shows isTrue short stop, build?_eq⟩

/-- Three lines, with characters of two bytes. -/
def accentedLines : List Char :=
  "é\r\nbüx\ny".toList

/-- A problem that goes on to the next line, in a window as narrow as can be. -/
theorem build_underlines_accentedLines :
    let layout : ExcerptLayout := ⟨1, 0, 3, 0⟩
    let position : Position := ⟨2, 2, 5, some 5⟩
    (byteLength accentedLines ≤ maxOffset ∧ position.IsTrue accentedLines ∧
      IsBoundary accentedLines position.span.stop ∧ LeavesRoom layout accentedLines) ∧
    Shows layout accentedLines position (build layout accentedLines position) ∧
    build? layout accentedLines position =
      some ⟨1, [⟨1, ['é'], false, none⟩, ⟨2, ['ü', 'x'], true, some ⟨0, 2⟩⟩]⟩ := by
  intro layout position
  have short : byteLength accentedLines ≤ maxOffset := by decide
  have isTrue : position.IsTrue accentedLines :=
    ⟨⟨"é\r\nb".toList, "üx\ny".toList, by decide, by decide, by decide⟩, by decide⟩
  have stop : IsBoundary accentedLines position.span.stop :=
    ⟨accentedLines, [], by decide, by decide⟩
  have room : LeavesRoom layout accentedLines := leavesRoom_of_length (by decide)
  obtain ⟨shows, fits⟩ := build_underlines layout accentedLines
  refine ⟨⟨short, isTrue, stop, room⟩, shows position short isTrue stop, ?_⟩
  exact (fits room position).trans (by decide)

end Excerpt

end TemplateCompiler
