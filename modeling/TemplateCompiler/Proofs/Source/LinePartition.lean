import TemplateCompiler.Proofs.Source.Moves

/-!
# The lines of a source divide it

A source is its lines, each but the last with its line break behind it.  A line table holds
where they start: the starts increase, every offset lies in just one line, and the texts of
the lines are what remains without the breaks.  At every place that is not inside a line
break the table finds the line and the column that a cursor has counted on its way there.

The induction is on the division, with the text before it left open: behind the first line
and its break the table goes on like that of the text behind.
-/

namespace TemplateCompiler

namespace Text

/-- Whether some characters are a whole line break when a text stands behind them. -/
inductive IsLineEnding : (ending behind : List Char) → Prop
  | feed (behind : List Char) : IsLineEnding ['\n'] behind
  | pair (behind : List Char) : IsLineEnding ['\r', '\n'] behind
  | carriage {behind : List Char} (lone : behind.head? ≠ some '\n') : IsLineEnding ['\r'] behind

/-- Whether a text is some lines without line breaks, with a line break behind each but the
last. -/
inductive IsDivided : (text : List Char) → (lines : List (List Char)) → Prop
  | last {line : List Char} (unbroken : ∀ c ∈ line, isLineBreak c = false) : IsDivided line [line]
  | broken {line ending text : List Char} {lines : List (List Char)}
      (unbroken : ∀ c ∈ line, isLineBreak c = false) (isEnding : IsLineEnding ending text)
      (later : IsDivided text lines) : IsDivided (line ++ (ending ++ text)) (line :: lines)

variable {text line ending behind before : List Char} {lines : List (List Char)}

theorem IsLineEnding.isLineBreak (isEnding : IsLineEnding ending behind) :
    ∀ c ∈ ending, isLineBreak c = true := by
  cases isEnding <;> simp [Text.isLineBreak]

theorem IsDivided.cons {c : Char} (plain : isLineBreak c = false) (divided : IsDivided text lines) :
    ∃ longer, IsDivided (c :: text) longer := by
  cases divided with
  | last unbroken => exact ⟨_, .last (List.forall_mem_cons.2 ⟨plain, unbroken⟩)⟩
  | @broken line ending behind lines unbroken isEnding later =>
      have longer : ∀ d ∈ c :: line, Text.isLineBreak d = false :=
        List.forall_mem_cons.2 ⟨plain, unbroken⟩
      exact ⟨(c :: line) :: lines, .broken longer isEnding later⟩

theorem exists_isDivided : (text : List Char) → ∃ lines, IsDivided text lines
  | [] => ⟨[[]], .last (List.forall_mem_nil _)⟩
  | c :: text => by
      by_cases isFeed : c = '\n'
      · obtain ⟨lines, divided⟩ := exists_isDivided text
        exact ⟨[] :: lines, isFeed ▸ .broken (List.forall_mem_nil _) (.feed text) divided⟩
      by_cases isReturn : c = '\r'
      · subst isReturn
        by_cases isPair : text.head? = some '\n'
        · obtain ⟨behind, rfl⟩ := List.head?_eq_some_iff.1 isPair
          obtain ⟨lines, divided⟩ := exists_isDivided behind
          exact ⟨[] :: lines, .broken (List.forall_mem_nil _) (.pair behind) divided⟩
        · obtain ⟨lines, divided⟩ := exists_isDivided text
          exact ⟨[] :: lines, .broken (List.forall_mem_nil _) (.carriage isPair) divided⟩
      · obtain ⟨lines, divided⟩ := exists_isDivided text
        exact divided.cons (by simp [isLineBreak, isFeed, isReturn])
termination_by text => text.length

/-- What remains of a line and its break when the characters of breaks at its end are taken
off. -/
theorem dropBreaks_append (unbroken : ∀ c ∈ line, isLineBreak c = false)
    (breaks : ∀ c ∈ ending, isLineBreak c = true) :
    ((line ++ ending).reverse.dropWhile isLineBreak).reverse = line := by
  have ends : ∀ c ∈ ending.reverse, isLineBreak c = true :=
    fun c member => breaks c (List.mem_reverse.1 member)
  rw [List.reverse_append, List.dropWhile_append_of_pos ends]
  cases line using List.reverseRecOn with
  | nil => rfl
  | append_singleton line c =>
      have := unbroken c (by simp)
      simp [this]

theorem slice?_byteLength (before middle after : List Char) :
    slice? (byteLength before) (byteLength before + byteLength middle)
      (before ++ (middle ++ after)) = some middle := by
  simp [slice?, dropBytes?_byteLength, takeBytes?_byteLength]

end Text

open Text

namespace LineTable

variable {text line ending behind before : List Char} {lines : List (List Char)}

theorem startsAfter_unbroken (unbroken : ∀ c ∈ line, isLineBreak c = false) (offset : Nat)
    (behind : List Char) :
    startsAfter offset (line ++ behind) = startsAfter (offset + byteLength line) behind := by
  induction line generalizing offset with
  | nil => rfl
  | cons c line ih =>
      obtain ⟨plain, unbrokenThen⟩ := List.forall_mem_cons.1 unbroken
      rw [List.cons_append, startsAfter, endsLine_of_not_isLineBreak plain,
        if_neg Bool.false_ne_true, ih unbrokenThen, byteLength_cons, Nat.add_assoc]

theorem startsAfter_ending (isEnding : IsLineEnding ending behind) (offset : Nat) :
    startsAfter offset (ending ++ behind) =
      (offset + byteLength ending) :: startsAfter (offset + byteLength ending) behind := by
  cases isEnding with
  | feed => simp [startsAfter, endsLine]
  | pair => simp [startsAfter, endsLine, Nat.add_assoc]
  | carriage lone => simp [startsAfter, endsLine, lone]

/-- The table of a text that stands behind some other text. -/
def behindText (before text : List Char) : LineTable :=
  ⟨byteLength before :: startsAfter (byteLength before) text⟩

theorem startsAfter_line (unbroken : ∀ c ∈ line, isLineBreak c = false)
    (isEnding : IsLineEnding ending behind) (before : List Char) :
    startsAfter (byteLength before) (line ++ (ending ++ behind)) =
      (behindText (before ++ (line ++ ending)) behind).starts := by
  rw [startsAfter_unbroken unbroken, startsAfter_ending isEnding, behindText]
  simp only [byteLength_append, Nat.add_assoc]

theorem startsAfter_last (unbroken : ∀ c ∈ line, isLineBreak c = false) (offset : Nat) :
    startsAfter offset line = [] := by
  have := startsAfter_unbroken unbroken offset []
  rwa [List.append_nil] at this

/-- The first line of a table, when its start and where the next one starts are known. -/
theorem lineText?_one (before behind : List Char) (table : LineTable)
    (unbroken : ∀ c ∈ line, isLineBreak c = false) (breaks : ∀ c ∈ ending, isLineBreak c = true)
    (startEq : table.start? 1 = some (byteLength before))
    (stopEq : (table.start? 2).getD (byteLength (before ++ ((line ++ ending) ++ behind))) =
      byteLength before + byteLength (line ++ ending)) :
    table.lineText? (before ++ ((line ++ ending) ++ behind)) 1 = some line := by
  simp only [lineText?, startEq, stopEq, Option.bind_eq_bind, Option.bind_some,
    slice?_byteLength before (line ++ ending) behind]
  exact congrArg some (dropBreaks_append unbroken breaks)

theorem lineText?_behindText (divided : IsDivided text lines) (before : List Char) (index : Nat) :
    (behindText before text).lineText? (before ++ text) (index + 1) = lines[index]? := by
  induction divided generalizing before index with
  | @last line unbroken =>
      have startsEq := startsAfter_last unbroken (byteLength before)
      cases index with
      | zero =>
          have first := lineText?_one before [] (behindText before line) unbroken
            (List.forall_mem_nil _) rfl (by simp [behindText, start?, startsEq])
          simpa using first
      | succ index => simp [lineText?, behindText, start?, startsEq]
  | @broken line ending text lines unbroken isEnding later ih =>
      have startsEq := startsAfter_line unbroken isEnding before
      cases index with
      | zero =>
          have first := lineText?_one before text (behindText before (line ++ (ending ++ text)))
            unbroken isEnding.isLineBreak rfl
            (by simp [behindText, start?, startsEq, Nat.add_assoc])
          simpa using first
      | succ index =>
          rw [List.getElem?_cons_succ, ← ih (before ++ (line ++ ending)) index]
          simp [lineText?, behindText, start?, startsEq]

theorem length_starts_behindText (divided : IsDivided text lines) (before : List Char) :
    (behindText before text).starts.length = lines.length := by
  induction divided generalizing before with
  | last unbroken => simp [behindText, startsAfter_last unbroken]
  | @broken line ending text lines unbroken isEnding later ih =>
      have := ih (before ++ (line ++ ending))
      rw [behindText, startsAfter_line unbroken isEnding, List.length_cons, List.length_cons, this]

theorem length_startsAfter (offset : Nat) (text : List Char) :
    (startsAfter offset text).length = lineBreaks text none := by
  induction text generalizing offset with
  | nil => rfl
  | cons c text ih =>
      simp only [startsAfter, lineBreaks, Option.or_none]
      split
      · rw [List.length_cons, ih, Nat.add_comm]
      · rw [ih, Nat.zero_add]

theorem increasing_startsAfter (offset : Nat) (text : List Char) :
    (startsAfter offset text).Pairwise (· < ·) := by
  induction text generalizing offset with
  | nil => exact .nil
  | cons c text ih =>
      simp only [startsAfter]
      split
      · exact List.pairwise_cons.2 ⟨fun _ => lt_of_mem_startsAfter, ih _⟩
      · exact ih _

theorem increasing_ofText (text : List Char) : (ofText text).starts.Pairwise (· < ·) :=
  List.pairwise_cons.2 ⟨fun _ => lt_of_mem_startsAfter, increasing_startsAfter 0 text⟩

/-- Of increasing starts those up to an offset come first. -/
theorem le_iff_lt_countP {starts : List Nat} (increasing : starts.Pairwise (· < ·))
    {index start : Nat} (found : starts[index]? = some start) (offset : Nat) :
    start ≤ offset ↔ index < starts.countP (· ≤ offset) := by
  induction starts generalizing index with
  | nil => simp at found
  | cons first starts ih =>
      obtain ⟨below, increasingThen⟩ := List.pairwise_cons.1 increasing
      by_cases started : first ≤ offset
      · rw [List.countP_cons_of_pos (by simpa using started)]
        cases index with
        | zero =>
            obtain rfl : first = start := by simpa using found
            exact iff_of_true started (Nat.succ_pos _)
        | succ index => rw [ih increasingThen (by simpa using found), Nat.add_lt_add_iff_right]
      · have noneStarted : (first :: starts).countP (· ≤ offset) = 0 := by
          rw [List.countP_eq_zero]
          intro other member
          rcases List.mem_cons.1 member with rfl | later
          · simpa using started
          · have := below other later
            simp only [decide_eq_true_eq]
            omega
        have notBefore : first ≤ start := by
          rcases List.mem_cons.1 (List.mem_of_getElem? found) with rfl | later
          · exact Nat.le_refl _
          · exact Nat.le_of_lt (below start later)
        rw [noneStarted]
        omega

/-- Whether an offset lies in the range of a line: from the start of the line up to where the
next one starts, or up to the end of the text when there is no next one. -/
def Covers (table : LineTable) (text : List Char) (line offset : Nat) : Prop :=
  ∃ start, table.start? line = some start ∧ start ≤ offset ∧
    match table.start? (line + 1) with
    | some next => offset < next
    | none => offset ≤ byteLength text

/-- An offset lies in the line that the table finds for it, and in no other. -/
theorem covers_iff {offset : Nat} (within : offset ≤ byteLength text) (line : Nat) :
    (ofText text).Covers text line offset ↔ line = (ofText text).lineOf offset := by
  have increasing := increasing_ofText text
  have positive : 0 < (ofText text).starts.countP (· ≤ offset) := by
    rw [ofText, List.countP_cons_of_pos (by simp)]
    exact Nat.succ_pos _
  have lineOfEq : (ofText text).lineOf offset = (ofText text).starts.countP (· ≤ offset) :=
    Nat.max_eq_right positive
  have counted : (ofText text).starts.countP (· ≤ offset) ≤ (ofText text).starts.length :=
    List.countP_le_length
  rw [lineOfEq]
  cases line with
  | zero =>
      have noStart : (ofText text).start? 0 = none := rfl
      refine iff_of_false ?_ (Nat.ne_of_lt positive)
      rintro ⟨start, found, -⟩
      rw [noStart] at found
      contradiction
  | succ index =>
      simp only [Covers, start?, Nat.succ_ne_zero, if_false, Nat.add_sub_cancel]
      constructor
      · rintro ⟨start, found, started, ends⟩
        have low := (le_iff_lt_countP increasing found offset).1 started
        cases nextEq : (ofText text).starts[index + 1]? with
        | some next =>
            rw [nextEq] at ends
            have := le_iff_lt_countP increasing nextEq offset
            simp only at ends
            omega
        | none =>
            have := List.getElem?_eq_none_iff.1 nextEq
            omega
      · intro indexEq
        obtain ⟨start, found⟩ : ∃ start, (ofText text).starts[index]? = some start :=
          ⟨_, List.getElem?_eq_getElem (by omega)⟩
        refine ⟨start, found, (le_iff_lt_countP increasing found offset).2 (by omega), ?_⟩
        cases nextEq : (ofText text).starts[index + 1]? with
        | some next =>
            have := le_iff_lt_countP increasing nextEq offset
            simp only
            omega
        | none => exact within

/-- The line and column of a place are those of a cursor that has stepped there. -/
theorem lineAndColumn_byteLength {after : List Char} (whole : ¬ SplitsPair before after) :
    let mark := (Cursor.advance^[before.length] (Cursor.ofText (before ++ after))).mark
    (ofText (before ++ after)).lineAndColumn (before ++ after) (byteLength before) =
      (mark.line, mark.column) := by
  obtain ⟨earlier, line, rfl, unbroken, starts⟩ := exists_line whole
  rw [← Cursor.advanceBy_eq_iterate, List.append_assoc]
  exact (lineAndColumn_eq unbroken starts).trans
    (Cursor.advanceBy_lineAndColumn unbroken starts).symm

theorem lineCount_eq (text : List Char) :
    (ofText text).lineCount = (Cursor.advance^[text.length] (Cursor.ofText text)).mark.line := by
  have restEq : (Cursor.ofText text).rest = text ++ [] := (List.append_nil text).symm
  have reached := Cursor.advanceBy_line restEq
  rw [← Cursor.advanceBy_eq_iterate, reached, lineCount, ofText, List.length_cons,
    length_startsAfter]
  exact Nat.add_comm _ _

/-- The lines of a table divide the text, each where the table has it start, and the lines and
columns that the table finds are those that a cursor counts. -/
theorem lines_divide_text (text : List Char) :
    ((ofText text).start? 1 = some 0 ∧ (ofText text).starts.Pairwise (· < ·)) ∧
    (∃ lines, IsDivided text lines ∧ (ofText text).lineCount = lines.length ∧
      ∀ index, (ofText text).lineText? text (index + 1) = lines[index]?) ∧
    (∀ offset ≤ byteLength text, ∀ line,
      (ofText text).Covers text line offset ↔ line = (ofText text).lineOf offset) ∧
    (∀ before after, text = before ++ after → ¬ SplitsPair before after →
      let mark := (Cursor.advance^[before.length] (Cursor.ofText text)).mark
      (ofText text).lineAndColumn text (byteLength before) = (mark.line, mark.column)) ∧
    (ofText text).lineCount = (Cursor.advance^[text.length] (Cursor.ofText text)).mark.line := by
  refine ⟨⟨rfl, increasing_ofText text⟩, ?_, fun offset within line => covers_iff within line, ?_,
    lineCount_eq text⟩
  · obtain ⟨lines, divided⟩ := exists_isDivided text
    exact ⟨lines, divided, length_starts_behindText divided [], lineText?_behindText divided []⟩
  · rintro before after rfl whole
    exact lineAndColumn_byteLength whole

/-- A text with line breaks of every kind, the last one at its end. -/
def mixedBreaks : List Char :=
  "é\r\nb\r\rc\n".toList

/-- Its lines, one of its offsets and the place before its last character. -/
theorem lines_divide_mixedBreaks :
    (∃ lines, IsDivided mixedBreaks lines ∧ (ofText mixedBreaks).lineCount = lines.length) ∧
    (ofText mixedBreaks).lineCount = 5 ∧
    (3 ≤ byteLength mixedBreaks ∧ (ofText mixedBreaks).Covers mixedBreaks 1 3) ∧
    ¬ SplitsPair "é\r\nb\r\rc".toList ['\n'] ∧
    (ofText mixedBreaks).lineAndColumn mixedBreaks 8 = (4, 2) := by
  obtain ⟨-, ⟨lines, divided, countEq, -⟩, covers, agrees, -⟩ := lines_divide_text mixedBreaks
  refine ⟨⟨lines, divided, countEq⟩, by decide, ⟨by decide, ?_⟩, by decide, ?_⟩
  · exact (covers 3 (by decide) 1).2 (by decide)
  · have := agrees "é\r\nb\r\rc".toList ['\n'] (by decide) (by decide)
    exact this.trans (by decide)

end LineTable

end TemplateCompiler
