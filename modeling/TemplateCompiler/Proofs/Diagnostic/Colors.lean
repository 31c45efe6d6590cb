import TemplateCompiler.Diagnostic.Terminal
import TemplateCompiler.Proofs.Source.Boundaries
import Mathlib.Tactic.Common

/-!
# Colors add nothing but escape sequences

A report is written from segments.  Without colors the segments of an excerpt are its plain
text, line by line: what is cut at the marked characters of a line comes together again
wherever the mark stands, also behind the end of the line.  With colors, a reader who
deletes the escape sequences is left with the text that is written without colors, as long
as no text that is reported has an escape character of its own.
-/

namespace TemplateCompiler

open Text

/-- An excerpt shows only characters of the source. -/
theorem Excerpt.text_subset_of_mem_build {layout : ExcerptLayout} {source : List Char}
    {position : Position} {line : ExcerptLine}
    (member : line ∈ (build layout source position).lines) : line.text ⊆ source := by
  obtain ⟨number, -, rfl⟩ := List.mem_map.1 member
  have within : ((LineTable.ofText source).lineText? source number).getD [] ⊆ source := by
    cases found : (LineTable.ofText source).lineText? source number with
    | none => exact List.nil_subset _
    | some content => exact (LineTable.lineText?_isInfix found).subset
  dsimp only
  split
  · exact List.Subset.trans (List.drop_subset _ _) (List.Subset.trans (List.take_subset _ _) within)
  · exact List.Subset.trans (List.take_subset _ _) within

namespace Terminal

/-- The character that begins every escape sequence. -/
def escapeChar : Char := '\x1b'

/-- What a reader of a terminal stream is in the middle of. -/
inductive Reading where
  | text
  /-- Just behind an escape character. -/
  | escape
  /-- Inside of a sequence that a bracket has introduced. -/
  | sequence
deriving DecidableEq, Repr

/-- Whether a character ends a sequence that a bracket has introduced. -/
def endsSequence (c : Char) : Bool :=
  '@' ≤ c && c ≤ '~'

/-- What remains of a stream when its escape sequences are deleted. -/
def withoutEscapes : Reading → List Char → List Char
  | _, [] => []
  | .text, c :: behind =>
      if c = escapeChar then withoutEscapes .escape behind else c :: withoutEscapes .text behind
  | .escape, c :: behind => withoutEscapes (if c = '[' then .sequence else .text) behind
  | .sequence, c :: behind =>
      withoutEscapes (if endsSequence c then .text else .sequence) behind

/-- A text without its escape sequences. -/
def deleteEscapes (text : String) : String :=
  String.ofList (withoutEscapes .text text.toList)

/-- Whether a text has no escape character. -/
def IsUncolored (text : String) : Prop :=
  escapeChar ∉ text.toList

instance (text : String) : Decidable (IsUncolored text) :=
  inferInstanceAs (Decidable (escapeChar ∉ text.toList))

section Writing

variable (colors : Bool) (first second : List Segment)

@[simp]
theorem write_nil : write colors [] = "" :=
  rfl

@[simp]
theorem write_cons (segment : Segment) (segments : List Segment) :
    write colors (segment :: segments) = segment.written colors ++ write colors segments := by
  simp [write]

@[simp]
theorem write_append :
    write colors (first ++ second) = write colors first ++ write colors second := by
  simp [write]

theorem write_flatMap {α : Type} (segments : α → List Segment) (parts : List α) :
    write colors (parts.flatMap segments) =
      String.join (parts.map fun part => write colors (segments part)) := by
  induction parts with
  | nil => rfl
  | cons part parts ih => simp [ih]

@[simp]
theorem written_plain (text : String) : (plain text).written colors = text :=
  rfl

@[simp]
theorem written_styled (style : Style) (text : String) : (styled style text).written false = text :=
  rfl

end Writing

section PlainText

theorem write_ellipsis (line : ExcerptLine) :
    write false (ellipsis line) = if line.truncated then " ..." else "" := by
  unfold ellipsis
  split <;> simp

/-- A line comes together again when it is cut before and behind some of its characters. -/
theorem take_drop_append (text tail : List Char) (start width : Nat) :
    text.take start ++ ((text.drop start).take width ++ (text.drop (start + width) ++ tail)) =
      text ++ tail := by
  rw [← List.append_assoc ((text.drop start).take width), ← List.drop_drop,
    List.take_append_drop, ← List.append_assoc, List.take_append_drop]

/-- The segments of a line of an excerpt are its plain text, whatever is marked in it. -/
theorem write_excerptLine (accent : Style) (width : Nat) (line : ExcerptLine) :
    write false (excerptLine accent width line) = Excerpt.lineText width line := by
  unfold excerptLine Excerpt.lineText
  apply String.toList_inj.1
  cases line.highlight with
  | none => simp [write_ellipsis]
  | some highlight => simp [write_ellipsis, take_drop_append]

/-- Both ways of writing an excerpt agree. -/
theorem write_excerpt (layout : ExcerptLayout) (source : Source) (severity : Severity)
    (position : Position) :
    write false (excerpt layout source severity position) =
      (Excerpt.build layout source.text.toList position).plainText := by
  simp only [excerpt, write_flatMap, write_excerptLine, Excerpt.plainText]

theorem write_noteLine (note : String) : write false (noteLine note) = s!"  = note: {note}\n" := by
  apply String.toList_inj.1
  simp [noteLine, toString]

theorem write_headline (diagnostic : Diagnostic) :
    write false (headline diagnostic) =
      s!"{diagnostic.severity.text}[{diagnostic.code.text}]: {diagnostic.message}\n" := by
  apply String.toList_inj.1
  simp [headline, toString]

theorem write_location (source : Source) (position : Position) :
    write false (location (some source) position) =
      s!"  --> {source.name}:{position.text}\n" := by
  apply String.toList_inj.1
  simp [location, toString]

end PlainText

section Deleting

theorem withoutEscapes_append {text : List Char} (uncolored : escapeChar ∉ text)
    (behind : List Char) :
    withoutEscapes .text (text ++ behind) = text ++ withoutEscapes .text behind := by
  induction text with
  | nil => rfl
  | cons c text ih =>
      obtain ⟨other, uncoloredThen⟩ := not_or.1 (List.mem_cons.not.1 uncolored)
      rw [List.cons_append, withoutEscapes, if_neg (Ne.symm other), ih uncoloredThen,
        List.cons_append]

theorem withoutEscapes_escape (style : Style) (behind : List Char) :
    withoutEscapes .text (style.escape.toList ++ behind) = withoutEscapes .text behind := by
  cases style <;> simp [Style.escape, withoutEscapes, escapeChar, endsSequence]

theorem withoutEscapes_reset (behind : List Char) :
    withoutEscapes .text (resetEscape.toList ++ behind) = withoutEscapes .text behind := by
  simp [resetEscape, withoutEscapes, escapeChar, endsSequence]

theorem withoutEscapes_written {segment : Segment} (uncolored : IsUncolored segment.text)
    (behind : List Char) :
    withoutEscapes .text ((segment.written true).toList ++ behind) =
      (segment.written false).toList ++ withoutEscapes .text behind := by
  obtain ⟨style, text⟩ := segment
  cases style with
  | none => exact withoutEscapes_append uncolored behind
  | some style =>
      simp only [Segment.written, if_true, String.toList_append, List.append_assoc]
      rw [withoutEscapes_escape, withoutEscapes_append uncolored, withoutEscapes_reset]
      rfl

/-- Without its escape sequences a text with colors is the text without. -/
theorem deleteEscapes_write {segments : List Segment}
    (uncolored : ∀ segment ∈ segments, IsUncolored segment.text) :
    deleteEscapes (write true segments) = write false segments := by
  have remains : withoutEscapes .text (write true segments).toList =
      (write false segments).toList := by
    induction segments with
    | nil => rfl
    | cons segment segments ih =>
        obtain ⟨first, others⟩ := List.forall_mem_cons.1 uncolored
        rw [write_cons, String.toList_append, withoutEscapes_written first, ih others, write_cons,
          String.toList_append]
  rw [deleteEscapes, remains, String.ofList_toList]

end Deleting

section Uncolored

theorem not_mem_toDigits (number : Nat) : escapeChar ∉ Nat.toDigits 10 number := by
  intro member
  have isDigit := Nat.isDigit_of_mem_toDigits (by decide) (by decide) member
  exact absurd isDigit (by decide)

theorem uncolored_gutterNumber (width number : Nat) :
    IsUncolored (Excerpt.gutterNumber width number) := by
  have := not_mem_toDigits number
  simp_all [IsUncolored, Excerpt.gutterNumber, Excerpt.blanks, toString, escapeChar]

theorem uncolored_position (position : Position) : IsUncolored position.text := by
  have := not_mem_toDigits position.line
  have := not_mem_toDigits position.column
  simp_all [IsUncolored, Position.text, toString, escapeChar]

theorem uncolored_severity (severity : Severity) : IsUncolored severity.text := by
  cases severity <;> decide

theorem uncolored_code (code : ErrorCode) : IsUncolored code.text := by
  cases code <;> decide

/-- Whether nothing that a report shows of a source and a diagnostic has an escape
character. -/
structure ShowsUncolored (source : Option Source) (diagnostic : Diagnostic) : Prop where
  name : ∀ known ∈ source, IsUncolored known.name
  text : ∀ known ∈ source, IsUncolored known.text
  message : IsUncolored diagnostic.message
  notes : ∀ note ∈ diagnostic.notes, IsUncolored note

theorem uncolored_excerptLine {accent : Style} {width : Nat} {line : ExcerptLine}
    (uncolored : escapeChar ∉ line.text) :
    ∀ segment ∈ excerptLine accent width line, IsUncolored segment.text := by
  have gutter := uncolored_gutterNumber width line.number
  have before : ∀ start, escapeChar ∉ line.text.take start :=
    fun start member => uncolored (List.mem_of_mem_take member)
  have behind : ∀ start, escapeChar ∉ line.text.drop start :=
    fun start member => uncolored (List.mem_of_mem_drop member)
  have marked : ∀ start width, escapeChar ∉ (line.text.drop start).take width :=
    fun start _ member => behind start (List.mem_of_mem_take member)
  unfold excerptLine ellipsis
  cases line.highlight <;> cases line.truncated <;>
    simp_all [IsUncolored, plain, styled, Excerpt.blanks, Excerpt.carets, escapeChar]

theorem uncolored_excerpt {layout : ExcerptLayout} {source : Source} (severity : Severity)
    (position : Position) (uncolored : IsUncolored source.text) :
    ∀ segment ∈ excerpt layout source severity position, IsUncolored segment.text := by
  rw [excerpt, List.forall_mem_flatMap]
  intro line member
  exact uncolored_excerptLine fun escape =>
    uncolored (Excerpt.text_subset_of_mem_build member escape)

theorem uncolored_headline {diagnostic : Diagnostic} (uncolored : IsUncolored diagnostic.message) :
    ∀ segment ∈ headline diagnostic, IsUncolored segment.text := by
  have := uncolored_severity diagnostic.severity
  have := uncolored_code diagnostic.code
  simp_all [headline, IsUncolored, plain, styled, toString, escapeChar]

theorem uncolored_location {source : Option Source} (position : Position)
    (uncolored : ∀ known ∈ source, IsUncolored known.name) :
    ∀ segment ∈ location source position, IsUncolored segment.text := by
  have := uncolored_position position
  cases source <;>
    simp_all [location, IsUncolored, plain, styled, toString, escapeChar]

theorem uncolored_noteLine {note : String} (uncolored : IsUncolored note) :
    ∀ segment ∈ noteLine note, IsUncolored segment.text := by
  simp_all [noteLine, IsUncolored, plain, styled, toString, escapeChar]

theorem uncolored_report {layout : ExcerptLayout} {source : Option Source}
    {diagnostic : Diagnostic} (shows : ShowsUncolored source diagnostic) :
    ∀ segment ∈ report layout source diagnostic, IsUncolored segment.text := by
  have notes : ∀ segment ∈ diagnostic.notes.flatMap noteLine, IsUncolored segment.text :=
    List.forall_mem_flatMap.2 fun note member => uncolored_noteLine (shows.notes note member)
  have ending : ∀ segment ∈ [plain "\n"], IsUncolored segment.text := by decide
  refine List.forall_mem_append.2 ⟨List.forall_mem_append.2 ⟨List.forall_mem_append.2
    ⟨uncolored_headline shows.message, ?_⟩, notes⟩, ending⟩
  cases diagnostic.position with
  | none => exact List.forall_mem_nil _
  | some position =>
      refine List.forall_mem_append.2 ⟨uncolored_location position shows.name, ?_⟩
      cases source with
      | none => exact List.forall_mem_nil _
      | some source => exact uncolored_excerpt _ position (shows.text source rfl)

theorem uncolored_summary (errors warnings : Nat) :
    ∀ segment ∈ summary errors warnings, IsUncolored segment.text := by
  have := not_mem_toDigits errors
  have := not_mem_toDigits warnings
  unfold summary warningCount
  split_ifs <;> simp_all [IsUncolored, plain, styled, toString, escapeChar]

end Uncolored

/-- The reports of some problems, each with its source if that is known, and the closing
line. -/
def emitted (layout : ExcerptLayout) (problems : List (Option Source × Diagnostic))
    (errors warnings : Nat) : List Segment :=
  problems.flatMap (fun problem => report layout problem.1 problem.2) ++ summary errors warnings

theorem write_report {layout : ExcerptLayout} {source : Source} {diagnostic : Diagnostic}
    {position : Position} (positioned : diagnostic.position = some position) :
    write false (report layout (some source) diagnostic) =
      s!"{diagnostic.severity.text}[{diagnostic.code.text}]: {diagnostic.message}\n" ++
        (s!"  --> {source.name}:{position.text}\n" ++
          ((Excerpt.build layout source.text.toList position).plainText ++
            (String.join (diagnostic.notes.map fun note => s!"  = note: {note}\n") ++ "\n"))) := by
  simp only [report, positioned, write_append, write_headline, write_location, write_excerpt,
    write_flatMap, write_noteLine, write_cons, write_nil, written_plain, String.append_assoc,
    String.append_empty]

/-- Without colors the report of a problem at a place of a source is its headline, the
place, the plain text of the excerpt, the notes and an empty line.  With colors, what is
emitted has the same text between its escape sequences. -/
theorem colors_add_escapes (layout : ExcerptLayout) :
    (∀ source diagnostic position, diagnostic.position = some position →
      write false (report layout (some source) diagnostic) =
        s!"{diagnostic.severity.text}[{diagnostic.code.text}]: {diagnostic.message}\n" ++
          (s!"  --> {source.name}:{position.text}\n" ++
            ((Excerpt.build layout source.text.toList position).plainText ++
              (String.join (diagnostic.notes.map fun note => s!"  = note: {note}\n") ++ "\n")))) ∧
    (∀ problems errors warnings,
      (∀ problem ∈ problems, ShowsUncolored problem.1 problem.2) →
        deleteEscapes (write true (emitted layout problems errors warnings)) =
          write false (emitted layout problems errors warnings)) := by
  refine ⟨fun source diagnostic position positioned => write_report positioned, ?_⟩
  intro problems errors warnings shows
  apply deleteEscapes_write
  refine List.forall_mem_append.2 ⟨List.forall_mem_flatMap.2 ?_, uncolored_summary errors warnings⟩
  exact fun problem member => uncolored_report (shows problem member)

/-- A report with a caret behind the end of the line. -/
theorem colors_add_escapes_behindLine :
    let source : Source := ⟨"page", "<p>\n"⟩
    let diagnostic : Diagnostic :=
      ⟨.unclosed, .error, "unclosed element", some ⟨1, 4, 3, none⟩, ["opened here"]⟩
    ShowsUncolored (some source) diagnostic ∧
      write false (report .standard (some source) diagnostic) =
        "error[E1004]: unclosed element\n  --> page:1:4\n> 1 | <p>\n    |    ^\n  2 | \n" ++
          "  = note: opened here\n\n" ∧
      deleteEscapes (write true (emitted .standard [(some source, diagnostic)] 1 0)) =
        write false (emitted .standard [(some source, diagnostic)] 1 0) := by
  intro source diagnostic
  have shows : ShowsUncolored (some source) diagnostic :=
    ⟨by rintro _ ⟨rfl⟩; decide, by rintro _ ⟨rfl⟩; decide, by decide, by decide⟩
  obtain ⟨written, deleted⟩ := colors_add_escapes .standard
  refine ⟨shows, (written source diagnostic _ rfl).trans ?_, deleted _ 1 0 ?_⟩
  · decide +kernel
  · exact List.forall_mem_singleton.2 shows

end Terminal

end TemplateCompiler
