import TemplateCompiler.Proofs.Lex.FrontMatter

/-!
# The lines of front matter

Front matter ends at the first line that is just the delimiter and does not start inside a
string.  Here this is said about the lines of the text; whether a string is open at the
start of a line is found by reading the quotes before it.  The scan, which goes character
by character, stops at that line, and what it gives is the text before the line without
the line break between the two.
-/

namespace TemplateCompiler

namespace Lex

open Text

variable {c quote : Char} {text inside block rest ending behind content : List Char}

section Lines

/-- A whole line break between two texts, neither of which has a part of it. -/
structure WholeBreak (before ending behind : List Char) : Prop where
  isBreak : ending ∈ [['\n'], ['\r', '\n'], ['\r']]
  begins : ¬SplitsPair before ending
  ends : ¬SplitsPair ending behind

/-- A line is ended by a line break, or by the end of the text. -/
def EndsLine (line ending behind : List Char) : Prop :=
  WholeBreak line ending behind ∨ (ending = [] ∧ behind = [])

/-- The character before a place on the line of that place. -/
def onLine (c : Char) : Option Char :=
  if isLineBreak c then none else some c

/-- The quote of the string that is open behind a text, if one is.  A quote opens a string
unless a letter or a digit stands before it on its line.  In a string a backslash protects
the next character; a line break needs no protection. -/
def openQuote : (opened previous : Option Char) → List Char → Option Char
  | opened, _, [] => opened
  | none, previous, c :: text =>
      if CharClass.isQuote c && !previous.any isAlphanumeric then
        openQuote (some c) (some c) text
      else openQuote none (onLine c) text
  | some quote, _, '\\' :: c :: text => openQuote (some quote) (onLine c) text
  | some quote, _, c :: text =>
      if c = quote then openQuote none (some c) text
      else openQuote (some quote) (onLine c) text

/-- Behind the line that opens front matter, a part of the text ends before a line that is
just the delimiter, and no string is open there. -/
structure ClosesBlock (inside block ending behind : List Char) : Prop where
  divides : inside = block ++ (delimiter ++ (ending ++ behind))
  startsLine : StartsLine block delimiter
  endsLine : EndsLine delimiter ending behind
  noString : openQuote none none block = none

/-- The first part that ends so. -/
structure ClosesFirst (inside block ending behind : List Char) : Prop where
  closes : ClosesBlock inside block ending behind
  first : ∀ other otherEnding otherBehind,
    ClosesBlock inside other otherEnding otherBehind → block.length ≤ other.length

/-- What stands in a block, without the line break before the line that closes it. -/
def IsContent (block content : List Char) : Prop :=
  (block = [] ∧ content = []) ∨
    ∃ ending, block = content ++ ending ∧ WholeBreak content ending delimiter

/-- A text opens with a line that is just the delimiter and is not its only line. -/
def OpensBlock (text inside : List Char) : Prop :=
  ∃ opening, text = delimiter ++ (opening ++ inside) ∧ WholeBreak delimiter opening inside

/-- The front matter of a text and what is behind it. -/
inductive HasMatter : (text content behind : List Char) → Prop
  | block {text inside block ending behind content : List Char} (opens : OpensBlock text inside)
      (closes : ClosesFirst inside block ending behind) (isContent : IsContent block content) :
      HasMatter text content behind
  | absent {text : List Char} (plain : ∀ inside, ¬OpensBlock text inside) : HasMatter text [] text

/-- Front matter opens and no line closes it. -/
def LacksEnd (text : List Char) : Prop :=
  ∃ inside, OpensBlock text inside ∧ ∀ block ending behind, ¬ClosesBlock inside block ending behind

theorem not_splitsPair_delimiter (text : List Char) : ¬SplitsPair delimiter text :=
  not_splitsPair_of_getLast? (by decide) text

theorem exists_wholeBreak (isBreak : isLineBreak c = true) (text : List Char) :
    ∃ ending behind, c :: text = ending ++ behind ∧ WholeBreak delimiter ending behind := by
  have eitherBreak : c = '\n' ∨ c = '\r' := by simpa [isLineBreak] using isBreak
  rcases eitherBreak with rfl | rfl
  · exact ⟨['\n'], text, rfl, by simp, not_splitsPair_delimiter _,
      not_splitsPair_of_getLast? (by decide) text⟩
  by_cases isPair : text.head? = some '\n'
  · obtain ⟨behind, rfl⟩ := List.head?_eq_some_iff.1 isPair
    exact ⟨['\r', '\n'], behind, rfl, by simp, not_splitsPair_delimiter _,
      not_splitsPair_of_getLast? (by decide) behind⟩
  · exact ⟨['\r'], text, rfl, by simp, not_splitsPair_delimiter _,
      not_splitsPair_of_head? isPair _⟩

theorem WholeBreak.exists_cons {before : List Char} (whole : WholeBreak before ending behind) :
    ∃ c rest, ending = c :: rest ∧ isLineBreak c = true := by
  have isBreak := whole.isBreak
  simp only [List.mem_cons, List.not_mem_nil, or_false] at isBreak
  rcases isBreak with rfl | rfl | rfl <;> exact ⟨_, _, rfl, rfl⟩

theorem opensMatter_iff_opensBlock :
    opensMatter text = true ↔ ∃ inside, OpensBlock text inside := by
  rw [opensMatter_iff]
  constructor
  · rintro ⟨c, rest, rfl, isBreak⟩
    obtain ⟨opening, inside, restEq, whole⟩ := exists_wholeBreak isBreak rest
    exact ⟨inside, opening, by rw [restEq], whole⟩
  · rintro ⟨inside, opening, rfl, whole⟩
    obtain ⟨c, rest, rfl, isBreak⟩ := whole.exists_cons
    exact ⟨c, rest ++ inside, rfl, isBreak⟩

theorem beginsWithDelimiterLine_iff :
    beginsWithDelimiterLine text = true ↔ ∃ ending behind,
      text = delimiter ++ (ending ++ behind) ∧ EndsLine delimiter ending behind := by
  rw [beginsWithDelimiterLine, Bool.and_eq_true, startsWith_iff]
  constructor
  · rintro ⟨⟨rest, rfl⟩, ends⟩
    cases rest with
    | nil => exact ⟨[], [], rfl, .inr ⟨rfl, rfl⟩⟩
    | cons c rest =>
        obtain ⟨ending, behind, restEq, whole⟩ := exists_wholeBreak ends rest
        exact ⟨ending, behind, by rw [restEq], .inl whole⟩
  · rintro ⟨ending, behind, rfl, ends⟩
    refine ⟨⟨_, rfl⟩, ?_⟩
    rcases ends with whole | ⟨rfl, rfl⟩
    · obtain ⟨c, rest, rfl, isBreak⟩ := whole.exists_cons
      exact isBreak
    · rfl

theorem lineLength_delimiter (ends : EndsLine delimiter ending behind) :
    lineLength (delimiter ++ (ending ++ behind)) = (delimiter ++ ending).length := by
  rcases ends with ⟨isBreak, -, whole⟩ | ⟨rfl, rfl⟩
  · simp only [List.mem_cons, List.not_mem_nil, or_false] at isBreak
    rcases isBreak with rfl | rfl | rfl
    · simp [lineLength, delimiter, splitLine, isLineBreak]
    · simp [lineLength, delimiter, splitLine, isLineBreak]
    · cases behind with
      | nil => rfl
      | cons d behind =>
          have alone : d ≠ '\n' := by
            rintro rfl
            exact whole ⟨rfl, rfl⟩
          simp [lineLength, delimiter, splitLine, isLineBreak, alone]
  · rfl

end Lines

section Quotes

/-- The place behind one more character of a block. -/
def MatterPlace.step (place : MatterPlace) (c : Char) : MatterPlace :=
  if isLineBreak c then place.afterLineBreak else place.after c

/-- Only strings have protected characters, and only quotes open strings. -/
structure MatterPlace.Proper (place : MatterPlace) : Prop where
  isQuote : ∀ quote ∈ place.quote, CharClass.isQuote quote = true
  inString : place.escaped = true → place.quote.isSome = true

theorem openQuote_nil (opened previous : Option Char) : openQuote opened previous [] = opened := by
  rw [openQuote]

theorem openQuote_shielded (quote c : Char) (previous : Option Char) (text : List Char) :
    openQuote (some quote) previous ('\\' :: c :: text) =
      openQuote (some quote) (onLine c) text := by
  rw [openQuote]

theorem openQuote_inString (plain : c = '\\' → text = []) (previous : Option Char) :
    openQuote (some quote) previous (c :: text) =
      if c = quote then openQuote none (some c) text
      else openQuote (some quote) (onLine c) text := by
  rw [openQuote]
  rintro d rest isEscape rfl
  exact List.cons_ne_nil _ _ (plain isEscape)

/-- What stands before a string on its line does not matter inside it. -/
theorem openQuote_opened (quote : Char) (previous other : Option Char) (text : List Char) :
    openQuote (some quote) previous text = openQuote (some quote) other text := by
  cases text with
  | nil => rw [openQuote_nil, openQuote_nil]
  | cons c text =>
      by_cases plain : c = '\\' → text = []
      · rw [openQuote_inString plain, openQuote_inString plain]
      · obtain ⟨rfl, more⟩ := Classical.not_imp.1 plain
        obtain ⟨d, rest, rfl⟩ := List.exists_cons_of_ne_nil more
        rw [openQuote_shielded, openQuote_shielded]

theorem onLine_of_break (isBreak : isLineBreak c = true) : onLine c = none :=
  if_pos isBreak

theorem onLine_of_plain (plain : isLineBreak c = false) : onLine c = some c :=
  if_neg (by simp [plain])

theorem isQuote_of_break (isBreak : isLineBreak c = true) : CharClass.isQuote c = false := by
  have eitherBreak : c = '\n' ∨ c = '\r' := by simpa [isLineBreak] using isBreak
  rcases eitherBreak with rfl | rfl <;> rfl

namespace MatterPlace

theorem step_of_break (isBreak : isLineBreak c = true) (place : MatterPlace) :
    place.step c = ⟨place.quote, false, none⟩ :=
  if_pos isBreak

theorem step_of_plain (plain : isLineBreak c = false) (place : MatterPlace) :
    place.step c = place.after c :=
  if_neg (by simp [plain])

theorem proper_start : start.Proper where
  isQuote _ isOpen := nomatch isOpen
  inString isEscaped := nomatch isEscaped

theorem Proper.step {place : MatterPlace} (proper : place.Proper) (c : Char) :
    (place.step c).Proper := by
  cases isBreak : isLineBreak c with
  | true =>
      rw [step_of_break isBreak]
      exact ⟨proper.isQuote, fun isEscaped => nomatch isEscaped⟩
  | false =>
      rw [step_of_plain isBreak, after]
      split
      · next quote isOpen =>
          have isQuote := proper.isQuote quote isOpen
          split
          · exact ⟨by simpa using isQuote, fun _ => rfl⟩
          · split
            · exact ⟨by simpa using isQuote, fun _ => rfl⟩
            · split
              · exact ⟨fun _ isOpen => (nomatch isOpen), fun isEscaped => (nomatch isEscaped)⟩
              · exact ⟨by simpa using isQuote, fun _ => rfl⟩
      · split
        · next opens =>
            have isQuote := (Bool.and_eq_true_iff.1 opens).1
            exact ⟨by simpa using isQuote, fun _ => rfl⟩
        · exact ⟨fun _ isOpen => (nomatch isOpen), fun isEscaped => (nomatch isEscaped)⟩

/-- The string that is open behind a text, told from the place before it. -/
def openBehind (place : MatterPlace) (text : List Char) : Option Char :=
  openQuote place.quote place.previous (if place.escaped then '\\' :: text else text)

theorem openBehind_outside (previous : Option Char) (c : Char) (text : List Char) :
    openBehind ⟨none, false, previous⟩ (c :: text) =
      openBehind (step ⟨none, false, previous⟩ c) text := by
  change openQuote none previous (c :: text) = _
  rw [openQuote]
  cases isBreak : isLineBreak c with
  | true =>
      rw [isQuote_of_break isBreak, onLine_of_break isBreak, step_of_break isBreak]
      rfl
  | false =>
      rw [onLine_of_plain isBreak, step_of_plain isBreak, after]
      dsimp only
      split <;> rfl

theorem openBehind_shielded (quote : Char) (previous : Option Char) (c : Char)
    (text : List Char) :
    openBehind ⟨some quote, true, previous⟩ (c :: text) =
      openBehind (step ⟨some quote, true, previous⟩ c) text := by
  refine (openQuote_shielded quote c previous text).trans ?_
  cases isBreak : isLineBreak c with
  | true =>
      rw [step_of_break isBreak]
      exact openQuote_opened quote _ _ text
  | false =>
      rw [step_of_plain isBreak]
      exact openQuote_opened quote _ _ text

theorem openBehind_inString (isQuote : CharClass.isQuote quote = true) (previous : Option Char)
    (c : Char) (text : List Char) :
    openBehind ⟨some quote, false, previous⟩ (c :: text) =
      openBehind (step ⟨some quote, false, previous⟩ c) text := by
  change openQuote (some quote) previous (c :: text) = _
  cases isBreak : isLineBreak c with
  | true =>
      have notEscape : c = '\\' → text = [] := by
        rintro rfl
        cases isBreak
      have notQuote : c ≠ quote := by
        rintro rfl
        rw [isQuote_of_break isBreak] at isQuote
        cases isQuote
      rw [openQuote_inString notEscape, if_neg notQuote, step_of_break isBreak]
      exact openQuote_opened quote _ _ text
  | false =>
      rw [step_of_plain isBreak, after]
      dsimp only
      rw [if_neg Bool.false_ne_true]
      by_cases isEscape : c = '\\'
      · rw [if_pos isEscape, isEscape]
        exact openQuote_opened quote _ _ _
      rw [if_neg isEscape, openQuote_inString fun same => absurd same isEscape,
        onLine_of_plain isBreak]
      split <;> rfl

/-- One step of the scan does not change which string is open behind the text. -/
theorem Proper.openBehind_step {place : MatterPlace} (proper : place.Proper) (c : Char)
    (text : List Char) : place.openBehind (c :: text) = (place.step c).openBehind text := by
  obtain ⟨opened, escaped, previous⟩ := place
  cases opened with
  | none =>
      obtain rfl : escaped = false := Bool.eq_false_iff.2 fun isEscaped =>
        nomatch proper.inString isEscaped
      exact openBehind_outside previous c text
  | some quote =>
      cases escaped with
      | false => exact openBehind_inString (proper.isQuote quote rfl) previous c text
      | true => exact openBehind_shielded quote previous c text

theorem Proper.openBehind_nil {place : MatterPlace} (proper : place.Proper) :
    place.openBehind [] = place.quote := by
  obtain ⟨opened, escaped, previous⟩ := place
  cases escaped with
  | false => exact openQuote_nil opened previous
  | true =>
      obtain ⟨quote, rfl⟩ := Option.isSome_iff_exists.1 (proper.inString rfl)
      have notQuote : '\\' ≠ quote := by
        rintro rfl
        exact nomatch proper.isQuote _ rfl
      change openQuote (some quote) previous ['\\'] = some quote
      rw [openQuote_inString fun _ => rfl, if_neg notQuote, openQuote_nil]

/-- The scan has a string open just if one is open behind what it has read. -/
theorem Proper.quote_foldl {place : MatterPlace} (proper : place.Proper) (text : List Char) :
    (text.foldl MatterPlace.step place).quote = place.openBehind text := by
  induction text generalizing place with
  | nil => exact proper.openBehind_nil.symm
  | cons c text ih => rw [List.foldl_cons, ih (proper.step c), proper.openBehind_step]

end MatterPlace

end Quotes

section Distances

/-- Whether a line starts behind a part of a text; the flag tells whether one starts at the
text. -/
def startsLineBehind (lineStart : Bool) (block : List Char) : Bool :=
  (block.getLast?.map isLineBreak).getD lineStart

theorem startsLineBehind_cons (lineStart : Bool) (c : Char) (block : List Char) :
    startsLineBehind lineStart (c :: block) = startsLineBehind (isLineBreak c) block := by
  rw [startsLineBehind, startsLineBehind, List.getLast?_cons]
  cases block.getLast? <;> rfl

/-- A place where a scan of a block stops, told by what it has read. -/
structure StopsBehind (lineStart : Bool) (place : MatterPlace) (text block rest : List Char) :
    Prop where
  divides : text = block ++ rest
  atLine : startsLineBehind lineStart block = true
  noString : (block.foldl MatterPlace.step place).quote = none
  begins : beginsWithDelimiterLine rest = true

variable {lineStart : Bool} {place : MatterPlace} {distance : Nat}

theorem StopsBehind.tail (stops : StopsBehind lineStart place (c :: text) (c :: block) rest) :
    StopsBehind (isLineBreak c) (place.step c) text block rest where
  divides := (List.cons.inj stops.divides).2
  atLine := by rw [← startsLineBehind_cons lineStart]; exact stops.atLine
  noString := stops.noString
  begins := stops.begins

theorem StopsBehind.cons (stops : StopsBehind (isLineBreak c) (place.step c) text block rest)
    (lineStart : Bool) : StopsBehind lineStart place (c :: text) (c :: block) rest where
  divides := by rw [stops.divides, List.cons_append]
  atLine := by rw [startsLineBehind_cons]; exact stops.atLine
  noString := stops.noString
  begins := stops.begins

theorem stopsBehind_nil : StopsBehind lineStart place text [] rest ↔
    text = rest ∧ (lineStart && place.quote.isNone && beginsWithDelimiterLine text) = true := by
  simp only [Bool.and_eq_true, Option.isNone_iff_eq_none]
  constructor
  · rintro ⟨rfl, atLine, noString, begins⟩
    exact ⟨rfl, ⟨atLine, noString⟩, begins⟩
  · rintro ⟨rfl, ⟨atLine, noString⟩, begins⟩
    exact ⟨rfl, atLine, noString, begins⟩

theorem closingDistance?_cons
    (goesOn : ¬(lineStart && place.quote.isNone && beginsWithDelimiterLine (c :: text)) = true) :
    closingDistance? lineStart place (c :: text) =
      (closingDistance? (isLineBreak c) (place.step c) text).map (· + 1) := by
  rw [closingDistance?, if_neg goesOn, MatterPlace.step]
  split
  · next isBreak => rw [isBreak]
  · next plain => rw [Bool.eq_false_iff.2 plain]

/-- A scan of a block stops at the first place where it may. -/
theorem stopsBehind_of_some (found : closingDistance? lineStart place text = some distance) :
    StopsBehind lineStart place text (text.take distance) (text.drop distance) ∧
      ∀ block rest, StopsBehind lineStart place text block rest → distance ≤ block.length := by
  induction text generalizing lineStart place distance with
  | nil => contradiction
  | cons c text ih =>
      by_cases stops :
          (lineStart && place.quote.isNone && beginsWithDelimiterLine (c :: text)) = true
      · rw [closingDistance?, if_pos stops] at found
        obtain rfl := Option.some.inj found
        exact ⟨stopsBehind_nil.2 ⟨rfl, stops⟩, fun _ _ _ => Nat.zero_le _⟩
      · rw [closingDistance?_cons stops] at found
        obtain ⟨shorter, foundThen, rfl⟩ := Option.map_eq_some_iff.1 found
        obtain ⟨stopsThen, first⟩ := ih foundThen
        refine ⟨stopsThen.cons lineStart, fun block rest isStop => ?_⟩
        cases block with
        | nil => exact absurd (stopsBehind_nil.1 isStop).2 stops
        | cons d block =>
            obtain rfl : c = d := (List.cons.inj isStop.divides).1
            exact Nat.succ_le_succ (first block rest isStop.tail)

theorem not_stopsBehind_of_none (absent : closingDistance? lineStart place text = none)
    (block rest : List Char) : ¬StopsBehind lineStart place text block rest := by
  induction text generalizing lineStart place block with
  | nil =>
      intro isStop
      obtain ⟨-, rfl⟩ := List.append_eq_nil_iff.1 isStop.divides.symm
      exact nomatch isStop.begins
  | cons c text ih =>
      by_cases stops :
          (lineStart && place.quote.isNone && beginsWithDelimiterLine (c :: text)) = true
      · rw [closingDistance?, if_pos stops] at absent
        contradiction
      · rw [closingDistance?_cons stops] at absent
        intro isStop
        cases block with
        | nil => exact stops (stopsBehind_nil.1 isStop).2
        | cons d block =>
            obtain rfl : c = d := (List.cons.inj isStop.divides).1
            exact ih (Option.map_eq_none_iff.1 absent) block isStop.tail

end Distances

section Blocks

theorem startsLine_concat :
    StartsLine (block ++ [c]) delimiter ↔ isLineBreak c = true := by
  have endsBefore : endsLine c delimiter.head? = isLineBreak c := by
    have notFeed : (delimiter.head? != some '\n') = true := rfl
    rw [endsLine, isLineBreak, notFeed, Bool.and_true]
  constructor
  · rintro (isEmpty | ⟨earlier, d, sameBlock, ends⟩)
    · simp at isEmpty
    · obtain ⟨-, rfl⟩ := List.concat_inj.1 (by simpa using sameBlock)
      rwa [endsBefore] at ends
  · intro isBreak
    exact .inr ⟨block, c, rfl, endsBefore.trans isBreak⟩

theorem startsLineBehind_iff :
    startsLineBehind true block = true ↔ StartsLine block delimiter := by
  cases block using List.reverseRecOn with
  | nil => exact iff_of_true rfl (.inl rfl)
  | append_singleton block c =>
      rw [startsLine_concat, startsLineBehind, List.getLast?_concat]
      rfl

/-- The scan of a block stops before the lines that close it, and nowhere else. -/
theorem stopsBehind_iff : StopsBehind true .start inside block rest ↔
    ∃ ending behind, rest = delimiter ++ (ending ++ behind) ∧
      ClosesBlock inside block ending behind := by
  have quoteEq : (block.foldl MatterPlace.step .start).quote = openQuote none none block :=
    MatterPlace.proper_start.quote_foldl block
  constructor
  · rintro ⟨divides, atLine, noString, begins⟩
    obtain ⟨ending, behind, rfl, ends⟩ := beginsWithDelimiterLine_iff.1 begins
    exact ⟨ending, behind, rfl, divides, startsLineBehind_iff.1 atLine, ends,
      quoteEq.symm.trans noString⟩
  · rintro ⟨ending, behind, rfl, divides, startsLine, ends, noString⟩
    exact ⟨divides, startsLineBehind_iff.2 startsLine, quoteEq.trans noString,
      beginsWithDelimiterLine_iff.2 ⟨ending, behind, rfl, ends⟩⟩

theorem closingDistance?_of_closesFirst (closes : ClosesFirst inside block ending behind) :
    closingDistance? true .start inside = some block.length := by
  have isStop : StopsBehind true .start inside block (delimiter ++ (ending ++ behind)) :=
    stopsBehind_iff.2 ⟨ending, behind, rfl, closes.closes⟩
  cases found : closingDistance? true .start inside with
  | none => exact absurd isStop (not_stopsBehind_of_none found _ _)
  | some distance =>
      obtain ⟨stops, first⟩ := stopsBehind_of_some found
      obtain ⟨otherEnding, otherBehind, -, otherCloses⟩ := stopsBehind_iff.1 stops
      have least := closes.first _ _ _ otherCloses
      rw [List.length_take_of_le (closingDistance?_le found)] at least
      exact congrArg some (Nat.le_antisymm (first _ _ isStop) least)

theorem closingDistance?_of_lacksEnd
    (unclosed : ∀ block ending behind, ¬ClosesBlock inside block ending behind) :
    closingDistance? true .start inside = none := by
  cases found : closingDistance? true .start inside with
  | none => rfl
  | some distance =>
      obtain ⟨ending, behind, -, closes⟩ := stopsBehind_iff.1 (stopsBehind_of_some found).1
      exact absurd closes (unclosed _ _ _)

/-- A block that is closed at all is closed for a first time. -/
theorem exists_closesFirst (closes : ClosesBlock inside block ending behind) :
    ∃ first otherEnding otherBehind, ClosesFirst inside first otherEnding otherBehind := by
  cases found : closingDistance? true .start inside with
  | none =>
      have isStop := stopsBehind_iff.2 ⟨ending, behind, rfl, closes⟩
      exact absurd isStop (not_stopsBehind_of_none found _ _)
  | some distance =>
      obtain ⟨stops, first⟩ := stopsBehind_of_some found
      obtain ⟨otherEnding, otherBehind, -, otherCloses⟩ := stopsBehind_iff.1 stops
      refine ⟨_, otherEnding, otherBehind, otherCloses, fun other _ _ isOther => ?_⟩
      rw [List.length_take_of_le (closingDistance?_le found)]
      exact first other _ (stopsBehind_iff.2 ⟨_, _, rfl, isOther⟩)

theorem withoutFinalBreak_feed (notReturn : content.getLast? ≠ some '\r') :
    withoutFinalBreak (content ++ ['\n']) = content := by
  rw [withoutFinalBreak, List.reverse_concat]
  split
  · next same =>
      refine absurd ?_ notReturn
      rw [← List.head?_reverse, (List.cons.inj same).2]
      rfl
  · next same =>
      obtain ⟨rfl, rfl⟩ := List.cons.inj same
      exact List.reverse_reverse content
  · next same => cases same

theorem withoutFinalBreak_pair (content : List Char) :
    withoutFinalBreak (content ++ ['\r', '\n']) = content := by
  simp [withoutFinalBreak]

theorem withoutFinalBreak_return (content : List Char) :
    withoutFinalBreak (content ++ ['\r']) = content := by
  simp [withoutFinalBreak, isLineBreak]

theorem withoutFinalBreak_of_isContent (isContent : IsContent block content) :
    withoutFinalBreak block = content := by
  obtain ⟨rfl, rfl⟩ | ⟨ending, rfl, isBreak, begins, -⟩ := isContent
  · rfl
  simp only [List.mem_cons, List.not_mem_nil, or_false] at isBreak
  rcases isBreak with rfl | rfl | rfl
  · exact withoutFinalBreak_feed fun last => begins ⟨last, rfl⟩
  · exact withoutFinalBreak_pair content
  · exact withoutFinalBreak_return content

theorem exists_isContent (startsLine : StartsLine block delimiter) :
    ∃ content, IsContent block content := by
  cases block using List.reverseRecOn with
  | nil => exact ⟨[], .inl ⟨rfl, rfl⟩⟩
  | append_singleton block c =>
      have isBreak := startsLine_concat.1 startsLine
      have eitherBreak : c = '\n' ∨ c = '\r' := by simpa [isLineBreak] using isBreak
      rcases eitherBreak with rfl | rfl
      · by_cases isReturn : block.getLast? = some '\r'
        · obtain ⟨content, rfl⟩ := List.getLast?_eq_some_iff.1 isReturn
          exact ⟨content, .inr ⟨['\r', '\n'], by simp, by simp,
            not_splitsPair_of_head? (by decide) _, not_splitsPair_of_getLast? (by decide) _⟩⟩
        · exact ⟨block, .inr ⟨['\n'], rfl, by simp, not_splitsPair_of_getLast? isReturn _,
            not_splitsPair_of_getLast? (by decide) _⟩⟩
      · exact ⟨block, .inr ⟨['\r'], rfl, by simp, not_splitsPair_of_head? (by decide) _,
          not_splitsPair_of_head? (by decide) _⟩⟩

end Blocks

section Scans

theorem drop_opening {opening : List Char} (whole : WholeBreak delimiter opening inside) :
    (delimiter ++ (opening ++ inside)).drop (lineLength (delimiter ++ (opening ++ inside))) =
      inside := by
  rw [lineLength_delimiter (.inl whole), ← List.append_assoc, List.drop_left]

theorem begins_of_opensBlock (opens : OpensBlock text inside) :
    (true && beginsWithDelimiterLine text && decide (3 < text.length)) = true :=
  opensMatter_iff_opensBlock.2 ⟨inside, opens⟩

theorem scanFrontMatter_of_closing {distance : Nat} (opens : OpensBlock text inside)
    (closing : closingDistance? true .start inside = some distance) :
    scanFrontMatter true text =
      .found (.frontMatter (String.ofList (withoutFinalBreak (inside.take distance))))
        (lineLength text + distance + lineLength (inside.drop distance)) := by
  rw [scanFrontMatter, if_pos (begins_of_opensBlock opens)]
  obtain ⟨opening, rfl, whole⟩ := opens
  simp only [drop_opening whole, closing]

theorem scanFrontMatter_of_closesFirst (opens : OpensBlock text inside)
    (closes : ClosesFirst inside block ending behind) (isContent : IsContent block content) :
    ∃ length, scanFrontMatter true text = .found (.frontMatter (String.ofList content)) length ∧
      text.drop length = behind := by
  have scanned := scanFrontMatter_of_closing opens (closingDistance?_of_closesFirst closes)
  obtain ⟨opening, rfl, whole⟩ := opens
  obtain ⟨rfl, -, ends, -⟩ := closes.closes
  simp only [List.take_left, List.drop_left, withoutFinalBreak_of_isContent isContent,
    lineLength_delimiter ends] at scanned
  refine ⟨_, scanned, ?_⟩
  rw [← List.drop_drop, ← List.drop_drop, drop_opening whole, List.drop_left,
    ← List.append_assoc, List.drop_left]

theorem scanFrontMatter_of_lacksEnd (lacksEnd : LacksEnd text) :
    scanFrontMatter true text = .unterminated .unterminatedFrontMatter text := by
  obtain ⟨inside, opens, unclosed⟩ := lacksEnd
  rw [scanFrontMatter, if_pos (begins_of_opensBlock opens)]
  obtain ⟨opening, rfl, whole⟩ := opens
  simp only [drop_opening whole, closingDistance?_of_lacksEnd unclosed]

/-- What stands before the first line that closes the front matter is its content, and the
scan goes on behind that line. -/
theorem HasMatter.scanned (matter : HasMatter text content behind) :
    ∃ length, scanFrontMatter true text = .found (.frontMatter (String.ofList content)) length ∧
      text.drop length = behind := by
  cases matter with
  | block opens closes isContent => exact scanFrontMatter_of_closesFirst opens closes isContent
  | absent plain =>
      have noMatter : opensMatter text = false := Bool.eq_false_iff.2 fun opens => by
        obtain ⟨inside, opened⟩ := opensMatter_iff_opensBlock.1 opens
        exact plain inside opened
      exact ⟨0, scanFrontMatter_none noMatter, rfl⟩

/-- A line between quotes does not close front matter. -/
example : scanFrontMatter true "---\na: '\n---\n'\n---\nb".toList =
    .found (.frontMatter "a: '\n---\n'") 19 := by
  decide +kernel

/-- The front matter of a text is closed, or missing, or lacks its end. -/
theorem hasMatter_or_lacksEnd (text : List Char) :
    (∃ content behind, HasMatter text content behind) ∨ LacksEnd text := by
  by_cases opens : ∃ inside, OpensBlock text inside
  · obtain ⟨inside, opens⟩ := opens
    by_cases closes : ∃ block ending behind, ClosesBlock inside block ending behind
    · obtain ⟨block, ending, behind, closes⟩ := closes
      obtain ⟨first, otherEnding, otherBehind, closesFirst⟩ := exists_closesFirst closes
      obtain ⟨content, isContent⟩ := exists_isContent closesFirst.closes.startsLine
      exact .inl ⟨content, otherBehind, .block opens closesFirst isContent⟩
    · refine .inr ⟨inside, opens, fun block ending behind isClosed => ?_⟩
      exact closes ⟨block, ending, behind, isClosed⟩
  · exact .inl ⟨[], text, .absent fun inside opened => opens ⟨inside, opened⟩⟩

end Scans

section Contents

variable {lineEnd body : List Char}

/-- A line of a text, without its line break. -/
def HasLine (text line : List Char) : Prop :=
  ∃ before after, text = before ++ (line ++ after) ∧ StartsLine before (line ++ after) ∧
    (after = [] ∨ ∃ c ∈ after.head?, isLineBreak c = true)

theorem openQuote_of_plain (plain : ∀ c ∈ text, CharClass.isQuote c = false)
    (previous : Option Char) : openQuote none previous text = none := by
  induction text generalizing previous with
  | nil => exact openQuote_nil none previous
  | cons c text ih =>
      rw [openQuote, plain c List.mem_cons_self, Bool.false_and, if_neg Bool.false_ne_true]
      exact ih (fun d member => plain d (List.mem_cons_of_mem c member)) _

theorem not_mem_delimiter (isBreak : isLineBreak c = true) : c ∉ delimiter := by
  have eitherBreak : c = '\n' ∨ c = '\r' := by simpa [isLineBreak] using isBreak
  rcases eitherBreak with rfl | rfl <;> decide

theorem head?_of_endsLine {after tail : List Char} (ends : EndsLine delimiter ending behind)
    (restEq : ending ++ behind = after ++ tail) :
    after = [] ∨ ∃ c ∈ after.head?, isLineBreak c = true := by
  cases after with
  | nil => exact .inl rfl
  | cons d after =>
      right
      rcases ends with whole | ⟨rfl, rfl⟩
      · obtain ⟨c, rest, rfl, isBreak⟩ := whole.exists_cons
        obtain rfl : c = d := (List.cons.inj restEq).1
        exact ⟨c, rfl, isBreak⟩
      · cases restEq

/-- The delimiter does not begin in a line break. -/
theorem length_le_of_breaks {part tail others : List Char}
    (breaks : ∀ c ∈ lineEnd, isLineBreak c = true)
    (textEq : lineEnd ++ tail = part ++ (delimiter ++ others)) :
    lineEnd.length ≤ part.length := by
  rcases List.append_eq_append_iff.1 textEq with ⟨more, rfl, -⟩ | ⟨more, rfl, dashesEq⟩
  · exact List.length_append ▸ Nat.le_add_right _ _
  · cases more with
    | nil => rw [List.append_nil]
    | cons c more =>
        obtain rfl : '-' = c := (List.cons.inj dashesEq).1
        exact absurd (by decide) (not_mem_delimiter (breaks '-' (by simp)))

theorem hasLine_of_closesBlock {tail part : List Char}
    (breaks : ∀ c ∈ lineEnd, isLineBreak c = true) (nonempty : lineEnd ≠ [])
    (closes : ClosesBlock (block ++ part ++ (lineEnd ++ tail)) block ending behind) :
    HasLine (block ++ part) delimiter := by
  obtain ⟨c, more, rfl⟩ := List.exists_cons_of_ne_nil nonempty
  obtain ⟨divides, startsLine, ends, -⟩ := closes
  rw [List.append_assoc, List.append_cancel_left_eq] at divides
  rcases List.append_eq_append_iff.1 divides with ⟨dashes, dashesEq, restEq⟩ | ⟨after, rfl, restEq⟩
  · cases dashes with
    | nil =>
        rw [List.append_nil] at dashesEq
        exact ⟨block, [], by rw [← dashesEq, List.append_nil], startsLine, .inl rfl⟩
    | cons dash dashes =>
        obtain rfl : c = dash := (List.cons.inj restEq).1
        exact absurd (dashesEq ▸ List.mem_append_right part List.mem_cons_self)
          (not_mem_delimiter (breaks c List.mem_cons_self))
  · exact ⟨block, after, rfl, startsLine, head?_of_endsLine ends restEq⟩

/-- A line that is just the delimiter does not begin in a text that has no such line, nor in
the line break behind it. -/
theorem length_le_of_closesBlock {tail : List Char}
    (breaks : ∀ c ∈ lineEnd, isLineBreak c = true) (nonempty : lineEnd ≠ [])
    (noLine : ¬HasLine content delimiter)
    (closes : ClosesBlock (content ++ (lineEnd ++ tail)) block ending behind) :
    (content ++ lineEnd).length ≤ block.length := by
  rcases List.append_eq_append_iff.1 closes.divides with
    ⟨part, rfl, behindEq⟩ | ⟨part, rfl, -⟩
  · rw [List.length_append, List.length_append]
    exact Nat.add_le_add_left (length_le_of_breaks breaks behindEq) _
  · exact absurd (hasLine_of_closesBlock breaks nonempty closes) noLine

theorem wholeBreak_of_lineEnd {before : List Char}
    (isLineEnd : lineEnd = ['\n'] ∨ lineEnd = ['\r', '\n'])
    (noReturn : before.getLast? ≠ some '\r') (behind : List Char) :
    WholeBreak before lineEnd behind := by
  refine ⟨?_, not_splitsPair_of_getLast? noReturn _, ?_⟩
  · rcases isLineEnd with rfl | rfl <;> simp
  · rcases isLineEnd with rfl | rfl <;> exact not_splitsPair_of_getLast? (by decide) _

theorem startsLine_of_lineEnd (isLineEnd : lineEnd = ['\n'] ∨ lineEnd = ['\r', '\n'])
    (content : List Char) : StartsLine (content ++ lineEnd) delimiter := by
  rcases isLineEnd with rfl | rfl
  · exact startsLine_concat.2 rfl
  · rw [List.append_cons]
    exact startsLine_concat.2 rfl

/-- Front matter that is written between two delimiter lines is read back, and what is
behind it is left. -/
theorem hasMatter_of_content (isLineEnd : lineEnd = ['\n'] ∨ lineEnd = ['\r', '\n'])
    (noQuote : ∀ c ∈ content, CharClass.isQuote c = false) (noReturn : '\r' ∉ content)
    (noLine : ¬HasLine content delimiter) (body : List Char) :
    HasMatter (delimiter ++ (lineEnd ++ (content ++ (lineEnd ++ (delimiter ++ (lineEnd ++ body))))))
      content body := by
  have breaks : ∀ c ∈ lineEnd, isLineBreak c = true := by
    rcases isLineEnd with rfl | rfl <;> simp [isLineBreak]
  have nonempty : lineEnd ≠ [] := by
    rcases isLineEnd with rfl | rfl <;> exact List.cons_ne_nil _ _
  have whole : ∀ text, WholeBreak delimiter lineEnd text :=
    wholeBreak_of_lineEnd isLineEnd (by decide)
  have plain : ∀ c ∈ content ++ lineEnd, CharClass.isQuote c = false := by
    intro c member
    rcases List.mem_append.1 member with inside | isEnd
    · exact noQuote c inside
    · exact isQuote_of_break (breaks c isEnd)
  have closes : ClosesBlock (content ++ (lineEnd ++ (delimiter ++ (lineEnd ++ body))))
      (content ++ lineEnd) lineEnd body :=
    ⟨(List.append_assoc ..).symm, startsLine_of_lineEnd isLineEnd content, .inl (whole body),
      openQuote_of_plain plain none⟩
  have isContent : IsContent (content ++ lineEnd) content :=
    .inr ⟨lineEnd, rfl, wholeBreak_of_lineEnd isLineEnd
      (fun last => noReturn (List.mem_of_getLast? last)) _⟩
  exact .block ⟨lineEnd, rfl, whole _⟩
    ⟨closes, fun _ _ _ => length_le_of_closesBlock breaks nonempty noLine⟩ isContent

end Contents

end Lex

end TemplateCompiler
