import TemplateCompiler.Proofs.Html.Layout
import TemplateCompiler.Proofs.Html.Modes

/-!
# Stripping the white space between tags

Pretty output becomes minified output when the white space at its tags is
stripped: the blank before the slash of a tag without content, and all white
space that follows a tag or the beginning, or that a tag or the end follows.

Between two texts there is no tag, so their line break stays when pretty output
is stripped, while minified they stand side by side.  A tag that ends in a blank
and a slash of its own loses the blank.  Apart from these two cases the outputs
agree.
-/

namespace TemplateCompiler

namespace Text

/-- A text with ` />` replaced by `/>` everywhere. -/
def joinTagEnds : List Char → List Char
  | ' ' :: '/' :: '>' :: text => '/' :: '>' :: joinTagEnds text
  | c :: text => c :: joinTagEnds text
  | [] => []

/-- Whether white space is left out: it stands behind nothing or a closing bracket,
or apart from other white space it stands before nothing or an opening one. -/
def isGap (kept : Option Char) (text : List Char) : Bool :=
  kept.all (· == '>') || (text.dropWhile isWhiteSpace).head?.all (· == '<')

/-- A text without the white space at its brackets; `kept` is the character that
was kept last. -/
def stripGaps (kept : Option Char) : List Char → List Char
  | [] => []
  | c :: text =>
      if isWhiteSpace c && isGap kept text then stripGaps kept text
      else c :: stripGaps (some c) text

/-- A text without the white space at its tags. -/
def stripTags (text : String) : String :=
  String.ofList (stripGaps none (joinTagEnds text.toList))

/-- A text in which no bracket opens or closes. -/
def IsBracketFree (text : List Char) : Prop :=
  '<' ∉ text ∧ '>' ∉ text

/-- A text that ends in a blank and a slash. -/
abbrev EndsInSlash (text : List Char) : Prop :=
  [' ', '/'] <:+ text

variable {text rest snug : List Char} {kept : Option Char}

theorem IsBracketFree.append {other : List Char} (free : IsBracketFree text)
    (freeThen : IsBracketFree other) : IsBracketFree (text ++ other) :=
  ⟨by simp [free.1, freeThen.1], by simp [free.2, freeThen.2]⟩

section TagEnds

theorem joinTagEnds_cons {c : Char} (other : ¬[' ', '/', '>'] <+: c :: text) :
    joinTagEnds (c :: text) = c :: joinTagEnds text := by
  rw [joinTagEnds]
  rintro others rfl rfl
  exact other ⟨others, rfl⟩

/-- Before anything, a text becomes another one when the ends of tags are
joined. -/
def Joins (text snug : List Char) : Prop :=
  ∀ rest, joinTagEnds (text ++ rest) = snug ++ joinTagEnds rest

theorem Joins.nil : Joins [] [] :=
  fun _ => rfl

theorem Joins.append {other otherSnug : List Char} (joins : Joins text snug)
    (joinsThen : Joins other otherSnug) : Joins (text ++ other) (snug ++ otherSnug) := by
  intro rest
  rw [List.append_assoc, joins, joinsThen, List.append_assoc]

theorem Joins.eq (joins : Joins text snug) : joinTagEnds text = snug := by
  have joined := joins []
  rwa [List.append_nil, joinTagEnds, List.append_nil] at joined

/-- Where no tag ends, nothing is joined before a character that does not go on
with the end of a tag. -/
theorem joinTagEnds_append (noEnd : '>' ∉ text)
    (other : ∀ c ∈ rest.head?, c ≠ '/' ∧ c ≠ '>') :
    joinTagEnds (text ++ rest) = text ++ joinTagEnds rest := by
  induction text with
  | nil => rfl
  | cons c text ih =>
      have noEndThen : '>' ∉ text := fun member => noEnd (List.mem_cons_of_mem _ member)
      rw [List.cons_append, joinTagEnds_cons, ih noEndThen, List.cons_append]
      -- The three characters would have to reach into `rest`, which they do not go on with.
      rintro ⟨others, endEq⟩
      match text, rest with
      | [], d :: rest => simp_all [eq_comm]
      | [d], e :: rest => simp_all [eq_comm]
      | d :: e :: text, rest => simp_all
      | [], [] => simp at endEq
      | [d], [] => simp at endEq

theorem joins_line (noEnd : '>' ∉ text) : Joins (text ++ ['\n']) (text ++ ['\n']) := by
  intro rest
  have joined : joinTagEnds ('\n' :: rest) = '\n' :: joinTagEnds rest :=
    joinTagEnds_cons (by simp)
  rw [List.append_assoc, List.singleton_append, joinTagEnds_append noEnd (by simp), joined]
  simp

theorem joins_newline : Joins ['\n'] ['\n'] :=
  fun _ => joinTagEnds_cons (by simp)

theorem Joins.behind {blanks : List Char} (noEnd : '>' ∉ blanks)
    (joins : Joins ('<' :: text) snug) : Joins (blanks ++ '<' :: text) (blanks ++ snug) := by
  intro rest
  rw [List.append_assoc, joinTagEnds_append noEnd (by simp), joins, List.append_assoc]

/-- A tag that does not end in a slash of its own stays as it is. -/
theorem joins_tag (noEnd : '>' ∉ text) (noSlash : ¬EndsInSlash text) :
    Joins (text ++ ['>']) (text ++ ['>']) := by
  intro rest
  induction text with
  | nil => exact joinTagEnds_cons (by simp)
  | cons c text ih =>
      have noEndThen : '>' ∉ text := fun member => noEnd (List.mem_cons_of_mem _ member)
      have noSlashThen : ¬EndsInSlash text := fun ends =>
        noSlash (ends.trans (List.suffix_cons c text))
      rw [List.cons_append, List.cons_append, joinTagEnds_cons, ih noEndThen noSlashThen]
      · simp
      · rintro ⟨others, endEq⟩
        match text with
        | [] => simp at endEq
        | [d] => exact noSlash ⟨[], by simp_all [eq_comm]⟩
        | d :: e :: text => simp_all

/-- The blank before the slash of a tag without content is left out. -/
theorem joins_emptyTag (noEnd : '>' ∉ text) :
    Joins (text ++ [' ', '/', '>']) (text ++ ['/', '>']) := by
  intro rest
  rw [List.append_assoc, joinTagEnds_append noEnd (by simp)]
  simp [joinTagEnds]

end TagEnds

section Gaps

/-- White space behind what was kept is left out. -/
def Opens (kept : Option Char) : Prop :=
  ∀ c ∈ kept, c = '>'

/-- White space before a text is left out. -/
def Closes (text : List Char) : Prop :=
  ∀ c ∈ (text.dropWhile isWhiteSpace).head?, c = '<'

theorem isGap_iff : isGap kept text = true ↔ Opens kept ∨ Closes text := by
  simp [isGap, Opens, Closes, Option.all_eq_true]

theorem opens_none : Opens none :=
  fun _ impossible => by cases impossible

theorem opens_bracket : Opens (some '>') := by
  simp [Opens]

theorem closes_nil : Closes [] := by
  simp [Closes]

theorem Closes.behind {white : List Char} (allWhite : AllWhite white) (closes : Closes rest) :
    Closes (white ++ rest) := by
  rwa [Closes, List.dropWhile_append_of_pos allWhite]

theorem closes_bracket : Closes ('<' :: rest) := by
  have notWhite : isWhiteSpace '<' = false := by decide
  simp [Closes, notWhite]

theorem stripGaps_white {white : List Char} (allWhite : AllWhite white)
    (stripped : Opens kept ∨ Closes rest) :
    stripGaps kept (white ++ rest) = stripGaps kept rest := by
  induction white with
  | nil => rfl
  | cons c white ih =>
      have isWhite := allWhite c List.mem_cons_self
      have allWhiteThen : AllWhite white := fun d member =>
        allWhite d (List.mem_cons_of_mem _ member)
      have gap : isGap kept (white ++ rest) = true :=
        isGap_iff.2 (stripped.imp_right (Closes.behind allWhiteThen))
      rw [List.cons_append, stripGaps, isWhite, gap, Bool.true_and, if_pos rfl, ih allWhiteThen]

/-- A text that begins and ends in characters other than white space, with no
brackets but an opening one at its beginning and a closing one at its end. -/
structure IsSolid (text : List Char) : Prop where
  first : ∀ c ∈ text.head?, isWhiteSpace c = false
  last : ∀ c ∈ text.getLast?, isWhiteSpace c = false
  noOpening : '<' ∉ text.tail
  noClosing : '>' ∉ text.dropLast

/-- If only white space stands before an opening bracket in a text that ends in another
character, then the bracket is one of the text. -/
theorem mem_of_closes {c : Char} (isWhite : isWhiteSpace c = true)
    (last : ∀ d ∈ (c :: text).getLast?, isWhiteSpace d = false) (closes : Closes (text ++ rest)) :
    '<' ∈ text := by
  cases restEq : text.dropWhile isWhiteSpace with
  | nil =>
      have allWhite := List.dropWhile_eq_nil_iff.1 restEq
      cases lastEq : text.getLast? with
      | none => simp [List.getLast?_cons, lastEq, isWhite] at last
      | some d =>
          have notWhite := last d (by simp [List.getLast?_cons, lastEq])
          simp [allWhite d (List.mem_of_getLast? lastEq)] at notWhite
  | cons d others =>
      have opened : d = '<' := closes d (by simp [List.dropWhile_append, restEq])
      exact (List.dropWhile_sublist isWhiteSpace).subset (by simp [restEq, opened])

/-- Inside of a solid text nothing is left out. -/
theorem stripGaps_inside {c : Char} (last : ∀ d ∈ text.getLast?, isWhiteSpace d = false)
    (noOpening : '<' ∉ text) (noClosing : '>' ∉ (c :: text).dropLast) :
    stripGaps (some c) (text ++ rest) = text ++ stripGaps (text.getLast?.or (some c)) rest := by
  induction text generalizing c with
  | nil => rfl
  | cons d text ih =>
      have notClosed : c ≠ '>' := by
        rintro rfl
        simp at noClosing
      have notGap : (isWhiteSpace d && isGap (some c) (text ++ rest)) = false := by
        cases isWhite : isWhiteSpace d with
        | false => rfl
        | true =>
            rw [Bool.true_and, ← Bool.not_eq_true, isGap_iff]
            rintro (opens | closes)
            · exact notClosed (opens c rfl)
            · exact noOpening (List.mem_cons_of_mem _ (mem_of_closes isWhite last closes))
      have lastThen : ∀ e ∈ text.getLast?, isWhiteSpace e = false := by
        intro e member
        exact last e (by simp_all [List.getLast?_cons])
      have noOpeningThen : '<' ∉ text := fun member => noOpening (List.mem_cons_of_mem _ member)
      have noClosingThen : '>' ∉ (d :: text).dropLast := by
        intro member
        exact noClosing (by simp [member])
      rw [List.cons_append, stripGaps, notGap, ih lastThen noOpeningThen noClosingThen]
      cases lastEq : text.getLast? <;> simp [List.getLast?_cons, lastEq]

theorem IsSolid.stripGaps_append (solid : IsSolid text) :
    stripGaps kept (text ++ rest) = text ++ stripGaps (text.getLast?.or kept) rest := by
  cases text with
  | nil => rfl
  | cons c text =>
      have notWhite : isWhiteSpace c = false := solid.first c rfl
      have last : ∀ d ∈ text.getLast?, isWhiteSpace d = false := by
        intro d member
        exact solid.last d (by simp_all [List.getLast?_cons])
      rw [List.cons_append, stripGaps, notWhite, Bool.false_and, if_neg Bool.false_ne_true,
        stripGaps_inside last solid.noOpening solid.noClosing]
      cases lastEq : text.getLast? <;> simp [List.getLast?_cons, lastEq]

/-- A tag, which begins and ends in brackets. -/
def IsTag (text : List Char) : Prop :=
  ∃ body, IsBracketFree body ∧ text = '<' :: (body ++ ['>'])

theorem IsTag.isSolid (isTag : IsTag text) : IsSolid text := by
  obtain ⟨body, free, rfl⟩ := isTag
  have notWhite : isWhiteSpace '<' = false ∧ isWhiteSpace '>' = false := by decide
  refine ⟨by simp [notWhite.1], ?_, ?_, ?_⟩
  · simp [List.getLast?_cons, List.getLast?_append, notWhite.2]
  · simp [free.1]
  · rw [← List.cons_append, List.dropLast_concat]
    simp [free.2]

theorem IsTag.getLast? (isTag : IsTag text) : text.getLast? = some '>' := by
  obtain ⟨body, free, rfl⟩ := isTag
  simp [List.getLast?_cons, List.getLast?_append]

theorem IsTag.closes (isTag : IsTag text) : Closes (text ++ rest) := by
  obtain ⟨body, free, rfl⟩ := isTag
  exact closes_bracket

theorem allWhite_newline : AllWhite ['\n'] := by
  intro c member
  rw [List.mem_singleton.1 member]
  decide

/-- A tag keeps nothing of the line it stands on. -/
theorem IsTag.stripGaps_line {white : List Char} (isTag : IsTag text)
    (allWhite : AllWhite white) :
    stripGaps kept (white ++ (text ++ ('\n' :: rest))) =
      text ++ stripGaps (some '>') rest := by
  rw [stripGaps_white allWhite (.inr isTag.closes), isTag.isSolid.stripGaps_append,
    isTag.getLast?, Option.some_or]
  exact congrArg (text ++ ·) (stripGaps_white allWhite_newline (.inl opens_bracket))

theorem isSolid_trimList (free : IsBracketFree text) : IsSolid (trimList text) := by
  have member : ∀ c ∈ trimList text, c ∈ text := fun c => mem_of_mem_trimList
  refine ⟨?_, ?_, fun inside => free.1 (member _ (List.mem_of_mem_tail inside)),
    fun inside => free.2 (member _ (List.dropLast_subset _ inside))⟩
  · intro c first
    have ahead : trimList text <+: text.dropWhile isWhiteSpace := by
      rw [← List.reverse_suffix, trimList, List.reverse_reverse]
      exact List.dropWhile_suffix _
    have stopped := List.head?_dropWhile_not isWhiteSpace text
    obtain ⟨others, behindEq⟩ := ahead
    rwa [← behindEq, List.head?_append, Option.mem_def.1 first] at stopped
  · intro c last
    rw [trimList, List.getLast?_reverse] at last
    have stopped := List.head?_dropWhile_not isWhiteSpace (text.dropWhile isWhiteSpace).reverse
    rwa [Option.mem_def.1 last] at stopped

end Gaps

end Text

namespace Html

open Text

/-- An attribute that is written without brackets. -/
def isBracketFreeAttribute (item : Attribute) : Prop :=
  IsBracketFree item.name.toList ∧ ∀ value ∈ item.value, IsBracketFree value.toList

namespace Node

mutual

/-- A node without brackets other than those of its tags, and without content that
is left as it is. -/
def IsBracketFree : Node → Prop
  | .text content raw => raw = false ∧ Text.IsBracketFree content.toList
  | .comment content => Text.IsBracketFree content.toList
  | .element name attributes children =>
      isRawTextElement name = false ∧ Text.IsBracketFree name.toList ∧
        (∀ item ∈ attributes, isBracketFreeAttribute item) ∧ AllBracketFree children

def AllBracketFree : List Node → Prop
  | [] => True
  | first :: others => IsBracketFree first ∧ AllBracketFree others

end

/-- Whether a node is a text of which nothing is left when it is trimmed. -/
def isBlankText : Node → Bool
  | .text content _ => (Text.trim content).isEmpty
  | _ => false

/-- Whether a node is a text of which something is left when it is trimmed. -/
def showsText : Node → Bool
  | .text content _ => !(Text.trim content).isEmpty
  | _ => false

mutual

/-- Whether in a node no two texts follow each other that both show something. -/
def IsApart : Node → Prop
  | .element _ _ children => AllApart false children
  | _ => True

/-- The same for nodes that follow each other; `behind` tells whether the last thing
shown before them is a text. -/
def AllApart (behind : Bool) : List Node → Prop
  | [] => True
  | first :: others =>
      (first.showsText = true → behind = false) ∧ IsApart first ∧
        AllApart (if first.isBlankText then behind else first.showsText) others

end

mutual

/-- Whether no tag of an element with content ends in a slash. -/
def HasPlainTags : Node → Prop
  | .element name attributes children =>
      (children ≠ [] → ¬EndsInSlash (characters (tagEmissions name attributes)) ∧
        ¬EndsInSlash name.toList) ∧ AllHavePlainTags children
  | _ => True

def AllHavePlainTags : List Node → Prop
  | [] => True
  | first :: others => HasPlainTags first ∧ AllHavePlainTags others

end

end Node

namespace Part

/-- A part with the end of a tag joined and a text trimmed. -/
def snug : Part → List Char
  | .fixed text => text.toList
  | .plainText text => Text.trimList text.toList
  | .tagEnd => ['/', '>']
  | .newline => ['\n']
  | .indent blanks => List.replicate blanks ' '

def snugAll (parts : List Part) : List Char :=
  parts.flatMap snug

@[simp]
theorem snug_newline : snug .newline = ['\n'] :=
  rfl

@[simp]
theorem snug_indent (blanks : Nat) : snug (.indent blanks) = List.replicate blanks ' ' :=
  rfl

@[simp]
theorem snugAll_nil : snugAll [] = [] :=
  rfl

@[simp]
theorem snugAll_cons (part : Part) (parts : List Part) :
    snugAll (part :: parts) = part.snug ++ snugAll parts :=
  rfl

@[simp]
theorem snugAll_append (first second : List Part) :
    snugAll (first ++ second) = snugAll first ++ snugAll second :=
  List.flatMap_append

@[simp]
theorem snugAll_ofEmissions (emitted : List Emission) :
    snugAll (ofEmissions emitted) = characters emitted := by
  induction emitted with
  | nil => rfl
  | cons emission emitted ih =>
      have snugEq : (ofEmission emission).snug = emission.written.toList := by
        cases emission <;> simp [ofEmission, snug, Emission.written]
      rw [characters_cons, ← ih, ← snugEq]
      rfl

/-- Minified, parts are written as they are here. -/
theorem characters_emissions_minify (parts : List Part) :
    characters (emissions .minify parts) = snugAll parts := by
  induction parts with
  | nil => rfl
  | cons part parts ih =>
      rw [emissions_cons, characters_cons, ih, snugAll_cons]
      congr 1
      cases part <;> simp [emission, snug, shownText, Emission.written, Text.trim]

end Part

section Tags

variable {name : String} {attributes : List Attribute}

theorem isBracketFree_attributeEmissions {item : Attribute} (free : isBracketFreeAttribute item) :
    IsBracketFree (characters (attributeEmissions item)) := by
  obtain ⟨name, value?⟩ := item
  obtain ⟨freeName, freeValue⟩ := free
  have blank : IsBracketFree [' '] := ⟨by simp, by simp⟩
  have equals : IsBracketFree ['=', '"'] := ⟨by simp, by simp⟩
  have quote : IsBracketFree ['"'] := ⟨by simp, by simp⟩
  have named := blank.append freeName
  cases value? with
  | none => simpa [attributeEmissions, Emission.written] using named
  | some value =>
      have valued := named.append (equals.append ((freeValue value rfl).append quote))
      rw [attributeEmissions]
      simp only
      split
      · simpa [Emission.written] using named
      · simpa [Emission.written] using valued

/-- A start tag opens with the only bracket it has before its end. -/
theorem exists_body_of_tagEmissions (freeName : IsBracketFree name.toList)
    (free : ∀ item ∈ attributes, isBracketFreeAttribute item) :
    ∃ body, IsBracketFree body ∧ characters (tagEmissions name attributes) = '<' :: body := by
  have freeItems : IsBracketFree (characters (attributes.flatMap attributeEmissions)) := by
    induction attributes with
    | nil => exact ⟨by simp, by simp⟩
    | cons item attributes ih =>
        rw [List.flatMap_cons, characters_append]
        exact (isBracketFree_attributeEmissions (free item List.mem_cons_self)).append
          (ih fun other member => free other (List.mem_cons_of_mem _ member))
  refine ⟨name.toList ++ characters (attributes.flatMap attributeEmissions),
    freeName.append freeItems, ?_⟩
  simp [tagEmissions, Emission.written]

theorem characters_startTag (name : String) (attributes : List Attribute) :
    characters (tagEmissions name attributes ++ [.text ">"]) =
      characters (tagEmissions name attributes) ++ ['>'] := by
  simp [Emission.written]

theorem characters_endTag (name : String) :
    characters (endTagEmissions name) = '<' :: ('/' :: name.toList ++ ['>']) := by
  simp [endTagEmissions, Emission.written]

theorem characters_comment (content : String) :
    characters (commentEmissions content) =
      '<' :: (['!', '-', '-'] ++ content.toList ++ ['-', '-'] ++ ['>']) := by
  simp [commentEmissions, Emission.written]

theorem isTag_comment {content : String} (free : IsBracketFree content.toList) :
    IsTag (characters (commentEmissions content)) :=
  ⟨_, IsBracketFree.append (IsBracketFree.append ⟨by simp, by simp⟩ free) ⟨by simp, by simp⟩,
    characters_comment content⟩

theorem isTag_endTag (free : IsBracketFree name.toList) :
    IsTag (characters (endTagEmissions name)) := by
  have slash : IsBracketFree ['/'] := ⟨by simp, by simp⟩
  exact ⟨'/' :: name.toList, slash.append free, characters_endTag name⟩

theorem isTag_startTag (freeName : IsBracketFree name.toList)
    (free : ∀ item ∈ attributes, isBracketFreeAttribute item) :
    IsTag (characters (tagEmissions name attributes ++ [.text ">"])) := by
  obtain ⟨body, freeBody, tagEq⟩ := exists_body_of_tagEmissions freeName free
  exact ⟨body, freeBody, by rw [characters_startTag, tagEq, List.cons_append]⟩

theorem isTag_emptyTag (freeName : IsBracketFree name.toList)
    (free : ∀ item ∈ attributes, isBracketFreeAttribute item) :
    IsTag (characters (tagEmissions name attributes) ++ ['/', '>']) := by
  obtain ⟨body, freeBody, tagEq⟩ := exists_body_of_tagEmissions freeName free
  refine ⟨body ++ ['/'], freeBody.append ⟨by simp, by simp⟩, ?_⟩
  simp [tagEq]

/-- An end tag does not end in a slash of its own if the name does not. -/
theorem not_endsInSlash_endTag (noSlash : ¬EndsInSlash name.toList) :
    ¬EndsInSlash ('<' :: '/' :: name.toList) := by
  rw [EndsInSlash, ← List.reverse_prefix] at noSlash ⊢
  simp only [List.reverse_cons, List.reverse_nil, List.nil_append] at noSlash ⊢
  generalize name.toList.reverse = backwards at noSlash ⊢
  match backwards with
  | [] => simp
  | [c] => simp
  | c :: d :: others => simpa using noSlash

end Tags

section Lines

/-! In pretty mode a node stands on lines of its own. -/

variable {settings : Settings} {depth : Nat}

/-- The blanks before a line at a depth. -/
def blanksAt (settings : Settings) (depth : Nat) : List Char :=
  List.replicate (depth * settings.indent) ' '

theorem allWhite_blanksAt : AllWhite (blanksAt settings depth) := by
  intro c member
  rw [List.eq_of_mem_replicate member]
  decide

theorem noEnd_blanksAt : '>' ∉ blanksAt settings depth := by
  intro member
  have same := List.eq_of_mem_replicate member
  contradiction

theorem characters_ownLine (pretty : settings.mode = .pretty) (emitted : List Emission) :
    characters (Node.ownLine settings depth emitted) =
      blanksAt settings depth ++ (characters emitted ++ ['\n']) := by
  simp [Node.ownLine, pretty, Emission.written, blanksAt]

theorem snugAll_ownLineParts (pretty : settings.mode = .pretty) (parts : List Part) :
    Part.snugAll (Node.ownLineParts settings depth parts) =
      blanksAt settings depth ++ (Part.snugAll parts ++ ['\n']) := by
  simp [Node.ownLineParts, pretty, blanksAt]

theorem characters_layOutElement (pretty : settings.mode = .pretty) (name : String)
    (attributes : List Attribute) (content : List Emission) :
    characters (Node.layOutElement settings depth name attributes content) =
      blanksAt settings depth ++
        (characters (tagEmissions name attributes ++ [.text ">"]) ++
          (['\n'] ++ (characters content ++
            (blanksAt settings depth ++ (characters (endTagEmissions name) ++ ['\n']))))) := by
  rw [Node.layOutElement, characters_ownLine pretty]
  simp [pretty, Emission.written, blanksAt]

theorem snugAll_elementParts (pretty : settings.mode = .pretty) (name : String)
    (attributes : List Attribute) (content : List Part) :
    Part.snugAll (Node.elementParts settings depth name attributes content) =
      blanksAt settings depth ++
        (characters (tagEmissions name attributes ++ [.text ">"]) ++
          (['\n'] ++ (Part.snugAll content ++
            (blanksAt settings depth ++ (characters (endTagEmissions name) ++ ['\n']))))) := by
  rw [Node.elementParts, snugAll_ownLineParts pretty]
  simp [pretty, blanksAt]

end Lines

namespace Node

open Html.Part

variable {settings minified : Settings}

section Joining

/-! Joining the ends of tags leaves pretty output with its parts snug. -/

theorem joins_ownLine {emitted : List Emission} {parts : List Part} {text : List Char}
    (pretty : settings.mode = .pretty) (depth : Nat) (opened : characters emitted = '<' :: text)
    (joins : Joins (characters emitted) (snugAll parts)) :
    Joins (characters (ownLine settings depth emitted))
      (snugAll (ownLineParts settings depth parts)) := by
  rw [characters_ownLine pretty, snugAll_ownLineParts pretty, opened, List.cons_append]
  apply Joins.behind noEnd_blanksAt
  rw [← List.cons_append, ← opened]
  exact joins.append joins_newline

theorem joins_text (pretty : settings.mode = .pretty) (depth : Nat) {content : String}
    (free : Text.IsBracketFree content.toList) :
    Joins (characters (layOut settings depth (.text content false)))
      (snugAll (parts settings depth (.text content false))) := by
  have noEnd : '>' ∉ blanksAt settings depth ++ trimList content.toList := by
    simp only [List.mem_append, not_or]
    exact ⟨noEnd_blanksAt, fun member => free.2 (mem_of_mem_trimList member)⟩
  have line := joins_line noEnd
  simp only [layOut, layOutText, parts, textParts, pretty, Bool.false_eq_true, if_false]
  split
  · exact Joins.nil
  · simpa [Emission.written, snug, blanksAt, Text.trim] using line

theorem joins_comment (pretty : settings.mode = .pretty) (depth : Nat) {content : String}
    (free : Text.IsBracketFree content.toList) :
    Joins (characters (layOut settings depth (.comment content)))
      (snugAll (parts settings depth (.comment content))) := by
  rw [layOut, parts]
  apply joins_ownLine pretty depth (characters_comment content)
  have noEnd : '>' ∉ '<' :: (['!', '-', '-'] ++ content.toList ++ ['-', '-']) := by
    simp [free.2]
  have noSlash : ¬EndsInSlash ('<' :: (['!', '-', '-'] ++ content.toList ++ ['-', '-'])) := by
    rw [EndsInSlash, ← List.reverse_prefix]
    simp
  rw [snugAll_ofEmissions, characters_comment]
  exact joins_tag noEnd noSlash

mutual

theorem joins_node (pretty : settings.mode = .pretty) (depth : Nat) :
    (node : Node) → node.IsBracketFree → node.HasPlainTags →
      Joins (characters (layOut settings depth node)) (snugAll (parts settings depth node))
  | .text content raw, free, _ => by
      obtain ⟨rfl, free⟩ := free
      exact joins_text pretty depth free
  | .comment content, free, _ => joins_comment pretty depth free
  | .element name attributes children, free, plainTags => by
      obtain ⟨notRaw, freeName, freeItems, freeChildren⟩ := free
      obtain ⟨body, freeBody, tagEq⟩ := exists_body_of_tagEmissions freeName freeItems
      have noEnd : '>' ∉ '<' :: body := by simp [freeBody.2]
      cases children with
      | nil =>
          have ending : settings.mode ≠ .minify := by simp [pretty]
          simp only [layOut, parts, if_neg ending]
          have opened : characters (tagEmissions name attributes ++ [.text " />"]) =
              '<' :: (body ++ [' ', '/', '>']) := by
            simp [tagEq, Emission.written]
          apply joins_ownLine pretty depth opened
          simpa [tagEq, Emission.written, snug] using joins_emptyTag noEnd
      | cons first others =>
          obtain ⟨noSlash, plainChildren⟩ := plainTags
          obtain ⟨noSlash, noSlashEnd⟩ := noSlash (List.cons_ne_nil _ _)
          have content := joins_nodes pretty (depth + 1) (first :: others) freeChildren
            plainChildren
          have noEndEnd : '>' ∉ '<' :: '/' :: name.toList := by simp [freeName.2]
          have startTag := joins_tag noEnd (tagEq ▸ noSlash)
          have endTag := joins_tag noEndEnd (not_endsInSlash_endTag noSlashEnd)
          simp only [layOut, parts, notRaw, Bool.false_eq_true, if_false]
          rw [characters_layOutElement pretty, snugAll_elementParts pretty, characters_startTag,
            tagEq, characters_endTag]
          refine Joins.behind noEnd_blanksAt ?_
          refine startTag.append (joins_newline.append (content.append ?_))
          exact Joins.behind noEnd_blanksAt (endTag.append joins_newline)

theorem joins_nodes (pretty : settings.mode = .pretty) (depth : Nat) :
    (nodes : List Node) → AllBracketFree nodes → AllHavePlainTags nodes →
      Joins (characters (layOuts settings depth nodes)) (snugAll (partsAll settings depth nodes))
  | [], _, _ => Joins.nil
  | first :: others, free, plainTags => by
      rw [layOuts, partsAll, characters_append, snugAll_append]
      exact (joins_node pretty depth first free.1 plainTags.1).append
        (joins_nodes pretty depth others free.2 plainTags.2)

end

end Joining

section Stripping

/-! Stripping the gaps of what is snug leaves the minified parts. -/

theorem snugAll_ownLineParts_minify (minify : minified.mode = .minify) (depth : Nat)
    (parts : List Part) : snugAll (ownLineParts minified depth parts) = snugAll parts := by
  rw [ownLineParts_minified _ _ minify]

theorem snugAll_elementParts_minify (minify : minified.mode = .minify) (depth : Nat)
    (name : String) (attributes : List Attribute) (content : List Part) :
    snugAll (elementParts minified depth name attributes content) =
      characters (tagEmissions name attributes ++ [.text ">"]) ++
        (snugAll content ++ characters (endTagEmissions name)) := by
  simp [elementParts, ownLineParts, minify]

/-- Behind a node that is no text, a tag was kept last. -/
theorem getLast?_parts (minify : minified.mode = .minify) (depth : Nat) {node : Node}
    (free : node.IsBracketFree) (notBlank : node.isBlankText = false)
    (noText : node.showsText = false) :
    (snugAll (parts minified depth node)).getLast? = some '>' := by
  cases node with
  | text content raw =>
      rw [isBlankText] at notBlank
      simp [showsText, notBlank] at noText
  | comment content =>
      rw [parts, snugAll_ownLineParts_minify minify, snugAll_ofEmissions]
      exact (isTag_comment free).getLast?
  | element name attributes children =>
      obtain ⟨notRaw, freeName, freeItems, freeChildren⟩ := free
      cases children with
      | nil =>
          rw [parts, snugAll_ownLineParts_minify minify, snugAll_append, snugAll_ofEmissions]
          exact (isTag_emptyTag freeName freeItems).getLast?
      | cons first others =>
          simp only [parts, notRaw, Bool.false_eq_true, if_false]
          rw [snugAll_elementParts_minify minify, List.getLast?_append, List.getLast?_append,
            (isTag_endTag freeName).getLast?]
          rfl

/-- Nodes that do not begin with a text begin with a tag. -/
theorem closes_partsAll (pretty : settings.mode = .pretty) (depth : Nat) {rest : List Char}
    {nodes : List Node} (free : AllBracketFree nodes) (apart : AllApart true nodes)
    (closes : Closes rest) :
    Closes (snugAll (partsAll settings depth nodes) ++ rest) := by
  induction nodes with
  | nil => exact closes
  | cons first others ih =>
      obtain ⟨separate, -, apartThen⟩ := apart
      have noText : first.showsText = false := by
        rw [← Bool.not_eq_true]
        exact fun shows => Bool.noConfusion (separate shows)
      rw [partsAll, snugAll_append, List.append_assoc]
      cases first with
      | text content raw =>
          obtain ⟨rfl, -⟩ := free.1
          have blank : (Text.trim content).isEmpty = true := by simpa [showsText] using noText
          rw [isBlankText, blank] at apartThen
          simp only [parts, textParts, pretty, blank, Bool.false_eq_true, if_false, if_true]
          exact ih free.2 apartThen
      | comment content =>
          rw [parts, snugAll_ownLineParts pretty, snugAll_ofEmissions, List.append_assoc,
            List.append_assoc]
          exact (isTag_comment free.1).closes.behind allWhite_blanksAt
      | element name attributes children =>
          obtain ⟨notRaw, freeName, freeItems, -⟩ := free.1
          cases children with
          | nil =>
              rw [parts, snugAll_ownLineParts pretty, snugAll_append, snugAll_ofEmissions,
                List.append_assoc, List.append_assoc]
              exact (isTag_emptyTag freeName freeItems).closes.behind allWhite_blanksAt
          | cons child children =>
              simp only [parts, notRaw, Bool.false_eq_true, if_false]
              rw [snugAll_elementParts pretty, List.append_assoc, List.append_assoc]
              exact (isTag_startTag freeName freeItems).closes.behind allWhite_blanksAt

theorem stripGaps_text (pretty : settings.mode = .pretty) (minify : minified.mode = .minify)
    (depth other : Nat) {kept : Option Char} {rest : List Char} {content : String}
    (free : Text.IsBracketFree content.toList)
    (inside : (node : Node) → node = .text content false → node.showsText = true →
      Opens kept ∧ Closes rest) :
    stripGaps kept (snugAll (parts settings depth (.text content false)) ++ rest) =
      snugAll (parts minified other (.text content false)) ++
        stripGaps ((snugAll (parts minified other (.text content false))).getLast?.or kept)
          rest := by
  have minifiedEq : snugAll (parts minified other (.text content false)) =
      trimList content.toList := by
    simp [parts, textParts, minify, snug]
  rw [minifiedEq]
  simp only [parts, textParts, pretty, Bool.false_eq_true, if_false]
  split
  · next blank =>
      have nothing : trimList content.toList = [] := by
        simpa [Text.trim] using blank
      rw [nothing]
      rfl
  · next shown =>
      obtain ⟨opens, closes⟩ := inside _ rfl (by simpa [showsText] using shown)
      have lineEq : snugAll [.indent (depth * settings.indent), .plainText content, .newline] ++
          rest = blanksAt settings depth ++ (trimList content.toList ++ (['\n'] ++ rest)) := by
        simp [snug, blanksAt]
      rw [lineEq, stripGaps_white allWhite_blanksAt (.inl opens),
        (isSolid_trimList free).stripGaps_append,
        stripGaps_white allWhite_newline (.inr closes)]

mutual

theorem stripGaps_node (pretty : settings.mode = .pretty) (minify : minified.mode = .minify)
    (depth other : Nat) (rest : List Char) {kept : Option Char} :
    (node : Node) → node.IsBracketFree → node.IsApart →
      (node.showsText = true → Opens kept ∧ Closes rest) →
      stripGaps kept (snugAll (parts settings depth node) ++ rest) =
        snugAll (parts minified other node) ++
          stripGaps ((snugAll (parts minified other node)).getLast?.or kept) rest
  | .text content raw, free, _, inside => by
      obtain ⟨rfl, free⟩ := free
      exact stripGaps_text pretty minify depth other free fun _ same => same ▸ inside
  | .comment content, free, _, _ => by
      have isTag := isTag_comment free
      rw [parts, parts, snugAll_ownLineParts pretty, snugAll_ownLineParts_minify minify,
        snugAll_ofEmissions, List.append_assoc, List.append_assoc, isTag.getLast?]
      exact isTag.stripGaps_line allWhite_blanksAt
  | .element name attributes children, free, apart, _ => by
      obtain ⟨notRaw, freeName, freeItems, freeChildren⟩ := free
      cases children with
      | nil =>
          have isTag := isTag_emptyTag freeName freeItems
          rw [parts, parts, snugAll_ownLineParts pretty, snugAll_ownLineParts_minify minify,
            snugAll_append, snugAll_ofEmissions, List.append_assoc, List.append_assoc]
          rw [show snugAll [.tagEnd] = ['/', '>'] from rfl, isTag.getLast?]
          exact isTag.stripGaps_line allWhite_blanksAt
      | cons first others =>
          have startTag := isTag_startTag freeName freeItems
          have endTag := isTag_endTag freeName
          have content := stripGaps_nodes pretty minify (depth + 1) (other + 1)
            (blanksAt settings depth ++ (characters (endTagEmissions name) ++ '\n' :: rest))
            (first :: others) freeChildren apart (fun _ => opens_bracket)
            (endTag.closes.behind allWhite_blanksAt)
          have wholeEq : snugAll (parts minified other
              (.element name attributes (first :: others))) =
                characters (tagEmissions name attributes ++ [.text ">"]) ++
                  (snugAll (partsAll minified (other + 1) (first :: others)) ++
                    characters (endTagEmissions name)) := by
            simp only [parts, notRaw, Bool.false_eq_true, if_false]
            exact snugAll_elementParts_minify minify _ _ _ _
          have lastEq : (snugAll (parts minified other
              (.element name attributes (first :: others)))).getLast? = some '>' := by
            rw [wholeEq, List.getLast?_append, List.getLast?_append, endTag.getLast?]
            rfl
          rw [lastEq, wholeEq]
          simp only [parts, notRaw, Bool.false_eq_true, if_false]
          rw [snugAll_elementParts pretty]
          simp only [List.append_assoc, List.cons_append, List.nil_append]
          rw [startTag.stripGaps_line allWhite_blanksAt]
          change _ ++ stripGaps (some '>')
            (snugAll (partsAll settings (depth + 1) (first :: others)) ++ _) = _
          rw [content, endTag.stripGaps_line allWhite_blanksAt]
          rfl

theorem stripGaps_nodes (pretty : settings.mode = .pretty) (minify : minified.mode = .minify)
    (depth other : Nat) (rest : List Char) {behind : Bool} {kept : Option Char} :
    (nodes : List Node) → AllBracketFree nodes → AllApart behind nodes →
      (behind = false → Opens kept) → Closes rest →
      stripGaps kept (snugAll (partsAll settings depth nodes) ++ rest) =
        snugAll (partsAll minified other nodes) ++
          stripGaps ((snugAll (partsAll minified other nodes)).getLast?.or kept) rest
  | [], _, _, _, _ => rfl
  | first :: others, free, apart, opens, closes => by
      obtain ⟨separate, apartFirst, apartThen⟩ := apart
      have inside : first.showsText = true →
          Opens kept ∧ Closes (snugAll (partsAll settings depth others) ++ rest) := by
        intro shows
        have notBlank : first.isBlankText = false := by
          cases first with
          | text content raw => simpa [showsText, isBlankText] using shows
          | _ => rfl
        rw [notBlank, shows] at apartThen
        exact ⟨opens (separate shows), closes_partsAll pretty depth free.2 apartThen closes⟩
      have opensThen : (if first.isBlankText then behind else first.showsText) = false →
          Opens ((snugAll (parts minified other first)).getLast?.or kept) := by
        intro noText
        cases notBlank : first.isBlankText with
        | false =>
            rw [notBlank] at noText
            rw [getLast?_parts minify other free.1 notBlank noText]
            exact opens_bracket
        | true =>
            rw [notBlank] at noText
            cases first with
            | text content raw =>
                obtain ⟨rfl, -⟩ := free.1
                have nothing : snugAll (parts minified other (.text content false)) = [] := by
                  simpa [parts, textParts, minify, snug, isBlankText, Text.trim] using notBlank
                rw [nothing]
                exact opens noText
            | _ => contradiction
      rw [partsAll, partsAll, snugAll_append, snugAll_append, List.append_assoc,
        stripGaps_node pretty minify depth other _ first free.1 apartFirst inside,
        stripGaps_nodes pretty minify depth other _ others free.2 apartThen opensThen closes,
        List.append_assoc, List.getLast?_append, Option.or_assoc]

end

end Stripping

end Node

namespace Document

open Html.Part

/-- A document without brackets other than those of its tags, and without content that
is left as it is. -/
structure IsBracketFree (document : Document) : Prop where
  doctype : ∀ doctype ∈ document.doctype, Text.IsBracketFree doctype.toList
  children : Node.AllBracketFree document.children

/-- Whether neither the document type nor a tag of an element with content ends in a
slash. -/
structure HasPlainTags (document : Document) : Prop where
  doctype : ∀ doctype ∈ document.doctype, ¬EndsInSlash (' ' :: doctype.toList)
  children : Node.AllHavePlainTags document.children

section Doctype

/-- The declaration of a document type up to its closing bracket. -/
def openDoctype (doctype : String) : List Char :=
  '<' :: ("!DOCTYPE".toList ++ ' ' :: doctype.toList)

variable {doctype : String}

theorem characters_doctype (doctype : String) (line : List Emission) :
    characters ([.text "<!DOCTYPE ", .text doctype, .text ">"] ++ line) =
      (openDoctype doctype ++ ['>']) ++ characters line := by
  simp [openDoctype, Emission.written]

theorem joins_doctype (free : Text.IsBracketFree doctype.toList)
    (noSlash : ¬EndsInSlash (' ' :: doctype.toList)) :
    Joins (openDoctype doctype ++ ['>']) (openDoctype doctype ++ ['>']) := by
  refine joins_tag (by simp [openDoctype, free.2]) fun ends => noSlash ?_
  rw [openDoctype, ← List.cons_append] at ends
  cases doctypeEq : doctype.toList with
  | nil =>
      rw [doctypeEq, EndsInSlash, ← List.reverse_prefix] at ends
      simp at ends
  | cons c others =>
      rw [doctypeEq] at ends
      exact List.suffix_of_suffix_length_le ends (List.suffix_append _ _) (by simp)

theorem isTag_doctype (free : Text.IsBracketFree doctype.toList) :
    IsTag (openDoctype doctype ++ ['>']) := by
  have keyword : Text.IsBracketFree "!DOCTYPE ".toList := ⟨by decide, by decide⟩
  exact ⟨_, keyword.append free, by simp [openDoctype]⟩

/-- The type that is written for a document has what the document's own type is
required to have. -/
theorem of_writtenDoctype? {document : Document} {settings : Settings}
    (written : document.writtenDoctype? settings = some doctype)
    (free : document.IsBracketFree) (plainTags : document.HasPlainTags) :
    Text.IsBracketFree doctype.toList ∧ ¬EndsInSlash (' ' :: doctype.toList) := by
  rw [writtenDoctype?] at written
  cases declared : document.doctype with
  | some own =>
      rw [declared, Option.some_or, Option.some.injEq] at written
      exact written ▸ ⟨free.doctype own declared, plainTags.doctype own declared⟩
  | none =>
      rw [declared, Option.none_or] at written
      split at written
      · rw [← Option.some.inj written]
        exact ⟨⟨by decide, by decide⟩, by decide⟩
      · contradiction

end Doctype

/-- Joining the ends of tags leaves the pretty output of a document with its parts
snug. -/
theorem joins_layOut {document : Document} {settings : Settings}
    (pretty : settings.mode = .pretty) (free : document.IsBracketFree)
    (plainTags : document.HasPlainTags) :
    Joins (characters (document.layOut settings)) (snugAll (document.parts settings)) := by
  have nodes := Node.joins_nodes pretty 0 document.children free.children plainTags.children
  rw [layOut, parts]
  cases written : document.writtenDoctype? settings with
  | none => exact nodes
  | some doctype =>
      obtain ⟨freeDoctype, noSlash⟩ := of_writtenDoctype? written free plainTags
      simp only [pretty, reduceCtorEq, if_false, characters_append, snugAll_append,
        snugAll_ofEmissions]
      have doctypeEq := characters_doctype doctype []
      simp only [List.append_nil, characters_nil] at doctypeEq
      rw [doctypeEq]
      exact ((joins_doctype freeDoctype noSlash).append joins_newline).append nodes

/-- Stripping the gaps of the pretty output with its parts snug leaves the minified
parts. -/
theorem stripGaps_parts {document : Document} {settings minified : Settings}
    (pretty : settings.mode = .pretty) (minify : minified.mode = .minify)
    (sameDoctype : minified.implicitDoctype = settings.implicitDoctype)
    (free : document.IsBracketFree) (apart : Node.AllApart false document.children)
    (plainTags : document.HasPlainTags) :
    stripGaps none (snugAll (document.parts settings)) = snugAll (document.parts minified) := by
  have nodes {kept : Option Char} (opens : Opens kept) := Node.stripGaps_nodes pretty minify 0 0
    [] document.children free.children apart (fun _ => opens) closes_nil
  simp only [List.append_nil, stripGaps] at nodes
  have doctypeEq : document.writtenDoctype? minified = document.writtenDoctype? settings := by
    rw [writtenDoctype?, writtenDoctype?, sameDoctype]
  rw [parts, parts, doctypeEq]
  cases written : document.writtenDoctype? settings with
  | none => exact nodes opens_none
  | some doctype =>
      have isTag := isTag_doctype (of_writtenDoctype? written free plainTags).1
      have doctypeEq := characters_doctype doctype []
      simp only [List.append_nil, characters_nil] at doctypeEq
      simp only [pretty, minify, reduceCtorEq, if_false, if_true, snugAll_append,
        snugAll_ofEmissions, doctypeEq, List.append_nil, List.append_assoc]
      have line : stripGaps none ([] ++ ((openDoctype doctype ++ ['>']) ++
          ('\n' :: snugAll (Node.partsAll settings 0 document.children)))) = _ :=
        isTag.stripGaps_line (List.forall_mem_nil _)
      simp only [List.nil_append, List.append_assoc] at line
      exact line.trans (by rw [nodes opens_bracket])

/-- Minified output is pretty output without the white space at its tags, if no text
follows another without anything between them, and no tag ends in a slash of its
own. -/
theorem stripTags_render {document : Document} (settings : Settings)
    (free : document.IsBracketFree) (apart : Node.AllApart false document.children)
    (plainTags : document.HasPlainTags) :
    stripTags (document.render { settings with mode := .pretty }) =
      document.render { settings with mode := .minify } := by
  let minified : Settings := { settings with mode := .minify }
  apply String.toList_inj.1
  calc (stripTags (document.render { settings with mode := .pretty })).toList
      = stripGaps none (joinTagEnds (characters (document.layOut
          { settings with mode := .pretty }))) := by
        rw [stripTags, String.toList_ofList, render, toList_write]
    _ = stripGaps none (snugAll (document.parts { settings with mode := .pretty })) := by
        rw [(joins_layOut rfl free plainTags).eq]
    _ = snugAll (document.parts minified) := stripGaps_parts rfl rfl rfl free apart plainTags
    _ = characters (document.layOut minified) := by
        rw [← emissions_parts minified, ← characters_emissions_minify]
    _ = (document.render minified).toList := by rw [render, toList_write]

end Document

section Cases

/-- A page with a heading, a text that shows nothing, and a break. -/
def shortPage : Document :=
  ⟨some "html",
    [.comment " a / b ",
      .element "p" [⟨"class", some "x /"⟩, ⟨"id", some ""⟩]
        [.element "b" [] [.text " one  two " false], .text "\n" false, .text "three" false,
          .element "br" [] []]]⟩

theorem isBracketFree_shortPage : shortPage.IsBracketFree := by
  have markup : isRawTextElement "p" = false ∧ isRawTextElement "b" = false ∧
      isRawTextElement "br" = false := by decide
  refine ⟨by simp [shortPage, Text.IsBracketFree], ?_⟩
  simp [shortPage, Node.AllBracketFree, Node.IsBracketFree, isBracketFreeAttribute,
    Text.IsBracketFree, markup]

theorem allApart_shortPage : Node.AllApart false shortPage.children := by
  have blank : (Text.trim "\n").isEmpty = true := by decide +kernel
  have shown : (Text.trim " one  two ").isEmpty = false ∧ (Text.trim "three").isEmpty = false := by
    decide +kernel
  simp [shortPage, Node.AllApart, Node.IsApart, Node.isBlankText, Node.showsText, blank, shown]

theorem hasPlainTags_shortPage : shortPage.HasPlainTags := by
  refine ⟨by simp [shortPage]; decide, ?_⟩
  simp only [shortPage, Node.AllHavePlainTags, Node.HasPlainTags]
  decide +kernel

theorem stripTags_render_shortPage :
    shortPage.IsBracketFree ∧ Node.AllApart false shortPage.children ∧ shortPage.HasPlainTags ∧
      stripTags (shortPage.render ⟨.pretty, 2, true⟩) = shortPage.render ⟨.minify, 2, true⟩ :=
  ⟨isBracketFree_shortPage, allApart_shortPage, hasPlainTags_shortPage,
    Document.stripTags_render ⟨.pretty, 2, true⟩ isBracketFree_shortPage allApart_shortPage
      hasPlainTags_shortPage⟩

/-- Both conditions are needed: two neighbouring texts stay apart, and a tag that ends in
a slash of its own loses the blank before it. -/
theorem not_stripTags_render :
    (¬∀ (document : Document) (settings : Settings), document.IsBracketFree →
        document.HasPlainTags →
        stripTags (document.render { settings with mode := .pretty }) =
          document.render { settings with mode := .minify }) ∧
      ¬∀ (document : Document) (settings : Settings), document.IsBracketFree →
        Node.AllApart false document.children →
        stripTags (document.render { settings with mode := .pretty }) =
          document.render { settings with mode := .minify } := by
  constructor
  · intro strips
    let texts : Document := ⟨none, [.text "a" false, .text "b" false]⟩
    have free : texts.IsBracketFree := by
      refine ⟨by simp [texts], ?_⟩
      simp [texts, Node.AllBracketFree, Node.IsBracketFree, Text.IsBracketFree]
    have plainTags : texts.HasPlainTags := ⟨by simp [texts], trivial, trivial, trivial⟩
    exact absurd (strips texts ⟨.pretty, 2, false⟩ free plainTags) (by decide +kernel)
  · intro strips
    let slashed : Document := ⟨none, [.element "a" [⟨"/", none⟩] [.text "x" false]]⟩
    have markup : isRawTextElement "a" = false := by decide
    have free : slashed.IsBracketFree := by
      refine ⟨by simp [slashed], ?_⟩
      simp [slashed, Node.AllBracketFree, Node.IsBracketFree, isBracketFreeAttribute,
        Text.IsBracketFree, markup]
    have apart : Node.AllApart false slashed.children := by
      simp [slashed, Node.AllApart, Node.IsApart]
    exact absurd (strips slashed ⟨.pretty, 2, false⟩ free apart) (by decide +kernel)

end Cases

end Html

end TemplateCompiler
