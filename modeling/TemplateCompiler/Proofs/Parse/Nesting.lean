import TemplateCompiler.Proofs.Parse.RoundTrip
import TemplateCompiler.Proofs.Template.Brackets

/-!
# The parser nests as brackets do

The parser keeps no stack of brackets.  It keeps the constructs that are open,
and a loop is two of them that one brace closes.  Here the two are related:
brackets that fit each other are constructs that were written, and so are read
as more nodes at the place where they stand, and brackets that are left open are
the constructs that are open then.  So a template is parsed if its brackets are
balanced, and is refused at the first bracket that does not fit.
-/

namespace TemplateCompiler

open Parse Written

namespace Written

namespace Bracket

theorem plain_blank : ∀ c ∈ " ".toList, c ∉ ['<', '{', '}', '@', '&'] := by
  simp

def blank : PlainText :=
  ⟨" ", List.cons_ne_nil _ _, plain_blank⟩

def noItems : Items :=
  ⟨[], [], Text.isSpaces_nil⟩

theorem startTagSource_noItems (name : TagName) :
    startTagSource name noItems false = ['<'] ++ (name.text.toList ++ ['>']) := by
  simp [startTagSource, noItems, Items.source, entriesSource, closing]

variable {word : List Bracket}

theorem behind_blank {content : List Construct} (wellFormed : Construct.AllWellFormed content)
    (noText : ∀ first ∈ content.head?, ¬first.IsText) :
    Construct.AllWellFormed (.text blank :: content) :=
  ⟨trivial, fun _ => noText, wellFormed⟩

/-- Brackets that fit each other are constructs, which do not begin with a
text. -/
theorem Balanced.exists_constructs (balanced : Balanced word) :
    ∃ constructs, Construct.AllWellFormed constructs ∧
      Construct.sources constructs = sources word ∧
      ∀ first ∈ constructs.head?, ¬first.IsText := by
  induction balanced with
  | nil => exact ⟨[], trivial, rfl, by simp⟩
  | element name balanced later ih laterIh =>
      obtain ⟨content, wellFormed, sourceEq, -⟩ := ih
      obtain ⟨others, othersWellFormed, othersEq, -⟩ := laterIh
      refine ⟨.element name noItems content :: others,
        ⟨wellFormed, False.elim, othersWellFormed⟩, ?_,
        by simp [Construct.IsText]⟩
      simp [Construct.sources, Construct.source, sourceEq, othersEq, startTagSource_noItems,
        endTagSource, sources, source, own, trailing]
  | block balanced later ih laterIh =>
      obtain ⟨content, wellFormed, sourceEq, noText⟩ := ih
      obtain ⟨others, othersWellFormed, othersEq, noTextThen⟩ := laterIh
      refine ⟨.block (.text blank :: content) :: .text blank :: others, ?_, ?_,
        by simp [Construct.IsText]⟩
      · exact ⟨⟨by simp [Construct.IsBraced], behind_blank wellFormed noText⟩, False.elim,
          behind_blank othersWellFormed noTextThen⟩
      · simp [Construct.sources, Construct.source, sourceEq, othersEq, sources, source, own,
          trailing, blank]
  | loop head balanced later ih laterIh =>
      obtain ⟨content, wellFormed, sourceEq, noText⟩ := ih
      obtain ⟨others, othersWellFormed, othersEq, noTextThen⟩ := laterIh
      refine ⟨.loop head (.text blank :: content) :: .text blank :: others, ?_, ?_,
        by simp [Construct.IsText]⟩
      · exact ⟨behind_blank wellFormed noText, False.elim,
          behind_blank othersWellFormed noTextThen⟩
      · simp [Construct.sources, Construct.source, sourceEq, othersEq, sources, source, own,
          trailing, blank]

theorem exists_constructs_behind (bracket : Bracket) (balanced : Balanced word) :
    ∃ constructs, Construct.AllWellFormed constructs ∧
      Construct.sources constructs = bracket.trailing ++ sources word := by
  obtain ⟨constructs, wellFormed, sourceEq, noText⟩ := balanced.exists_constructs
  have spaced : Construct.sources (.text blank :: constructs) = [' '] ++ sources word := by
    rw [Construct.sources, sourceEq]
    rfl
  cases bracket with
  | startTag name | endTag name => exact ⟨constructs, wellFormed, sourceEq⟩
  | blockStart | loopStart head | blockEnd =>
      exact ⟨_, behind_blank wellFormed noText, spaced⟩

end Bracket

end Written

namespace Parser

open Bracket

variable {before : State} {piece tail : List Char} {word stack : List Bracket}

section Openers

/-- The constructs that are open when a bracket has opened one, and the place of
that bracket. -/
def Opened (opener : Bracket) (position : Position) (frames outer : List (NodeKind × Position)) :
    Prop :=
  match opener with
  | .startTag name => frames = (.element (.named name.text), position) :: outer
  | .blockStart => frames = (.block, position) :: outer
  | .loopStart head => ∃ place, frames = (.block, place) :: (.loop head.loop, position) :: outer
  | .endTag _ | .blockEnd => False

/-- The constructs that are open when some brackets are, the innermost first. -/
inductive Stacked : List Bracket → List (NodeKind × Position) → Prop
  | nil : Stacked [] []
  | cons {opener : Bracket} {stack : List Bracket} {position : Position}
      {frames outer : List (NodeKind × Position)} (opened : Opened opener position frames outer)
      (stacked : Stacked stack outer) : Stacked (opener :: stack) frames

/-- What the innermost open construct is when a bracket is the innermost one. -/
def innermostKind? : Bracket → Option NodeKind
  | .startTag name => some (.element (.named name.text))
  | .blockStart | .loopStart _ => some .block
  | .endTag _ | .blockEnd => none

theorem innermostKind?_ne_element {top : Option Bracket}
    (noElement : ∀ opened, top ≠ some (.startTag opened)) (tag : Element) :
    top.bind innermostKind? ≠ some (.element tag) := by
  cases top with
  | none => simp
  | some opener => cases opener <;> simp_all [innermostKind?]

theorem innermostKind?_ne_block {top : Option Bracket} (noBlock : top ≠ some .blockStart)
    (noLoop : ∀ head, top ≠ some (.loopStart head)) :
    top.bind innermostKind? ≠ some .block := by
  cases top with
  | none => simp
  | some opener => cases opener <;> simp_all [innermostKind?]

theorem Stacked.innermost? (stacked : Stacked stack before.frames) :
    before.innermost? = stack.head?.bind innermostKind? := by
  rw [State.innermost?_eq_frames]
  generalize before.frames = frames at stacked
  cases stacked with
  | nil => rfl
  | @cons opener stack position frames outer opened stacked =>
      cases opener with
      | startTag name | blockStart =>
          obtain rfl : frames = _ := opened
          rfl
      | loopStart head =>
          obtain ⟨place, rfl⟩ : ∃ place, frames = _ := opened
          rfl
      | endTag name | blockEnd => exact opened.elim

theorem Stacked.inContent (stacked : Stacked stack before.frames) : InContent before := by
  intro header
  rw [stacked.innermost?]
  cases stack with
  | nil => simp
  | cons opener stack => cases opener <;> simp [innermostKind?]

theorem Opened.inContent {opener : Bracket} {position : Position}
    {outer : List (NodeKind × Position)} (opened : Opened opener position before.frames outer) :
    InContent before := by
  cases opener with
  | startTag name | blockStart => exact .of_frames opened (by simp)
  | loopStart head => exact .of_frames opened.choose_spec (by simp)
  | endTag name | blockEnd => exact opened.elim

theorem leads_opener {opener : Bracket} {opening : String}
    (opens : opener.opening? = some opening)
    (facing : Facing before (opener.own ++ (opener.trailing ++ piece)) tail) :
    ∃ opening : State → State, State.LexerFree opening ∧
      Leads before (opening (before.after opener.own)) ∧
      Opened opener (before.spanOf opener.own) (opening (before.after opener.own)).frames
        before.frames := by
  have facingOwn := facing.regroup (List.append_assoc _ _ _)
  cases opener with
  | startTag name =>
      rw [own, ← startTagSource_noItems] at facingOwn ⊢
      exact ⟨_, State.openNode_lexerFree _ _, leads_startTag name facingOwn, rfl⟩
  | blockStart =>
      exact ⟨_, State.openNode_lexerFree _ _, leads_blockStart facingOwn (by rintro ⟨⟩), rfl⟩
  | loopStart head =>
      exact ⟨_, State.openLoop_lexerFree _ _ _, leads_loopStart head facingOwn, _, rfl⟩
  | endTag name | blockEnd => contradiction

end Openers

section Runs

/-- The parser reads a piece of text and comes to a state behind it. -/
structure Reaches (before : State) (piece : List Char) (after : State) : Prop where
  leads : Leads before after
  cursor : after.cursor = (before.after piece).cursor
  modes : after.modes = before.modes

variable {after : State}

theorem Reaches.facing {others : List Char} (reaches : Reaches before piece after)
    (facing : Facing before (piece ++ others) tail) : Facing after others tail where
  modes := reaches.modes.trans facing.modes
  rest := (congrArg Cursor.rest reaches.cursor).trans facing.after.rest

theorem Reaches.spanOf_eq (reaches : Reaches before piece after) (own : List Char) :
    after.spanOf own = (before.after piece).spanOf own := by
  rw [State.spanOf, reaches.cursor]
  rfl

theorem Reaches.trans {final : State} {others : List Char} (first : Reaches before piece after)
    (second : Reaches after others final) : Reaches before (piece ++ others) final where
  leads := first.leads.trans second.leads
  cursor := by
    rw [second.cursor, State.cursor_after, first.cursor, ← State.cursor_after,
      State.after_after]
  modes := second.modes.trans first.modes

/-- Constructs are read, and what is open is the same as before. -/
theorem reaches_constructs {constructs : List Construct}
    (wellFormed : Construct.AllWellFormed constructs)
    (facing : Facing before (Construct.sources constructs) tail) (inContent : InContent before)
    (ends : EndsText tail) :
    ∃ after, Reaches before (Construct.sources constructs) after ∧
      after.frames = before.frames := by
  obtain ⟨nodes, size, leads, -⟩ := readable_sources constructs wellFormed facing inContent ends
  have free := State.grown_lexerFree nodes size
  exact ⟨_, ⟨leads, free.cursor_eq _, free.modes_eq _⟩, State.frames_grown _ _ _⟩

theorem reaches_balanced (balanced : Balanced word) (facing : Facing before (sources word) tail)
    (inContent : InContent before) (ends : EndsText tail) :
    ∃ after, Reaches before (sources word) after ∧ after.frames = before.frames := by
  obtain ⟨constructs, wellFormed, sourceEq, -⟩ := balanced.exists_constructs
  rw [← sourceEq] at facing ⊢
  exact reaches_constructs wellFormed facing inContent ends

theorem reaches_opened {opener : Bracket} {opening : String}
    (opens : opener.opening? = some opening) (balanced : Balanced word)
    (facing : Facing before (sources (opener :: word)) tail) (ends : EndsText tail) :
    ∃ after, Reaches before (sources (opener :: word)) after ∧
      Opened opener (before.spanOf opener.own) after.frames before.frames := by
  have sourceEq : sources (opener :: word) =
      opener.own ++ (opener.trailing ++ sources word) := by
    simp [sources, source]
  rw [sourceEq] at facing ⊢
  obtain ⟨opening, free, leads, opened⟩ := leads_opener opens facing
  have reachesOpening : Reaches before opener.own (opening (before.after opener.own)) :=
    ⟨leads, free.cursor_eq _, free.modes_eq _⟩
  obtain ⟨constructs, wellFormed, constructsEq⟩ := exists_constructs_behind opener balanced
  have facingInside := reachesOpening.facing facing
  rw [← constructsEq] at facingInside ⊢
  obtain ⟨after, reaches, framesEq⟩ :=
    reaches_constructs wellFormed facingInside opened.inContent ends
  exact ⟨after, reachesOpening.trans reaches, framesEq ▸ opened⟩

theorem endsText_bracket (bracket : Bracket) (tail : List Char) :
    EndsText (bracket.source ++ tail) := by
  cases bracket with
  | startTag name =>
      rw [source, trailing, List.append_nil, own, ← startTagSource_noItems]
      exact endsText_startTag _ _ _
  | endTag name => exact EndsText.of_scanned (by decide) rfl rfl
  | blockStart => exact endsText_leftBrace
  | loopStart head => exact EndsText.of_scanned (by decide) rfl rfl
  | blockEnd => exact EndsText.of_scanned (by decide) rfl rfl

theorem sources_append (first second : List Bracket) :
    sources (first ++ second) = sources first ++ sources second := by
  simp [sources]

/-- Brackets that fit each other are read, and those that are left open are the
constructs that are open then. -/
theorem reaches_of_leaves (leaves : Leaves word stack) (nothingOpen : before.frames = [])
    (facing : Facing before (sources word) tail) (ends : EndsText tail) :
    ∃ after, Reaches before (sources word) after ∧ Stacked stack after.frames := by
  induction leaves generalizing tail with
  | balanced balanced =>
      have inContent : InContent before := fun header => by
        simp [State.innermost?_eq_frames, nothingOpen]
      obtain ⟨after, reaches, framesEq⟩ := reaches_balanced balanced facing inContent ends
      exact ⟨after, reaches, by rw [framesEq, nothingOpen]; exact .nil⟩
  | @opened earlier inner stack opener opening leaves opens balanced ih =>
      rw [sources_append] at facing ⊢
      have endsEarlier : EndsText (sources (opener :: inner) ++ tail) := by
        rw [sources, List.flatMap_cons, List.append_assoc]
        exact endsText_bracket opener _
      obtain ⟨middle, reachesMiddle, stacked⟩ :=
        ih (facing.regroup (List.append_assoc _ _ _)) endsEarlier
      obtain ⟨after, reaches, opened⟩ :=
        reaches_opened opens balanced (reachesMiddle.facing facing) ends
      exact ⟨after, reachesMiddle.trans reaches, .cons opened stacked⟩

theorem rejects_offender {bracket : Bracket} {cause : Cause}
    (stacked : Stacked stack before.frames) (offends : bracket.offence? stack.head? = some cause)
    (facing : Facing before bracket.own tail) :
    Rejects before (.grammatical cause (before.spanOf bracket.own)) := by
  have innermost := stacked.innermost?
  generalize stack.head? = top at offends innermost
  cases bracket with
  | endTag name =>
      rcases of_offence?_endTag offends with
        ⟨opened, rfl, different, rfl⟩ | ⟨noElement, rfl⟩
      · exact rejects_endTag_mismatched facing innermost different
      · apply rejects_endTag_unexpected facing
        intro tag
        rw [innermost]
        exact innermostKind?_ne_element noElement tag
  | blockEnd =>
      obtain ⟨noBlock, noLoop, rfl⟩ := of_offence?_blockEnd offends
      apply rejects_blockEnd facing
      rw [innermost]
      exact innermostKind?_ne_block noBlock noLoop
  | _ => contradiction

end Runs

section Places

/-- A text with no line break in it. -/
def Unbroken (text : List Char) : Prop :=
  ∀ c ∈ text, Text.isLineBreak c = false

theorem Unbroken.append {first second : List Char} (unbroken : Unbroken first)
    (unbrokenThen : Unbroken second) : Unbroken (first ++ second) := by
  intro c member
  rcases List.mem_append.1 member with member | member
  · exact unbroken c member
  · exact unbrokenThen c member

theorem Unbroken.flatMap {α : Type} {items : List α} {text : α → List Char}
    (unbroken : ∀ item, Unbroken (text item)) : Unbroken (items.flatMap text) := by
  intro c member
  obtain ⟨item, -, member⟩ := List.mem_flatMap.1 member
  exact unbroken item c member

theorem not_isLineBreak_of_class {member : Char → Bool} {c : Char}
    (apart : ['\n', '\r'].all fun other => !member other) (isMember : member c = true) :
    Text.isLineBreak c = false := by
  have := Lex.not_mem_of_class apart isMember
  simp_all [Text.isLineBreak]

theorem unbroken_of_isName {isStart isPart : Char → Bool} {text : List Char}
    (apart : ['\n', '\r'].all fun other => !isStart other)
    (apartLater : ['\n', '\r'].all fun other => !isPart other)
    (isName : Lex.IsName isStart isPart text) : Unbroken text := by
  obtain ⟨c, rest, rfl, start, parts⟩ := isName
  intro d member
  rcases List.mem_cons.1 member with rfl | member
  · exact not_isLineBreak_of_class apart start
  · exact not_isLineBreak_of_class apartLater (List.all_eq_true.1 parts d member)

theorem unbroken_tagName (name : TagName) : Unbroken name.text.toList :=
  unbroken_of_isName (by decide) (by decide) name.isName

theorem unbroken_variableName (name : VariableName) : Unbroken name.text.toList :=
  unbroken_of_isName (by decide) (by decide) name.isName

theorem unbroken_lookup (lookup : Lookup) : Unbroken lookup.source := by
  refine (unbroken_variableName lookup.root).append (.flatMap fun property => ?_)
  have unbroken : Unbroken ['.'] := by simp [Unbroken, Text.isLineBreak]
  exact unbroken.append (unbroken_variableName property)

theorem unbroken_loopHead (head : LoopHead) : Unbroken head.source := by
  have blank : Unbroken [' '] := by simp [Unbroken, Text.isLineBreak]
  have inside : Unbroken head.inside :=
    (unbroken_variableName head.item).append (blank.append
      ((unbroken_variableName head.preposition).append
        (blank.append (unbroken_lookup head.collection))))
  have early : Unbroken "@for (".toList := by simp [Unbroken, Text.isLineBreak]
  have late : Unbroken [')', ' '] := by simp [Unbroken, Text.isLineBreak]
  exact early.append (inside.append late)

theorem unbroken_source (bracket : Bracket) : Unbroken bracket.source := by
  have less : Unbroken ['<'] := by simp [Unbroken, Text.isLineBreak]
  have greater : Unbroken ['>'] := by simp [Unbroken, Text.isLineBreak]
  have slash : Unbroken ['/'] := by simp [Unbroken, Text.isLineBreak]
  have opening : Unbroken ['{'] := by simp [Unbroken, Text.isLineBreak]
  have closing : Unbroken ['}'] := by simp [Unbroken, Text.isLineBreak]
  have blank : Unbroken [' '] := by simp [Unbroken, Text.isLineBreak]
  have nothing : Unbroken [] := by simp [Unbroken]
  cases bracket with
  | startTag name =>
      exact (less.append ((unbroken_tagName name.toTagName).append greater)).append nothing
  | endTag name =>
      exact (less.append (slash.append
        ((unbroken_tagName name.toTagName).append greater))).append nothing
  | blockStart => exact opening.append blank
  | loopStart head => exact ((unbroken_loopHead head).append opening).append blank
  | blockEnd => exact closing.append blank

theorem spanOf_behind {text : List Char} {before : List Bracket} (ahead : sources before <+: text)
    (own : List Char) :
    ((behindMatter text "" 0).after (sources before)).spanOf own = placeBehind before own := by
  obtain ⟨tail, rfl⟩ := ahead
  have restEq : (Cursor.ofText (sources before ++ tail)).rest = sources before ++ tail := rfl
  have markEq := Cursor.advanceBy_mark restEq
    (Unbroken.flatMap unbroken_source : Unbroken (sources before))
  have cursorEq : ((behindMatter (sources before ++ tail) "" 0).after (sources before)).cursor =
      Cursor.advanceBy (sources before).length (.ofText (sources before ++ tail)) := by
    rw [State.cursor_after, ← Cursor.advanceBy_zero (.ofText (sources before ++ tail))]
    rfl
  rw [State.spanOf, cursorEq, markEq]
  simp [Mark.position, Position.withLength, placeBehind, Cursor.ofText, Mark.start, Nat.add_comm]

end Places

section Templates

theorem opensMatter_sources (brackets : List Bracket) :
    Lex.opensMatter (sources brackets) = false := by
  cases brackets with
  | nil => rfl
  | cons bracket others => cases bracket <;> rfl

theorem scanFrontMatter_sources (brackets : List Bracket) :
    Lex.scanFrontMatter true (String.ofList (sources brackets)).toList =
      .ok (some ⟨.frontMatter "", 0⟩) := by
  rw [String.toList_ofList]
  exact Lex.scanFrontMatter_none (opensMatter_sources brackets)

/-- The parser before the first of some brackets. -/
def atFirst (brackets : List Bracket) : State :=
  behindMatter (String.ofList (sources brackets)).toList "" 0

theorem facing_atFirst (before after : List Bracket) :
    Facing (atFirst (before ++ after)) (sources before) (sources after) := by
  refine ⟨rfl, ?_⟩
  rw [atFirst, rest_behindMatter, String.toList_ofList, List.drop_zero, sources_append]

theorem spanOf_atFirst (before after : List Bracket) (own : List Char) :
    ((atFirst (before ++ after)).after (sources before)).spanOf own = placeBehind before own := by
  refine spanOf_behind ?_ own
  rw [String.toList_ofList, sources_append]
  exact List.prefix_append _ _

theorem describeOpen_loop (head : LoopHead) :
    (Bracket.loopStart head).opening? = some (describeOpen (.loop head.loop)) := by
  have textEq : head.loop.collection.text = String.ofList head.collection.source := by
    rw [← head.collection.source_dotted, ← Dotted.text_path, head.collection.path_dotted]
    rfl
  rw [describeOpen, textEq]
  rfl

/-- The innermost construct that is left open is the one that is reported. -/
theorem Opened.unclosed? {opener : Bracket} {opening : String} {position : Position}
    {after : State} (opened : Opened opener position after.frames before.frames)
    (opens : opener.opening? = some opening) (inContent : InContent before) :
    ∃ found, after.unclosed? = some found ∧ describeOpen found.kind = opening ∧
      found.position = position := by
  have unclosed := after.unclosed?_eq_frames
  have reported : ∃ kind, describeOpen kind = opening ∧
      after.unclosed?.map (fun found => (found.kind, found.position)) = some (kind, position) := by
    cases opener with
    | startTag name =>
        obtain rfl := Option.some.inj opens
        rw [show after.frames = _ from opened] at unclosed
        exact ⟨_, rfl, unclosed⟩
    | blockStart =>
        obtain rfl := Option.some.inj opens
        rw [show after.frames = _ from opened] at unclosed
        refine ⟨.block, rfl, ?_⟩
        cases framesEq : before.frames with
        | nil => rwa [framesEq] at unclosed
        | cons frame outer =>
            obtain ⟨kind, place⟩ := frame
            rw [framesEq] at unclosed
            cases kind with
            | loop header => exact (inContent header (innermost?_of_frames framesEq)).elim
            | _ => exact unclosed
    | loopStart head =>
        obtain rfl := Option.some.inj (opens.symm.trans (describeOpen_loop head))
        obtain ⟨place, framesEq⟩ := opened
        rw [framesEq] at unclosed
        exact ⟨_, rfl, unclosed⟩
    | endTag name | blockEnd => contradiction
  obtain ⟨kind, described, reported⟩ := reported
  obtain ⟨found, foundEq, sameEq⟩ := Option.map_eq_some_iff.1 reported
  obtain ⟨rfl, positionEq⟩ := Prod.mk.inj sameEq
  exact ⟨found, foundEq, described, positionEq⟩

theorem parse_of_balanced {brackets : List Bracket} (balanced : Balanced brackets) :
    ∃ template, Template.parse (String.ofList (sources brackets)) = .ok template := by
  have facing : Facing (atFirst brackets) (sources brackets) [] := by
    have facing := facing_atFirst brackets []
    rwa [List.append_nil] at facing
  obtain ⟨after, reaches, framesEq⟩ :=
    reaches_balanced balanced facing (by rintro _ ⟨⟩) endsText_nil
  have closed : after.unclosed? = none := by
    have mapEq := after.unclosed?_eq_frames
    rw [framesEq] at mapEq
    exact Option.map_eq_none_iff.1 mapEq
  have facingEnd : Facing after [] [] := reaches.facing (facing.regroup (by simp))
  exact ⟨_, parse_eq_ok (scanFrontMatter_sources brackets) reaches.leads facingEnd.modes
    facingEnd.rest closed⟩

/-- Up to a bracket that stands behind others which fit each other, the parser
comes to where it stands. -/
theorem reaches_bracket (leaves : Leaves word stack) (bracket : Bracket) (others : List Bracket) :
    ∃ middle, Reaches (atFirst (word ++ bracket :: others)) (sources word) middle ∧
      Facing middle (sources (bracket :: others)) [] ∧ Stacked stack middle.frames ∧
      middle.spanOf bracket.own = placeBehind word bracket.own := by
  have facing := facing_atFirst word (bracket :: others)
  have ends : EndsText (sources (bracket :: others)) := endsText_bracket bracket _
  obtain ⟨middle, reaches, stacked⟩ := reaches_of_leaves leaves rfl facing ends
  refine ⟨middle, reaches, reaches.facing (facing.regroup (by simp)), stacked, ?_⟩
  rw [reaches.spanOf_eq, spanOf_atFirst]

theorem parse_of_rejected {brackets : List Bracket} {error : Parse.Error}
    (rejected : Rejected brackets error) :
    Template.parse (String.ofList (sources brackets)) = .error error := by
  cases rejected with
  | @offended before after stack bracket cause leaves offends =>
      obtain ⟨middle, reaches, facing, stacked, placeEq⟩ := reaches_bracket leaves bracket after
      have facingOwn : Facing middle bracket.own (bracket.trailing ++ sources after) :=
        facing.regroup (by simp [sources, source])
      rw [← placeEq]
      exact parse_eq_rejected (scanFrontMatter_sources _)
        (reaches.leads.rejects (rejects_offender stacked offends facingOwn))
  | @unclosed before inner stack opener opening leaves opens balanced =>
      obtain ⟨middle, reaches, facing, stacked, placeEq⟩ := reaches_bracket leaves opener inner
      obtain ⟨after, reachesEnd, opened⟩ := reaches_opened opens balanced facing endsText_nil
      obtain ⟨found, foundEq, rfl, positionEq⟩ := opened.unclosed? opens stacked.inContent
      have facingEnd : Facing after [] [] := reachesEnd.facing (facing.regroup (by simp))
      rw [← placeEq, ← positionEq]
      exact parse_eq_unclosed (scanFrontMatter_sources _) (reaches.leads.trans reachesEnd.leads)
        facingEnd.modes facingEnd.rest foundEq

/-- A template that consists of brackets is parsed if and only if they are
balanced, and otherwise refused for the first of them that does not fit, or for
the innermost one that is left open. -/
theorem parse_brackets (brackets : List Bracket) :
    ((∃ template, Template.parse (String.ofList (sources brackets)) = .ok template) ↔
        Balanced brackets) ∧
      ∀ error, Template.parse (String.ofList (sources brackets)) = .error error ↔
        Rejected brackets error := by
  have decided := balanced_or_rejected brackets
  refine ⟨⟨?_, parse_of_balanced⟩, fun error => ⟨?_, parse_of_rejected⟩⟩
  · rintro ⟨template, parsed⟩
    rcases decided with balanced | ⟨error, rejected⟩
    · exact balanced
    · rw [parse_of_rejected rejected] at parsed
      contradiction
  · intro failed
    rcases decided with balanced | ⟨other, rejected⟩
    · obtain ⟨template, parsed⟩ := parse_of_balanced balanced
      rw [parsed] at failed
      contradiction
    · rw [parse_of_rejected rejected] at failed
      cases failed
      exact rejected

def listTag : ContainerName :=
  ⟨⟨⟨"ol", ⟨'o', ['l'], rfl, rfl, by decide⟩, by decide⟩, by decide⟩, by decide⟩

def pointTag : ContainerName :=
  ⟨⟨⟨"li", ⟨'l', ['i'], rfl, rfl, by decide⟩, by decide⟩, by decide⟩, by decide⟩

theorem isVariableName_of : Lex.IsVariableName "of".toList :=
  ⟨'o', ['f'], rfl, rfl, by decide⟩

theorem booleanWord?_of : Lex.booleanWord? "of".toList = none := by
  decide

/-- The head of a loop over the posts of a page. -/
def overPosts : LoopHead :=
  let post : VariableName := ⟨"post", ⟨'p', "ost".toList, rfl, rfl, by decide⟩, by decide⟩
  let page : VariableName := ⟨"page", ⟨'p', "age".toList, rfl, rfl, by decide⟩, by decide⟩
  let posts : VariableName := ⟨"posts", ⟨'p', "osts".toList, rfl, rfl, by decide⟩, by decide⟩
  ⟨post, ⟨"of", isVariableName_of, booleanWord?_of⟩, ⟨page, [posts]⟩⟩

/-- A loop, a list and a block that are left open, each behind or around brackets that
fit. -/
theorem parse_brackets_leftOpen :
    Template.parse "<ol>@for (post of page.posts) \x7b <li></li>" =
        .error (.grammatical (.unclosed "@for over \x60page.posts\x60") ⟨1, 5, 4, some 27⟩) ∧
      Template.parse "<ol>@for (post of page.posts) \x7b <li></li>\x7d " =
        .error (.grammatical (.unclosed "element <ol>") ⟨1, 1, 0, some 4⟩) ∧
      Template.parse "<ol>\x7b <li></li>" =
        .error (.grammatical (.unclosed "block") ⟨1, 5, 4, some 1⟩) := by
  have refused {brackets : List Bracket} {error : Parse.Error} {text : String}
      (sourceEq : sources brackets = text.toList) (rejected : Rejected brackets error) :
      Template.parse text = .error error := by
    rw [← ((parse_brackets brackets).2 error).2 rejected, sourceEq, String.ofList_toList]
  have inList : Leaves [.startTag listTag] [.startTag listTag] :=
    .opened (.balanced .nil) rfl .nil
  have point : Balanced [.startTag pointTag, .endTag pointTag] := .element pointTag .nil .nil
  have loop : (Bracket.loopStart overPosts).opening? =
      some "@for over \x60page.posts\x60" := by decide
  have loopPlace : placeBehind [.startTag listTag] (Bracket.loopStart overPosts).own =
      ⟨1, 5, 4, some 27⟩ := by decide
  have listPlace : placeBehind [] (Bracket.startTag listTag).own = ⟨1, 1, 0, some 4⟩ := by decide
  have blockPlace : placeBehind [.startTag listTag] Bracket.blockStart.own =
      ⟨1, 5, 4, some 1⟩ := by decide
  have list : (Bracket.startTag listTag).opening? = some "element <ol>" := by decide
  have block : Bracket.blockStart.opening? = some "block" := rfl
  have loopOpen := Rejected.unclosed inList loop point
  have listOpen := Rejected.unclosed (.balanced .nil) list (.loop overPosts point .nil)
  have blockOpen := Rejected.unclosed inList block point
  rw [loopPlace] at loopOpen
  rw [listPlace] at listOpen
  rw [blockPlace] at blockOpen
  exact ⟨refused (by decide) loopOpen, refused (by decide) listOpen,
    refused (by decide) blockOpen⟩

end Templates

end Parser

end TemplateCompiler
