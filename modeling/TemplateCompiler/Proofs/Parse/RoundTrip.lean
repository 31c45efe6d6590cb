import TemplateCompiler.Proofs.Parse.Leads

/-!
# Parsing undoes writing

A template that was written is read back: the tree that the parser builds from
its source has the outline of what was written.  Inside a template this holds
from any state between constructs, where what was written becomes more nodes at
the innermost place; the proof follows the nesting of the constructs.
-/

namespace TemplateCompiler

open Parse Written

namespace Parser

variable {before : State} {piece tail : List Char}

section Boundaries

theorem EndsText.of_scanned {c : Char} {text : List Char} {lexeme : Lex.Lexeme}
    (marked : c ∈ ['<', '{', '}', '@'])
    (scanned : Lex.scanMarkup (c :: text) = .ok (some lexeme))
    (other : isTextual lexeme.kind = false) : EndsText (c :: text) where
  marked := by
    rintro _ ⟨⟩
    exact marked
  refuses := .of_scanned scanned other

theorem endsText_startTag (name : TagName) (items : Items) (selfClosing : Bool) :
    EndsText (startTagSource name items selfClosing ++ tail) := by
  have scanned := scanMarkup_tag name (items.source ++ closing selfClosing ++ tail)
  rw [← List.append_assoc, ← List.append_assoc] at scanned
  exact EndsText.of_scanned (by decide) scanned rfl

theorem endsText_endTag (name : TagName) : EndsText (endTagSource name ++ tail) :=
  EndsText.of_scanned (by decide) rfl rfl

theorem endsText_rightBrace : EndsText (['}'] ++ tail) :=
  EndsText.of_scanned (by decide) rfl rfl

theorem endsText_leftBrace : EndsText (['{'] ++ tail) := by
  cases tail with
  | nil => exact EndsText.of_scanned (by decide) rfl rfl
  | cons c tail =>
      by_cases brace : c = '{'
      · subst brace
        exact EndsText.of_scanned (by decide) rfl rfl
      · refine EndsText.of_scanned (by decide) (Lex.scanMarkup_leftBrace ?_) rfl
        rintro ⟨⟩
        exact brace rfl

theorem endsText_comment (comment : CommentText) : EndsText (comment.source ++ tail) :=
  EndsText.of_scanned (by decide) (scanMarkup_comment comment tail) rfl

theorem endsText_source {construct : Construct} (notText : ¬construct.IsText) :
    EndsText (construct.source ++ tail) := by
  cases construct with
  | text content => exact absurd trivial notText
  | comment content => exact endsText_comment content
  | interpolation value => exact endsText_leftBrace
  | empty name items slash closed => exact endsText_startTag _ _ _
  | element name items content =>
      rw [Construct.source, List.append_assoc]
      exact endsText_startTag _ _ _
  | block content => exact endsText_leftBrace
  | loop head content => exact EndsText.of_scanned (by decide) rfl rfl

theorem endsText_sources {constructs : List Construct} (ends : EndsText tail)
    (noText : ∀ next ∈ constructs.head?, ¬next.IsText) :
    EndsText (Construct.sources constructs ++ tail) := by
  cases constructs with
  | nil => exact ends
  | cons next others =>
      rw [Construct.sources, List.append_assoc]
      exact endsText_source (noText next rfl)

theorem single_brace {constructs : List Construct}
    (unbraced : ∀ first ∈ constructs.head?, ¬first.IsBraced) :
    '{' ∉ (Construct.sources constructs ++ (['}'] ++ tail)).head? := by
  cases constructs with
  | nil => simp [Construct.sources]
  | cons first others =>
      have unbraced := unbraced first rfl
      rw [Construct.sources]
      cases first with
      | text content =>
          obtain ⟨c, rest, textEq⟩ := List.exists_cons_of_ne_nil content.nonempty
          have plain := content.plain c (by simp [textEq])
          rw [Construct.source, textEq]
          rintro ⟨⟩
          exact plain (by simp)
      | interpolation value => exact absurd trivial unbraced
      | block content => exact absurd trivial unbraced
      | comment content => rintro ⟨⟩
      | empty name items slash closed => rintro ⟨⟩
      | element name items content => rintro ⟨⟩
      | loop head content => rintro ⟨⟩

end Boundaries

section Trees

/-- The parser is not between a loop and its body. -/
def InContent (state : State) : Prop :=
  ∀ header, state.innermost? ≠ some (.loop header)

theorem InContent.of_frames {state : State} {kind : NodeKind} {position : Position}
    {frames : List (NodeKind × Position)} (framesEq : state.frames = (kind, position) :: frames)
    (other : ∀ header, kind ≠ .loop header) : InContent state := by
  intro header
  rw [innermost?_of_frames framesEq, ne_eq, Option.some.injEq]
  exact other header

theorem InContent.grown {nodes : List Node} {size : Nat} (inContent : InContent before) :
    InContent ((before.after piece).grown nodes size) := by
  intro header
  rw [State.innermost?_eq_frames, State.frames_grown, State.frames_after,
    ← State.innermost?_eq_frames]
  exact inContent header

/-- A piece of text leads to a state in which nodes with some outlines have
grown. -/
def Grows (before : State) (piece : List Char) (outlines : List Outline) : Prop :=
  ∃ nodes size, Leads before ((before.after piece).grown nodes size) ∧
    Node.outlines nodes = outlines

/-- What is written is read as what it is, wherever it stands. -/
def Readable (constructs : List Construct) : Prop :=
  ∀ {before : State} {tail : List Char}, Facing before (Construct.sources constructs) tail →
    InContent before → EndsText tail →
      Grows before (Construct.sources constructs) (Construct.outlines constructs)

theorem Grows.of_leaf {kind : NodeKind} {position : Position}
    (leads : Leads before ((before.after piece).addLeaf kind position)) :
    Grows before piece [.mk kind []] := by
  rw [State.addLeaf_eq_grown] at leads
  exact ⟨_, _, leads, rfl⟩

theorem Grows.nil : Grows before [] [] := by
  refine ⟨[], before.size, fun bound post fail enough meets => ?_, rfl⟩
  apply Meets.of_settled
  intro settledEq
  rw [State.after_nil settledEq, State.grown_nil] at meets
  exact meets bound enough

theorem Grows.cons {first others : List Char} {outline : Outline} {outlines : List Outline}
    (grows : Grows before first [outline])
    (growsThen : ∀ nodes size, Grows ((before.after first).grown nodes size) others outlines) :
    Grows before (first ++ others) (outline :: outlines) := by
  obtain ⟨nodes, size, leads, outlinesEq⟩ := grows
  obtain ⟨more, larger, leadsThen, moreEq⟩ := growsThen nodes size
  refine ⟨nodes ++ more, larger, leads.trans ?_, ?_⟩
  · rw [(State.grown_lexerFree nodes size).after_eq, State.after_after, State.grown_grown]
      at leadsThen
    exact leadsThen
  · rw [Node.outlines_append, outlinesEq, moreEq]
    rfl

theorem after_grown {opening : State → State} (free : State.LexerFree opening)
    (nodes : List Node) (size : Nat) (start content ending : List Char) :
    (((opening (before.after start)).after content).grown nodes size).after ending =
      (opening (before.after (start ++ (content ++ ending)))).grown nodes size := by
  rw [(State.grown_lexerFree nodes size).after_eq, free.after_eq, free.after_eq,
    State.after_after, State.after_after]

/-- A construct that is opened, filled and closed. -/
theorem leads_enclosing {opening closing : State → State} {content : List Construct}
    {start ending : List Char}
    (facing : Facing before (start ++ (Construct.sources content ++ ending)) tail)
    (free : State.LexerFree opening) (opens : Leads before (opening (before.after start)))
    (inContent : InContent (opening (before.after start))) (readable : Readable content)
    (ends : EndsText (ending ++ tail))
    (closes : ∀ state, Facing state ending tail →
      state.frames = (opening (before.after start)).frames →
      Leads state (closing (state.after ending))) :
    ∃ nodes size,
      Leads before (closing ((opening (before.after
        (start ++ (Construct.sources content ++ ending)))).grown nodes size)) ∧
      Node.outlines nodes = Construct.outlines content := by
  have facingInside := facing.after.change free
  have facingContent : Facing (opening (before.after start)) (Construct.sources content)
      (ending ++ tail) := facingInside.regroup (List.append_assoc _ _ _)
  obtain ⟨nodes, size, leads, outlinesEq⟩ := readable facingContent inContent ends
  refine ⟨nodes, size, opens.trans (leads.trans ?_), outlinesEq⟩
  rw [← after_grown free]
  apply closes _ (facingInside.after.change (State.grown_lexerFree nodes size))
  rw [State.frames_grown, State.frames_after]

theorem grows_element (name : ContainerName) (items : Items) {content : List Construct}
    (readable : Readable content)
    (facing : Facing before (Construct.element name items content).source tail) :
    Grows before (Construct.element name items content).source
      [(Construct.element name items content).outline] := by
  have facingStart := facing.regroup (List.append_assoc _ _ _)
  obtain ⟨nodes, size, leads, outlinesEq⟩ := leads_enclosing facing
    (State.openNode_lexerFree _ _) (leads_startTag name facingStart)
    (.of_frames rfl (by simp)) readable (endsText_endTag name.toTagName)
    fun state facingEnd framesEq =>
      leads_endTag facingEnd (innermost?_of_frames framesEq) (addEntries_keeps _ _).1
  rw [State.closeNode_grown_openNode] at leads
  exact ⟨_, size, leads, by simp [Node.outlines, Node.outline, Construct.outline, outlinesEq]⟩

theorem grows_block {content : List Construct} (readable : Readable content)
    (unbraced : ∀ first ∈ content.head?, ¬first.IsBraced)
    (facing : Facing before (Construct.block content).source tail)
    (inContent : InContent before) :
    Grows before (Construct.block content).source [(Construct.block content).outline] := by
  have facingStart := facing.regroup (List.append_assoc _ _ _)
  have single : '{' ∉ (Construct.sources content ++ ['}'] ++ tail).head? := by
    rw [List.append_assoc]
    exact single_brace unbraced
  obtain ⟨nodes, size, leads, outlinesEq⟩ := leads_enclosing facing
    (State.openNode_lexerFree _ _) (leads_blockStart facingStart single)
    (.of_frames rfl (by simp)) readable endsText_rightBrace
    fun state facingEnd framesEq => leads_blockEnd facingEnd (innermost?_of_frames framesEq)
  rw [State.closeBlock_of_other, State.closeNode_grown_openNode] at leads
  · exact ⟨_, size, leads, by simp [Node.outlines, Node.outline, Construct.outline, outlinesEq]⟩
  · rw [State.closeNode_grown_openNode]
    exact inContent.grown

theorem grows_loop (head : LoopHead) {content : List Construct} (readable : Readable content)
    (facing : Facing before (Construct.loop head content).source tail) :
    Grows before (Construct.loop head content).source [(Construct.loop head content).outline] := by
  have sourceEq : (Construct.loop head content).source =
      (head.source ++ ['{']) ++ (Construct.sources content ++ ['}']) := by
    rw [Construct.source, List.append_assoc]
  rw [sourceEq] at facing ⊢
  have facingStart := facing.regroup (List.append_assoc _ _ _)
  obtain ⟨nodes, size, leads, outlinesEq⟩ := leads_enclosing facing
    (State.openLoop_lexerFree _ _ _) (leads_loopStart head facingStart)
    (.of_frames rfl (by simp)) readable endsText_rightBrace
    fun state facingEnd framesEq => leads_blockEnd facingEnd (innermost?_of_frames framesEq)
  rw [State.closeBlock_of_loop, State.openLoop, State.closeNode_grown_openNode,
    State.closeNode_grown_openNode] at leads
  · exact ⟨_, size, leads, by simp [Node.outlines, Node.outline, Construct.outline, outlinesEq]⟩
  · rw [State.openLoop, State.closeNode_grown_openNode, State.innermost?_eq_frames,
      State.frames_grown]
    rfl

mutual

theorem grows_source : ∀ (construct : Construct) {before : State} {tail : List Char},
    construct.WellFormed → Facing before construct.source tail → InContent before →
      (construct.IsText → EndsText tail) → Grows before construct.source [construct.outline]
  | .text content, _, _, _, facing, _, ends => .of_leaf (leads_text content facing (ends trivial))
  | .comment content, _, _, _, facing, _, _ => .of_leaf (leads_comment content facing)
  | .interpolation value, _, _, _, facing, _, _ => .of_leaf (leads_interpolation value facing)
  | .empty name _ _ closed, _, _, _, facing, _, _ =>
      .of_leaf (leads_emptyElement name facing closed)
  | .element name items content, _, _, wellFormed, facing, _, _ =>
      grows_element name items (readable_sources content wellFormed) facing
  | .block content, _, _, wellFormed, facing, inContent, _ =>
      grows_block (readable_sources content wellFormed.2) wellFormed.1 facing inContent
  | .loop head content, _, _, wellFormed, facing, _, _ =>
      grows_loop head (readable_sources content wellFormed) facing

theorem readable_sources : ∀ (constructs : List Construct),
    Construct.AllWellFormed constructs → Readable constructs
  | [], _, _, _, _, _, _ => .nil
  | first :: others, wellFormed, _, _, facing, inContent, ends =>
      .cons (grows_source first wellFormed.1 (facing.regroup (List.append_assoc _ _ _)) inContent
        fun isText => endsText_sources ends (wellFormed.2.1 isText))
        fun nodes size => readable_sources others wellFormed.2.2
          (facing.after.change (State.grown_lexerFree nodes size)) inContent.grown ends

end

end Trees

section Templates

/-- A text is read as some constructs, with nothing else in it. -/
def IsReadAs (text : String) (constructs : List Construct) : Prop :=
  ∃ template, Template.parse text = .ok template ∧ template.document = ⟨"", []⟩ ∧
    template.dropped = [] ∧ Node.outlines template.children = Construct.outlines constructs

/-- What is written behind a place that the parser comes to with nothing read or
open there is all that a template consists of. -/
theorem exists_template_of_leads {constructs : List Construct} {text content : String}
    {length : Nat} {start : State} (wellFormed : Construct.AllWellFormed constructs)
    (scanned : Lex.scanFrontMatter true text.toList = .ok (some ⟨.frontMatter content, length⟩))
    (leads : Leads (behindMatter text.toList content length) start)
    (facing : Facing start (Construct.sources constructs) []) (nothingOpen : start.enclosing = [])
    (nothingRead : start.top = []) :
    ∃ template, Template.parse text = .ok template ∧ template.document = start.document ∧
      template.dropped = start.dropped ∧
      Node.outlines template.children = Construct.outlines constructs := by
  have inContent : InContent start := fun header => by simp [State.innermost?, nothingOpen]
  obtain ⟨nodes, size, leadsThen, outlinesEq⟩ :=
    readable_sources constructs wellFormed facing inContent endsText_nil
  have free := State.grown_lexerFree nodes size
  have restEq : ((start.after (Construct.sources constructs)).grown nodes size).rest = [] := by
    rw [free.rest_eq, facing.rest_after]
  have grownEq : (start.after (Construct.sources constructs)).grown nodes size =
      { start.after (Construct.sources constructs) with
        top := nodes.reverse ++ start.top, size := size } := by
    simp [State.grown, State.after, State.moved, State.withLexer, nothingOpen]
  refine ⟨_, parse_eq_ok scanned (leads.trans leadsThen) ?_ restEq ?_, ?_, ?_, ?_⟩
  · rw [free.modes_eq]
    exact facing.modes
  all_goals
    rw [grownEq]
  · simp [State.unclosed?, State.after, State.moved, State.withLexer, nothingOpen]
  · rfl
  · rfl
  · simp [State.template, nothingRead, outlinesEq]

/-- What is written behind empty front matter, or without any, is read back. -/
theorem isReadAs_of_behindMatter {constructs : List Construct} {text : String}
    {matter : List Char} (wellFormed : Construct.AllWellFormed constructs)
    (textEq : text.toList = matter ++ Construct.sources constructs)
    (scanned : Lex.scanFrontMatter true text.toList =
      .ok (some ⟨.frontMatter "", matter.length⟩)) :
    IsReadAs text constructs := by
  have facing : Facing (behindMatter text.toList "" matter.length)
      (Construct.sources constructs) [] := by
    refine ⟨rfl, ?_⟩
    rw [rest_behindMatter, textEq, List.drop_left, List.append_nil]
  exact exists_template_of_leads wellFormed scanned .refl facing rfl rfl

/-- Parsing undoes writing: a template is read back from its source behind empty
front matter, and from its source alone unless that begins like front matter. -/
theorem isReadAs_sources {constructs : List Construct}
    (wellFormed : Construct.AllWellFormed constructs) :
    IsReadAs (String.ofList (Lex.emptyMatter ++ Construct.sources constructs)) constructs ∧
      (Lex.opensMatter (Construct.sources constructs) = false →
        IsReadAs (String.ofList (Construct.sources constructs)) constructs) := by
  constructor
  · apply isReadAs_of_behindMatter wellFormed String.toList_ofList
    rw [String.toList_ofList]
    exact Lex.scanFrontMatter_empty _
  · intro noMatter
    apply isReadAs_of_behindMatter wellFormed (show _ = [] ++ _ from String.toList_ofList)
    rw [String.toList_ofList]
    exact Lex.scanFrontMatter_none noMatter

/-- A list with a loop in it, written as
`<ul (click)="open">@for (entry of feed.entries) {{{ entry }}<br> > }</ul>`. -/
def loopInList : List Construct :=
  let nothing : Spaces := ⟨[], by simp [Text.IsSpaces]⟩
  let list : ContainerName :=
    ⟨⟨⟨"ul", ⟨'u', ['l'], rfl, rfl, by decide⟩, by decide⟩, by decide⟩, by decide⟩
  let lineBreak : ElementName :=
    ⟨⟨"br", ⟨'b', ['r'], rfl, rfl, by decide⟩, by decide⟩, by decide⟩
  let click : TagName := ⟨"click", ⟨'c', "lick".toList, rfl, rfl, by decide⟩, by decide⟩
  let entry : VariableName := ⟨"entry", ⟨'e', "ntry".toList, rfl, rfl, by decide⟩, by decide⟩
  let preposition : VariableName := ⟨"of", ⟨'o', ['f'], rfl, rfl, by decide⟩, by decide⟩
  let feed : VariableName := ⟨"feed", ⟨'f', "eed".toList, rfl, rfl, by decide⟩, by decide⟩
  let entries : VariableName :=
    ⟨"entries", ⟨'e', "ntries".toList, rfl, rfl, by decide⟩, by decide⟩
  [.element list
    ⟨[(⟨[' '], by simp, isSpaces_blank⟩, .binding .outward click "open")], nothing⟩
    [.loop ⟨entry, preposition, ⟨feed, [entries]⟩⟩
      [.interpolation (.path ⟨entry, []⟩), .empty lineBreak ⟨[], nothing⟩ false (by decide),
        .text ⟨" > ", by simp, by simp⟩]]]

theorem isReadAs_sources_loopInList :
    Construct.AllWellFormed loopInList ∧
      Lex.opensMatter (Construct.sources loopInList) = false ∧
      IsReadAs (String.ofList (Construct.sources loopInList)) loopInList := by
  have wellFormed : Construct.AllWellFormed loopInList := by
    simp [loopInList, Construct.AllWellFormed, Construct.WellFormed, Construct.IsText]
  have noMatter : Lex.opensMatter (Construct.sources loopInList) = false := by decide
  exact ⟨wellFormed, noMatter, (isReadAs_sources wellFormed).2 noMatter⟩

end Templates

end Parser

end TemplateCompiler
