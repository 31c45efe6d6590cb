import TemplateCompiler.Proofs.Lex.Progress
import TemplateCompiler.Proofs.Lex.StyleSheets
import TemplateCompiler.Proofs.Parse.ModeDiscipline
import TemplateCompiler.Proofs.Parse.WrittenConstructs

/-!
# The content of a style

The parser takes the tokens of a style and keeps their characters.  The tokens pass over the
style sheet, so what is kept goes up to the first end tag that stands outside of the strings and
comments.  If there is no such tag and the tokens are well formed, they reach the end of the
source, and the element has no end.
-/

namespace TemplateCompiler

open Parse Written

namespace Parser

variable {before start looked opened : State} {bound : Nat} {tag : Element} {place : Position}
  {token : Token} {text read tail : List Char}

section Sheets

open TemplateCompiler.Lex

/-- Whether no token of a style sheet is malformed, up to its end tag or the end of the text. -/
def ScansSheet (text : List Char) : Prop :=
  ∃ read tail, text = read ++ tail ∧ TokenRun .style isSheetPart read tail

theorem TokenRun.passesSheet (run : TokenRun .style isSheetPart read tail) :
    PassesSheet (read ++ tail) read tail := by
  induction run with
  | stop => exact .refl _
  | @token kind first rest tail nonempty scanned part later ih =>
      have notEnd : kind ≠ .styleEnd := by
        rintro rfl
        contradiction
      obtain ⟨piece, behind, lengthEq, passes⟩ := passes_scanStyle scanned notEnd
      obtain ⟨rfl, rfl⟩ := List.append_inj passes.text_eq lengthEq
      rw [List.append_assoc]
      exact passes.trans ih

/-- Behind the tokens of a style sheet the text is at its end, or there is an end tag. -/
theorem TokenRun.ends (run : TokenRun .style isSheetPart read tail) :
    scanStyle tail = .ok none ∨ ∃ length, scanStyle tail = .ok (some ⟨.styleEnd, length⟩) := by
  induction run with
  | stop refuses =>
      obtain ⟨lexeme?, scanned, refused⟩ := refuses
      cases lexeme? with
      | none => exact .inl scanned
      | some lexeme =>
          obtain ⟨kind, length⟩ := lexeme
          cases kind with
          | styleEnd => exact .inr ⟨length, scanned⟩
          | _ => contradiction
  | token _ _ _ _ ih => exact ih

/-- The tokens of a style sheet come to its end tag, or to the end of a text that has none. -/
theorem ScansSheet.ends (scans : ScansSheet text) :
    (HasStyleEnd text ∧ ∃ read tail length, text = read ++ tail ∧
        TokenRun .style isSheetPart read tail ∧ scanStyle tail = .ok (some ⟨.styleEnd, length⟩)) ∨
      ¬HasStyleEnd text ∧ TokenRun .style isSheetPart text [] := by
  obtain ⟨read, tail, rfl, run⟩ := scans
  have passes := run.passesSheet
  obtain ended | ⟨length, scanned⟩ := run.ends
  · obtain rfl := @eq_nil_of_scanIn .style _ ended
    rw [List.append_nil] at passes ⊢
    exact .inr ⟨passes.not_hasStyleEnd, run⟩
  · have closes := (fits_scanStyle scanned).spelled
    exact .inl ⟨⟨read, tail, passes.inSheet, _, List.take_prefix _ _,
      equalIgnoreCase_styleEnd_iff.1 closes⟩, read, tail, length, rfl, run, scanned⟩

end Sheets

section Contents

/-- The children of a style, the first of which would have a number and a place. -/
def styleChildren (id : Nat) (position : Position) : (content : List Char) → List Node
  | [] => []
  | c :: content => [.leaf id (.text (String.ofList (c :: content))) position]

/-- The state behind a style whose content and end tag follow its start tag. -/
def behindStyle (start : State) (tag : Element) (place : Position)
    (content closing : List Char) : State :=
  let children := styleChildren (start.size + 1) (start.spanOf content) content
  (start.after (content ++ closing)).grown [.node start.size (.element tag) place children]
    (start.size + 1 + children.length)

/-- What the parser does with a style when it has taken the tokens of the content. -/
def closeStyle (start : Cursor) : Parser Unit := do
  let stop ← here
  let text := start.textTo stop
  if !text.isEmpty then
    let position ← spanningFrom start.mark.position
    modify (·.addLeaf (.text (String.ofList text)) position)
  skip
  popMode
  modify (·.closeNode)

variable {closing : List Char}

theorem closeStyle_runs (ahead : read <+: before.rest)
    (known : (before.after read).Next .styleEnd closing) :
    Runs (closeStyle before.cursor) (before.after read) ()
      (let children := styleChildren before.size (before.spanOf read) read
      ((before.after (read ++ closing)).grown children
        (before.size + children.length)).left.closeNode) := by
  have ends : ∀ (nodes : List Node) (size : Nat),
      Runs (do skip; popMode; modify (·.closeNode) : Parser Unit)
        ((before.after read).grown nodes size) ()
        ((before.after (read ++ closing)).grown nodes size).left.closeNode := by
    intro nodes size
    have free := State.grown_lexerFree nodes size
    apply Meets.bind_runs (skip_runs (free.next known))
    rw [free.after_eq, State.after_after]
    exact Meets.bind_runs popMode_runs (modify_runs State.closeNode_lexerFree)
  apply Meets.bind_runs here_runs
  dsimp only
  rw [State.textTo_after ahead]
  cases read with
  | nil =>
      have ended := ends [] before.size
      rw [show before.size = (before.after []).size from rfl, State.grown_nil] at ended
      exact ended
  | cons c read =>
      have kept : (!(c :: read).isEmpty) = true := rfl
      rw [if_pos kept]
      apply Meets.bind_runs (spanningFrom_runs (fun _ => rfl) ahead rfl)
      apply Meets.bind_runs (modify_runs (State.addLeaf_lexerFree _ _))
      rw [State.addLeaf_eq_grown]
      exact ends (styleChildren before.size (before.spanOf (c :: read)) (c :: read)) _

variable {post : Unit → State → Prop} {fail : Parse.Error → Prop}

/-- The tokens of a style sheet are taken one by one. -/
theorem Meets.skipStyle {next : Unit → Parser Unit}
    (run : TokenRun .style isSheetPart read tail) (modeEq : before.mode = .style)
    (restEq : before.rest = read ++ tail) (enough : read.length < bound)
    (meets : ∀ bound, Meets (Parser.skipStyle (bound + 1) >>= next) (before.after read) post fail) :
    Meets (Parser.skipStyle bound >>= next) before post fail := by
  induction run generalizing before bound with
  | stop =>
      cases bound with
      | zero => contradiction
      | succ bound =>
          apply Meets.of_settled
          intro settledEq
          rw [← State.after_nil settledEq]
          exact meets bound
  | @token kind first rest tail nonempty scanned part later ih =>
      rw [List.append_assoc] at restEq
      have known := next_of_rest modeEq restEq scanned
      have positive := List.length_pos_iff.2 nonempty
      rw [List.length_append] at enough
      cases bound with
      | zero => contradiction
      | succ bound =>
          have further :
              Meets ((do Parser.skip; Parser.skipStyle bound) >>= next) before post fail := by
            rw [bind_assoc]
            apply Meets.bind_runs (skip_runs known)
            refine ih modeEq ?_ (by omega) fun bound => ?_
            · rw [State.rest_after, restEq, List.drop_left]
            · rw [State.after_after]
              exact meets bound
          rw [Parser.skipStyle, bind_assoc, peekKind_bind]
          apply Meets.bind_runs (peek_runs known)
          cases kind with
          | styleEnd => contradiction
          | _ => exact further

/-- The content of an open style. -/
def openStyle (bound : Nat) : Parser Unit := do
  pushMode .style
  styleContent bound

/-- The state in which the content of a style is read. -/
def inStyle (start : State) (tag : Element) (place : Position) : State :=
  (start.openNode (.element tag) place).entered .style

/-- A style that is read holds the style sheet that follows its start tag. -/
theorem openStyle_meets (enough : start.rest.length < bound) :
    Meets (openStyle bound) (start.openNode (.element tag) place)
      (fun _ after => ∃ content closing rest,
        Lex.IsSheetOf start.rest content (closing ++ rest) ∧
        closing.map Char.toLower = "</style>".toList ∧
        after = behindStyle start tag place content closing)
      fun _ => True := by
  have enoughThen : (inStyle start tag place).rest.length < bound := enough
  apply Meets.bind_runs (pushMode_runs (by decide))
  apply Meets.bind_runs here_runs
  apply Meets.bind (skipStyle_meets enoughThen)
  rintro - _ ⟨content, closing, ahead, rfl, run, known, -, closes⟩
  refine (closeStyle_runs ahead known).mono ?_ fun _ impossible => impossible.elim
  rintro - _ ⟨-, rfl⟩
  obtain ⟨rest, restEq⟩ := known.ahead
  rw [Lex.equalIgnoreCase_styleEnd_iff] at closes
  refine ⟨content, closing, rest, ?_, closes,
    State.closeNode_grown_openNode _ _ (start.after (content ++ closing)) _ _⟩
  have passes := TokenRun.passesSheet run
  rw [State.append_rest_after ahead, ← restEq] at passes
  exact passes.isSheetOf ⟨closing, List.prefix_append _ _, closes⟩

/-- What the parser fails with where an element has no end. -/
def unclosedElement (tag : Element) (place : Position) : Parse.Error :=
  .grammatical (.unclosed s!"element <{tag.name}>") place

theorem failUnclosedElement_meets {id : Nat} {children : List Node} {outer : List Open}
    (enclosingEq : before.enclosing = ⟨id, .element tag, place, children⟩ :: outer) :
    Meets (failUnclosedElement : Parser Unit) before (fun _ _ => False)
      fun error => error = unclosedElement tag place := by
  apply Meets.get (fun _ => rfl)
  rw [enclosingEq]
  exact Meets.failAt rfl

/-- What becomes of a style is decided behind the tokens of its style sheet. -/
theorem openStyle_of_run (run : TokenRun .style isSheetPart read tail)
    (restEq : start.rest = read ++ tail) (enough : start.rest.length < bound)
    (meets : ∀ bound,
      Meets (do skipStyle (bound + 1); closeStyle (inStyle start tag place).cursor)
        ((inStyle start tag place).after read) post fail) :
    Meets (openStyle bound) (start.openNode (.element tag) place) post fail := by
  have within : read.length < bound := by
    rw [restEq, List.length_append] at enough
    omega
  apply Meets.bind_runs (pushMode_runs (by decide))
  apply Meets.bind_runs here_runs
  exact Meets.skipStyle run rfl restEq within meets

/-- A style sheet of well-formed tokens with an end tag is read. -/
theorem openStyle_closes (scans : ScansSheet start.rest) (hasEnd : Lex.HasStyleEnd start.rest)
    (enough : start.rest.length < bound) :
    Meets (openStyle bound) (start.openNode (.element tag) place) (fun _ _ => True)
      fun _ => False := by
  obtain ⟨-, read, tail, length, restEq, run, scanned⟩ | ⟨noEnd, -⟩ := scans.ends
  · obtain ⟨closing, behind, rfl, rfl⟩ : ∃ closing behind, tail = closing ++ behind ∧
        length = closing.length :=
      ⟨_, _, (List.take_append_drop length tail).symm,
        (List.length_take_of_le (Lex.fits_scanStyle scanned).within).symm⟩
    have ahead : read <+: (inStyle start tag place).rest := ⟨closing ++ behind, restEq.symm⟩
    have known : ((inStyle start tag place).after read).Next .styleEnd closing := by
      refine next_of_rest rfl ?_ scanned
      rw [State.rest_after, show (inStyle start tag place).rest = _ from restEq, List.drop_left]
    refine openStyle_of_run run restEq enough fun bound => ?_
    rw [skipStyle, bind_assoc, peekKind_bind]
    apply Meets.bind_runs (peek_runs known)
    apply Meets.bind_runs (Meets.pure ⟨rfl, rfl⟩)
    exact (closeStyle_runs ahead known).mono (fun _ _ _ => trivial) fun _ => id
  · contradiction

/-- A style sheet of well-formed tokens without an end tag makes the element unclosed. -/
theorem openStyle_unclosed (scans : ScansSheet start.rest) (noEnd : ¬Lex.HasStyleEnd start.rest)
    (enough : start.rest.length < bound) :
    Meets (openStyle bound) (start.openNode (.element tag) place) (fun _ _ => False)
      fun error => error = unclosedElement tag place := by
  obtain ⟨hasEnd, -⟩ | ⟨-, run⟩ := scans.ends
  · contradiction
  · refine openStyle_of_run run (List.append_nil _).symm enough fun bound => ?_
    have ended : ((inStyle start tag place).after start.rest).rest = [] := by
      rw [State.rest_after]
      exact List.drop_length
    rw [skipStyle, bind_assoc, peekKind_bind]
    apply Meets.bind_runs (peek_runs_none (by rw [ended]; rfl))
    exact Meets.bind (failUnclosedElement_meets rfl) fun _ _ => False.elim

end Contents

section Starts

/-- When a text is parsed, the parser has looked at a token of markup, has read the start tag
that begins with it, and has opened a style. -/
structure StyleStart (text : List Char) (bound : Nat) (token : Token) (looked : State)
    (tag : Element) (place : Position) (opened : State) : Prop where
  reached : ∃ before, MarkupHead text (bound + 1) before ∧
    Parser.peek before = .ok (some token) looked
  opens : token.kind = .punctuation .less
  ran : openTag bound looked = .ok (some (tag, place)) opened
  isStyle : tag.isNamed "style" = true

theorem openTag_meets (known : before.Next (.punctuation .less) ['<'])
    (enough : before.rest.length ≤ bound) :
    Meets (openTag bound) before
      (fun opened? after => ∀ tag place, opened? = some (tag, place) →
        ∃ piece, piece <+: before.rest ∧ (NodeKind.element tag).IsWritten piece ∧
          place = before.spanOf piece ∧
          after = (before.after piece).openNode (.element tag) place)
      fun _ => True := by
  apply Meets.enter known (by decide)
  rw [peekKind_bind]
  refine Meets.peek (fun kind piece inner nonempty spelled => ?_)
    (fun _ => Meets.pure fun _ _ => nofun) fun _ _ => trivial
  cases kind with
  | identifier name =>
      refine Meets.startTag known.ahead enough fun tag piece ahead written _ _ => ?_
      split
      · exact Meets.pure fun _ _ => nofun
      · apply Meets.bind_runs (modify_runs (State.openNode_lexerFree _ _))
        refine Meets.pure fun _ _ same => ?_
        obtain ⟨rfl, rfl⟩ := Prod.mk.inj (Option.some.inj same)
        exact ⟨piece, ahead, written, rfl, rfl⟩
  | _ => exact Meets.pure fun _ _ => nofun

theorem not_script_of_style (style : tag.isNamed "style" = true) :
    tag.isNamed "script" = false := by
  rw [← Bool.not_eq_true]
  intro script
  have same := (Text.equalIgnoreCase_iff.1 style).symm.trans (Text.equalIgnoreCase_iff.1 script)
  exact absurd same (by decide)

theorem not_void_of_style (style : tag.isNamed "style" = true) : isVoid tag.name = false := by
  have same := Text.equalIgnoreCase_iff.1 style
  have nameEq : ∀ other : List Char, Text.equalIgnoreCase other tag.name.toList =
      Text.equalIgnoreCase other "style".toList := by
    intro other
    rw [Bool.eq_iff_iff, Text.equalIgnoreCase_iff, Text.equalIgnoreCase_iff, same]
  simp only [isVoid, nameEq]
  decide

theorem openTag_runs {name : TagName} {items : Items} (notVoid : isVoid name.text = false)
    (facing : Facing before (startTagSource name items false) tail)
    (enough : (startTagSource name items false).length ≤ bound) :
    Runs (openTag bound) before
      (some (items.element name, before.spanOf (startTagSource name items false)))
      ((before.after (startTagSource name items false)).openNode (.element (items.element name))
        (before.spanOf (startTagSource name items false))) := by
  have isOpen : (items.element name).selfClosing = false := (addEntries_keeps _ _).2
  apply Meets.enterTag facing
  apply Meets.leaveStartTag facing enough
  rw [Bool.false_or, notVoid]
  simp only [finished, Bool.false_eq_true, if_false, isOpen]
  apply Meets.bind_runs (modify_runs (State.openNode_lexerFree _ _))
  exact Meets.pure ⟨rfl, rfl⟩

namespace StyleStart

theorem construct_eq (start : StyleStart text bound token looked tag place opened) :
    construct bound token looked = openStyle bound opened := by
  have notScript := not_script_of_style start.isStyle
  rw [construct, start.opens]
  calc Parser.tag bound looked
    _ = elementContent bound tag opened := tag_of_openTag start.ran
    _ = openStyle bound opened := by simp [elementContent, notScript, start.isStyle, openStyle]

/-- What was read up to the content of a style is its start tag. -/
theorem opened_eq (start : StyleStart text bound token looked tag place opened) :
    opened.lexer.Ready ∧ ∃ piece, piece <+: looked.rest ∧
      (NodeKind.element tag).IsWritten piece ∧ place = looked.spanOf piece ∧
      opened.settled = (looked.settled.after piece).openNode (.element tag) place ∧
      (looked.settled.after piece).rest.length < bound := by
  obtain ⟨before, head, peeked⟩ := start.reached
  obtain ⟨left, less, stands⟩ := head.stands
  obtain ⟨standsThen, faces⟩ := peek_keeps.of_ok stands peeked
  obtain ⟨length, scanned⟩ := faces.scanIn standsThen.ready
  have notMatter : looked.settled.mode ≠ .frontMatter := standsThen.ready.mode_ne
  have known : looked.settled.Next token.kind _ := State.next_of_scanIn notMatter scanned
  rw [start.opens] at known
  obtain ⟨-, spelled⟩ := known.fits notMatter
  rw [show List.take _ _ = ['<'] from spelled] at known
  have enough : looked.settled.rest.length ≤ bound :=
    standsThen.restLe.trans (Nat.le_of_lt_succ less)
  have ran := openTag_meets known enough looked standsThen.ready rfl
  rw [start.ran] at ran
  obtain ⟨ready, spec⟩ := ran
  obtain ⟨piece, ahead, written, placeEq, openedEq⟩ := spec tag place rfl
  refine ⟨ready, piece, ahead, written, placeEq, openedEq, ?_⟩
  exact Nat.lt_of_lt_of_le (State.length_rest_after_lt ahead written.nonempty) enough

/-- Where the content of a style cannot be read, the text cannot be parsed. -/
theorem parse_of_error {text : String} {error : Parse.Error} {after : State}
    (start : StyleStart text.toList bound token looked tag place opened)
    (failed : construct bound token looked = .error error after) :
    Template.parse text = .error error := by
  obtain ⟨before, head, peeked⟩ := start.reached
  have ran : template (text.toList.length + 1) (.ofText text.toList) = .error error after := by
    rw [head.template_eq, run_bind, markup, run_bind, peeked]
    simp only [run_bind, failed]
  exact Parser.parse_of_error ran

/-- Any text may follow the start tag of a style. -/
theorem of_startTag (name : TagName) (items : Items)
    (isStyle : (items.element name).isNamed "style" = true) (body : List Char) :
    ∃ token looked place opened,
      StyleStart (startTagSource name items false ++ body)
        (startTagSource name items false ++ body).length token looked (items.element name) place
        opened ∧ opened.rest = body := by
  have notVoid : isVoid name.text = false := by
    rw [← show (items.element name).name = name.text from (addEntries_keeps _ _).1]
    exact not_void_of_style isStyle
  have noMatter : Lex.opensMatter (startTagSource name items false ++ body) = false := rfl
  obtain ⟨state, matterEq, ready, settledEq⟩ := frontMatter_ok (Lex.scanFrontMatter_none noMatter)
  have facing : Facing state.settled (startTagSource name items false) body := by
    rw [settledEq]
    exact ⟨rfl, by rw [rest_behindMatter, List.drop_zero]⟩
  have known : state.settled.Next (.punctuation .less) ['<'] :=
    facing.next (by rw [List.append_assoc]; exact scanMarkup_tag name _)
  have enough := (List.prefix_append (startTagSource name items false) body).length_le
  obtain ⟨looked, peeked, readyThen, lookedEq⟩ := (peek_runs known).exists_eq ready rfl
  obtain ⟨opened, ran, -, openedEq⟩ :=
    (openTag_runs notVoid facing enough).exists_eq readyThen lookedEq
  refine ⟨_, looked, _, opened, ⟨⟨state, .first matterEq, peeked⟩, rfl, ran, isStyle⟩, ?_⟩
  change opened.settled.rest = body
  rw [openedEq]
  change (state.settled.after (startTagSource name items false)).rest = body
  exact facing.rest_after

/-- A style ends at the first end tag, in any ASCII case, that is outside of the comments and
strings of its content.

* Its start tag is read to the bracket that closes it, and its content is what follows.
* If it is read, it has one child, the text up to that end tag, and none if that is empty.
* If its tokens are well formed and there is such an end tag, it is read.
* If they are well formed and there is none, the text cannot be parsed: the error names the
  element, and its place is that of the start tag. -/
theorem ends_at_first {text : String}
    (start : StyleStart text.toList bound token looked tag place opened) :
    ∃ piece, looked.rest = piece ++ opened.rest ∧ (NodeKind.element tag).IsWritten piece ∧
      place = looked.spanOf piece ∧
      (∀ after, construct bound token looked = .ok () after →
        ∃ content closing rest, Lex.IsSheetOf opened.rest content (closing ++ rest) ∧
          closing.map Char.toLower = "</style>".toList ∧
          after.settled = behindStyle (looked.settled.after piece) tag place content closing) ∧
      (ScansSheet opened.rest → Lex.HasStyleEnd opened.rest →
        ∃ after, construct bound token looked = .ok () after) ∧
      (ScansSheet opened.rest → ¬Lex.HasStyleEnd opened.rest →
        Template.parse text = .error (unclosedElement tag place) ∧
          (unclosedElement tag place).diagnostic.code.text = "E1004" ∧
          (unclosedElement tag place).diagnostic.position = some place) := by
  obtain ⟨ready, piece, ahead, written, placeEq, openedEq, enough⟩ := start.opened_eq
  have restEq : opened.rest = (looked.settled.after piece).rest := by
    change opened.settled.rest = _
    rw [openedEq]
    rfl
  refine ⟨piece, ?_, written, placeEq, ?_, ?_, ?_⟩
  · have whole : piece ++ (looked.settled.after piece).rest = looked.settled.rest :=
      State.append_rest_after ahead
    rw [restEq, whole]
    rfl
  · intro after ran
    have meets := openStyle_meets enough opened ready openedEq
    rw [← start.construct_eq, ran, ← restEq] at meets
    exact meets.2
  · intro scans hasEnd
    rw [restEq] at scans hasEnd
    have meets := openStyle_closes scans hasEnd enough opened ready
      openedEq
    rw [← start.construct_eq] at meets
    cases ran : construct bound token looked with
    | ok result after => exact ⟨after, rfl⟩
    | error error after =>
        rw [ran] at meets
        exact meets.elim
  · intro scans noEnd
    rw [restEq] at scans noEnd
    have meets := openStyle_unclosed scans noEnd enough opened ready
      openedEq
    rw [← start.construct_eq] at meets
    cases ran : construct bound token looked with
    | ok result after =>
        rw [ran] at meets
        exact meets.2.elim
    | error error after =>
        rw [ran] at meets
        obtain rfl : error = unclosedElement tag place := meets
        exact ⟨start.parse_of_error ran, rfl, rfl⟩

end StyleStart

/-- The name of a style as it is usually spelled. -/
def styleName : TagName :=
  ⟨"style", ⟨'s', "tyle".toList, rfl, by decide, by decide⟩, by decide⟩

/-- A style has the first end tag in a comment, and another one behind that or none. -/
theorem StyleStart.ends_at_first_comment :
    (∃ token looked tag place opened,
      StyleStart "<style>/*</style>*/</STYLE>".toList 27 token looked tag place opened ∧
        ∃ piece closing after, construct 27 token looked = .ok () after ∧
          after.settled =
            behindStyle (looked.settled.after piece) tag place "/*</style>*/".toList closing) ∧
      ∃ tag place, Template.parse "<style>/*</style>*/" = .error (unclosedElement tag place) := by
  constructor
  · obtain ⟨token, looked, place, opened, start, restEq⟩ := StyleStart.of_startTag styleName
      ⟨[], [], Text.isSpaces_nil⟩ (by decide) "/*</style>*/</STYLE>".toList
    have ended : Lex.scanIn .style "</STYLE>".toList = .ok (some ⟨.styleEnd, 8⟩) := by
      rw [show "</STYLE>".toList = '<' :: "/STYLE>".toList from rfl, Lex.scanIn, Lex.scanStyle,
        if_neg (by decide), if_pos (by decide)]
      rfl
    have run : TokenRun .style isSheetPart ("/*</style>*/".toList ++ []) "</STYLE>".toList :=
      .token (by decide) rfl rfl (.stop (.of_scanned ended rfl))
    have ends : Lex.BeginsWithStyleEnd "</STYLE>".toList := ⟨_, List.prefix_refl _, by decide⟩
    have passes := run.passesSheet
    obtain ⟨piece, -, -, -, holds, closes, -⟩ := StyleStart.ends_at_first
      (show StyleStart "<style>/*</style>*/</STYLE>".toList _ _ _ _ _ _ from start)
    rw [restEq] at holds closes
    obtain ⟨after, ran⟩ := closes ⟨_, _, rfl, run⟩ ⟨_, _, passes.inSheet, ends⟩
    obtain ⟨content, closing, rest, isSheet, -, afterEq⟩ := holds after ran
    obtain ⟨contentEq, -⟩ := isSheet.unique (passes.isSheetOf ends)
    rw [contentEq] at afterEq
    exact ⟨token, looked, _, place, opened, start, piece, closing, after, ran, afterEq⟩
  · obtain ⟨token, looked, place, opened, start, restEq⟩ := StyleStart.of_startTag styleName
      ⟨[], [], Text.isSpaces_nil⟩ (by decide) "/*</style>*/".toList
    have run : TokenRun .style isSheetPart ("/*</style>*/".toList ++ []) [] :=
      .token (by decide) rfl rfl (.stop ⟨none, rfl, rfl⟩)
    obtain ⟨piece, -, -, -, -, -, unclosed⟩ := StyleStart.ends_at_first
      (show StyleStart "<style>/*</style>*/".toList _ _ _ _ _ _ from start)
    rw [restEq] at unclosed
    exact ⟨_, place, (unclosed ⟨_, _, rfl, run⟩ run.passesSheet.not_hasStyleEnd).1⟩

end Starts

end Parser

end TemplateCompiler
