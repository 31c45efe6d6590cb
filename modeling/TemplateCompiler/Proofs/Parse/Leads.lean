import TemplateCompiler.Proofs.Parse.WrittenConstructs

/-!
# From construct to construct

One state leads to another when what the parser makes of the rest of a template
is the same in both.  Every construct that is written, and every beginning or end
of one, leads from the state before it to a state behind it, so the run of the
parser on a whole template is put together from the runs on its constructs.
-/

namespace TemplateCompiler

open Parse Written

namespace Parser

variable {before middle after : State} {piece tail : List Char}

/-- Whatever markup is read as from one state, it is read as from another one
before it. -/
def Leads (before after : State) : Prop :=
  ∀ bound (post : Unit → State → Prop) (fail : Parse.Error → Prop),
    before.rest.length < bound →
      (∀ bound, after.rest.length < bound → Meets (markup bound) after post fail) →
        Meets (markup bound) before post fail

/-- Markup cannot be read from a state. -/
def Rejects (before : State) (error : Parse.Error) : Prop :=
  ∀ bound, before.rest.length < bound →
    Meets (markup bound) before (fun _ _ => False) fun found => found = error

namespace Leads

theorem refl : Leads before before := fun bound _ _ enough meets =>
  meets bound enough

theorem trans (first : Leads before middle) (second : Leads middle after) : Leads before after :=
  fun bound post fail enough meets => first bound post fail enough fun bound enough =>
    second bound post fail enough meets

theorem rejects {error : Parse.Error} (leads : Leads before after)
    (rejects : Rejects after error) : Rejects before error :=
  fun bound enough => leads bound _ _ enough rejects

theorem of_construct {kind : TokenKind} {first : List Char} (known : before.Next kind first)
    (shorter : after.rest.length < before.rest.length)
    (runs : ∀ bound, before.rest.length ≤ bound →
      Runs (construct bound ⟨kind, before.spanOf first⟩) before () after) :
    Leads before after := by
  intro bound post fail enough meets
  cases bound with
  | zero => contradiction
  | succ bound =>
      apply Meets.bind_runs (peek_runs known)
      apply Meets.bind_runs (runs bound (by omega))
      exact meets bound (by omega)

end Leads

theorem Rejects.of_construct {kind : TokenKind} {first : List Char} {error : Parse.Error}
    (known : before.Next kind first)
    (meets : ∀ bound, Meets (construct bound ⟨kind, before.spanOf first⟩) before
      (fun _ _ => False) fun found => found = error) :
    Rejects before error := by
  intro bound enough
  cases bound with
  | zero => contradiction
  | succ bound =>
      apply Meets.bind_runs (peek_runs known)
      exact Meets.bind (meets bound) fun _ _ impossible => impossible.elim

section Constructs

/-- A construct is read from its text on and changes what was built. -/
theorem Leads.of_change {change : State → State} {kind : TokenKind} {first : List Char}
    (free : State.LexerFree change) (facing : Facing before piece tail) (nonempty : piece ≠ [])
    (known : before.Next kind first)
    (runs : ∀ bound, piece.length ≤ bound →
      Runs (construct bound ⟨kind, before.spanOf first⟩) before () (change (before.after piece))) :
    Leads before (change (before.after piece)) := by
  apply Leads.of_construct known (shorter_of_change free facing.ahead nonempty)
  intro bound enough
  exact runs bound (Nat.le_trans facing.length_le enough)

theorem leads_text (text : PlainText) (facing : Facing before text.content.toList tail)
    (ends : EndsText tail) :
    Leads before ((before.after text.content.toList).addLeaf (.text text.content)
      (before.spanOf text.content.toList)) := by
  obtain ⟨c, rest, textEq⟩ := List.exists_cons_of_ne_nil text.nonempty
  have plain := text.plain c (by simp [textEq])
  obtain ⟨kind, first, others, splitEq, nonempty, textual, scanned⟩ :=
    scanMarkup_text rest ends plain
  rw [← textEq] at splitEq scanned
  have known : before.Next kind first := by
    rw [splitEq, List.append_assoc] at scanned
    refine next_of_rest facing.mode_eq ?_ scanned
    rw [facing.rest, splitEq, List.append_assoc]
  apply Leads.of_change (State.addLeaf_lexerFree _ _) facing text.nonempty known
  intro bound enough
  have runs := textRun_runs text facing ends enough
  cases kind with
  | punctuation mark => cases mark <;> first | exact runs | cases textual
  | _ => first | exact runs | cases textual

theorem scanMarkup_comment (comment : CommentText) (text : List Char) :
    Lex.scanMarkup (comment.source ++ text) =
      .ok (some ⟨.comment comment.content, comment.source.length⟩) := by
  have scanned := Lex.scanMarkup_comment comment.noEnd text
  rw [String.ofList_toList] at scanned
  simpa [CommentText.source, Lex.Scan.found] using scanned

theorem leads_comment (comment : CommentText) (facing : Facing before comment.source tail) :
    Leads before ((before.after comment.source).addLeaf (.comment comment.content)
      (before.spanOf comment.source)) := by
  have known : before.Next (.comment comment.content) comment.source :=
    next_of_rest facing.mode_eq facing.rest (scanMarkup_comment comment tail)
  apply Leads.of_change (State.addLeaf_lexerFree _ _) facing (List.cons_ne_nil _ _) known
  intro bound _
  apply Meets.bind_runs (skip_runs known)
  exact modify_runs (State.addLeaf_lexerFree _ _)

theorem leads_interpolation (value : Value)
    (facing : Facing before (interpolationSource value) tail) :
    Leads before ((before.after (interpolationSource value)).addLeaf
      (.interpolation value.expression) (before.spanOf (interpolationSource value))) := by
  have known : before.Next .interpolationStart ['{', '{'] := facing.next rfl
  apply Leads.of_change (State.addLeaf_lexerFree _ _) facing (List.cons_ne_nil _ _) known
  intro bound enough
  exact interpolation_runs value facing enough

variable {name : TagName} {items : Items} {selfClosing : Bool}

theorem next_less (facing : Facing before (startTagSource name items selfClosing) tail) :
    before.Next (.punctuation .less) ['<'] :=
  facing.next (by rw [List.append_assoc]; exact scanMarkup_tag name _)

theorem leads_emptyElement (name : ElementName)
    (facing : Facing before (startTagSource name.toTagName items selfClosing) tail)
    (closed : (selfClosing || isVoid name.text) = true) :
    Leads before ((before.after (startTagSource name.toTagName items selfClosing)).addLeaf
      (.element (finished true (items.element name.toTagName)))
      (before.spanOf (startTagSource name.toTagName items selfClosing))) := by
  apply Leads.of_change (State.addLeaf_lexerFree _ _) facing (List.cons_ne_nil _ _)
    (next_less facing)
  intro bound enough
  exact emptyElement_runs name facing closed enough

theorem leads_startTag (name : ContainerName)
    (facing : Facing before (startTagSource name.toTagName items false) tail) :
    Leads before ((before.after (startTagSource name.toTagName items false)).openNode
      (.element (items.element name.toTagName))
      (before.spanOf (startTagSource name.toTagName items false))) := by
  apply Leads.of_change (State.openNode_lexerFree _ _) facing (List.cons_ne_nil _ _)
    (next_less facing)
  intro bound enough
  exact startTag_runs name facing enough

theorem leads_shown (shown : Shown) (facing : Facing before shown.source tail) :
    Leads before ((before.after shown.source).addLeaf (.interpolation (.path shown.dotted.path))
      (before.spanOf shown.source)) := by
  have known : before.Next .interpolationStart ['{', '{'] := facing.next rfl
  apply Leads.of_change (State.addLeaf_lexerFree _ _) facing (List.cons_ne_nil _ _) known
  intro bound enough
  exact interpolation_runs_shown shown known facing.rest enough

theorem leads_header (header : Header) (facing : Facing before (header.source ++ ['{']) tail) :
    Leads before ((before.after (header.source ++ ['{'])).openLoop header.loop
      (before.spanOf (header.source ++ ['{'])) ((before.after header.source).spanOf ['{'])) := by
  have restEq : before.rest = header.source ++ (['{'] ++ tail) := by
    rw [facing.rest, List.append_assoc]
  have known : before.Next (.punctuation .at) ['@'] := next_of_rest facing.mode_eq restEq rfl
  apply Leads.of_change (State.openLoop_lexerFree _ _ _) facing (List.cons_ne_nil _ _) known
  intro bound enough
  rw [List.length_append] at enough
  exact statement_runs_header header known restEq (Nat.le_of_add_right_le enough)

theorem leads_loopStart (head : LoopHead) (facing : Facing before (head.source ++ ['{']) tail) :
    Leads before ((before.after (head.source ++ ['{'])).openLoop head.loop
      (before.spanOf (head.source ++ ['{'])) ((before.after head.source).spanOf ['{'])) := by
  rw [← head.source_header, ← head.loop_header] at *
  exact leads_header head.header facing

/-- A brace opens a block unless another one follows. -/
theorem leads_blockStart (facing : Facing before ['{'] tail) (single : '{' ∉ tail.head?) :
    Leads before ((before.after ['{']).openNode .block (before.spanOf ['{'])) := by
  have known : before.Next (.punctuation .leftBrace) ['{'] :=
    next_of_rest facing.mode_eq facing.rest (Lex.scanMarkup_leftBrace single)
  apply Leads.of_change (State.openNode_lexerFree _ _) facing (List.cons_ne_nil _ _) known
  intro bound _
  apply Meets.bind_runs (nextPosition_runs known)
  apply Meets.bind_runs (skip_runs known)
  exact modify_runs (State.openNode_lexerFree _ _)

end Constructs

section Ends

variable {name : TagName}

theorem next_less_of_endTag (facing : Facing before (endTagSource name) tail) :
    before.Next (.punctuation .less) ['<'] :=
  facing.next rfl

theorem leads_endTag {tag : Element} (facing : Facing before (endTagSource name) tail)
    (innermost : before.innermost? = some (.element tag)) (nameEq : tag.name = name.text) :
    Leads before (before.after (endTagSource name)).closeNode := by
  apply Leads.of_change State.closeNode_lexerFree facing (List.cons_ne_nil _ _)
    (next_less_of_endTag facing)
  intro bound _
  apply tag_of_endTag facing
  simp only [innermost, nameEq, if_true]
  exact Meets.modify State.closeNode_lexerFree ⟨trivial, rfl⟩

theorem rejects_endTag_mismatched {tag : Element} (facing : Facing before (endTagSource name) tail)
    (innermost : before.innermost? = some (.element tag)) (nameNe : tag.name ≠ name.text) :
    Rejects before (.grammatical (.mismatchedClose tag.name name.text)
      (before.spanOf (endTagSource name))) := by
  apply Rejects.of_construct (next_less_of_endTag facing)
  intro bound
  apply tag_of_endTag facing
  simp only [innermost, nameNe, if_false]
  exact Meets.failAt rfl

theorem rejects_endTag_unexpected (facing : Facing before (endTagSource name) tail)
    (noElement : ∀ tag, before.innermost? ≠ some (.element tag)) :
    Rejects before (.grammatical (.unexpectedClose name.text)
      (before.spanOf (endTagSource name))) := by
  apply Rejects.of_construct (next_less_of_endTag facing)
  intro bound
  apply tag_of_endTag facing
  split
  · next tag innermost => exact (noElement tag innermost).elim
  · exact Meets.failAt rfl

theorem next_rightBrace (facing : Facing before ['}'] tail) :
    before.Next (.punctuation .rightBrace) ['}'] :=
  next_of_rest facing.mode_eq facing.rest rfl

theorem leads_blockEnd (facing : Facing before ['}'] tail)
    (innermost : before.innermost? = some .block) :
    Leads before (before.after ['}']).closeBlock := by
  have known := next_rightBrace facing
  have innermostThen : (before.after ['}']).innermost? = some .block := innermost
  apply Leads.of_change State.closeBlock_lexerFree facing (List.cons_ne_nil _ _) known
  intro bound _
  apply Meets.bind_runs (nextPosition_runs known)
  apply Meets.bind_runs (skip_runs known)
  apply Meets.get (fun _ => rfl)
  simp only [innermostThen]
  apply Meets.bind_runs (modify_runs State.closeNode_lexerFree)
  apply Meets.get (fun _ => rfl)
  split
  · next header loop =>
      rw [State.closeBlock_of_loop loop]
      exact Meets.modify State.closeNode_lexerFree ⟨trivial, rfl⟩
  · next other =>
      rw [State.closeBlock_of_other other]
      exact Meets.pure ⟨trivial, rfl⟩

theorem rejects_blockEnd (facing : Facing before ['}'] tail)
    (noBlock : before.innermost? ≠ some .block) :
    Rejects before (.grammatical .unexpectedBlockClose (before.spanOf ['}'])) := by
  have known := next_rightBrace facing
  apply Rejects.of_construct known
  intro bound
  apply Meets.bind_runs (nextPosition_runs known)
  apply Meets.bind_runs (skip_runs known)
  apply Meets.get (fun _ => rfl)
  split
  · next innermost => exact (noBlock innermost).elim
  · exact Meets.failAt rfl

theorem markup_runs_nil {bound : Nat} (modes : before.modes = []) (restEq : before.rest = []) :
    Runs (markup bound) before () before := by
  have modeEq : before.mode = .markup := congrArg (·.headD .markup) modes
  cases bound with
  | zero => exact Meets.of_settled fun settledEq => Meets.pure ⟨rfl, rfl⟩
  | succ bound =>
      refine Meets.bind_runs (peek_runs_none ?_) (Meets.pure ⟨rfl, rfl⟩)
      rw [modeEq, restEq]
      rfl

end Ends

section Templates

variable {text content : String} {length : Nat} {final : State}
  (scanned : Lex.scanFrontMatter true text.toList = .ok (some ⟨.frontMatter content, length⟩))

include scanned

/-- A template whose markup leads to the end of the source is parsed as what was
built then, unless something is open. -/
theorem parse_of_leads {post : Unit → State → Prop} {fail : Parse.Error → Prop}
    (leads : Leads (behindMatter text.toList content length) final) (modes : final.modes = [])
    (restEq : final.rest = []) (meets : Meets expectNothingOpen final post fail) :
    match Template.parse text with
    | .ok template => ∃ after, post () after ∧ template = after.template
    | .error error => fail error := by
  have enough := length_rest_behindMatter_lt text.toList content length
  apply parse_of_meets scanned
  refine Meets.bind (leads _ (fun _ after => after = final) fail enough fun bound _ => ?_) ?_
  · exact Meets.of_runs (markup_runs_nil modes restEq) rfl
  · rintro _ _ rfl
    exact meets

theorem parse_eq_ok (leads : Leads (behindMatter text.toList content length) final)
    (modes : final.modes = []) (restEq : final.rest = []) (closed : final.unclosed? = none) :
    Template.parse text = .ok final.template := by
  have meets : Meets expectNothingOpen final (fun _ after => after = final) fun _ => False := by
    apply Meets.get (fun _ => rfl)
    rw [closed]
    exact Meets.pure rfl
  have parsed := parse_of_leads scanned leads modes restEq meets
  split at parsed
  · next template parseEq =>
      obtain ⟨_, rfl, rfl⟩ := parsed
      exact parseEq
  · exact parsed.elim

theorem parse_eq_unclosed {construct : Open}
    (leads : Leads (behindMatter text.toList content length) final) (modes : final.modes = [])
    (restEq : final.rest = []) (unclosed : final.unclosed? = some construct) :
    Template.parse text =
      .error (.grammatical (.unclosed (describeOpen construct.kind)) construct.position) := by
  have meets : Meets expectNothingOpen final (fun _ _ => False) fun error =>
      error = .grammatical (.unclosed (describeOpen construct.kind)) construct.position := by
    apply Meets.get (fun _ => rfl)
    rw [unclosed]
    exact Meets.failAt rfl
  have parsed := parse_of_leads scanned leads modes restEq meets
  split at parsed
  · obtain ⟨_, impossible, -⟩ := parsed
    exact impossible.elim
  · next error parseEq => rw [parseEq, parsed]

theorem parse_eq_rejected {error : Parse.Error}
    (rejects : Rejects (behindMatter text.toList content length) error) :
    Template.parse text = .error error := by
  have enough := length_rest_behindMatter_lt text.toList content length
  have meets : Meets (do markup (text.toList.length + 1); expectNothingOpen)
      (behindMatter text.toList content length) (fun _ _ => False) fun found => found = error :=
    Meets.bind (rejects _ enough) fun _ _ impossible => impossible.elim
  have parsed := parse_of_meets scanned meets
  split at parsed
  · obtain ⟨_, impossible, -⟩ := parsed
    exact impossible.elim
  · next error parseEq => rw [parseEq, parsed]

end Templates

end Parser

end TemplateCompiler
