import TemplateCompiler.Proofs.Parse.Reading
import TemplateCompiler.Proofs.Parse.Running
import TemplateCompiler.Proofs.Parse.Steps

/-!
# The parser reads in steps

Every production that changes what was built is shown to take one step or, if
it reads the content of a script or a style, a sequence of steps.  The main loop
then reads a template in steps, and a template that can be parsed is what steps
lead to from the place behind its front matter.
-/

namespace TemplateCompiler

open Parse Written

namespace Parser

variable {α : Type} {before : State}

theorem interpolation_meets (bound : Nat)
    (known : before.Next .interpolationStart ['{', '{']) :
    Meets (interpolation bound) before
      (fun _ after => ∃ value piece, piece <+: before.rest ∧
        (NodeKind.interpolation value).IsWritten piece ∧
        (NodeKind.interpolation value).SpellsPath piece ∧
        after = (before.after piece).addLeaf (.interpolation value) (before.spanOf piece))
      fun _ => True := by
  apply Meets.enter known (by decide)
  change Meets _ (((before.after ['{', '{']).entered .expression).after []) _ _
  apply Takes.further (skipWhitespace_takes bound) List.nil_prefix
  intro _ early ahead earlySpaces
  apply Takes.further (expression_takes bound) ahead
  intro value _ ahead takesPath
  apply Takes.further (skipWhitespace_takes bound) ahead
  intro _ late ahead lateSpaces
  apply Takes.further (discard_takes expect_takes) ahead
  rintro - last inner ⟨token, accepted, spelled, -⟩
  have kindEq : token.kind = .interpolationEnd := by simpa using accepted
  rw [kindEq] at spelled
  obtain rfl : last = ['}', '}'] := spelled
  have ahead := State.prefix_append_iff.2 ⟨known.ahead, inner⟩
  apply Meets.leave ahead
  refine Meets.modify (State.addLeaf_lexerFree _ _) ⟨value, _, ahead, ⟨?_, ?_⟩, ?_, rfl⟩
  · exact List.prefix_append _ _
  · exact List.suffix_append_of_suffix (List.suffix_append _ _)
  · cases value with
    | path path =>
        obtain ⟨dotted, pathEq, rfl⟩ := takesPath rfl path rfl
        refine ⟨⟨⟨early, earlySpaces⟩, dotted, ⟨late, lateSpaces⟩⟩, pathEq, ?_⟩
        simp [Shown.source]
    | _ => trivial

theorem comment_meets {content : String} {piece : List Char}
    (known : before.Next (.comment content) piece) :
    Meets (comment content (before.spanOf piece)) before
      (fun _ after =>
        after = (before.after piece).addLeaf (.comment content) (before.spanOf piece))
      fun _ => True := by
  apply Meets.bind_runs (skip_runs known)
  exact Meets.modify (State.addLeaf_lexerFree _ _) rfl

theorem State.textTo_after {piece : List Char} (ahead : piece <+: before.rest) :
    before.cursor.textTo (before.after piece).cursor = piece := by
  obtain ⟨tail, restEq⟩ := ahead
  exact Cursor.textTo_advanceBy restEq.symm

/-- A run of text is as long as it can be: no text stands behind it. -/
theorem textRun_meets {kind : TokenKind} {first : List Char} {bound : Nat}
    (known : before.Next kind first) (nonempty : first ≠ []) (textual : isTextual kind = true)
    (enough : before.rest.length ≤ bound) :
    Meets (textRun bound) before
      (fun _ after => ∃ piece, piece <+: before.rest ∧ piece ≠ [] ∧
        after = (before.after piece).addLeaf (.text (String.ofList piece)) (before.spanOf piece) ∧
        NextIsNot isTextual (before.after piece))
      fun _ => True := by
  apply Meets.bind_runs here_runs
  apply Meets.bind (skipWhile_stops_some known nonempty textual enough)
  rintro - _ ⟨piece, ahead, nonempty, rfl, refuses⟩
  apply Meets.bind_runs here_runs
  apply Meets.bind_runs (spanningFrom_runs (fun _ => rfl) ahead rfl)
  rw [State.textTo_after ahead]
  exact Meets.modify (State.addLeaf_lexerFree _ _) ⟨piece, ahead, nonempty, rfl, refuses⟩

section Separation

/-- Whether a text that was read last has come to its end. -/
def IsSeparated (state : State) : Prop :=
  ∀ node ∈ state.last?, node.kind.isText = true → NextIsNot isTextual state

theorem isSeparated_of_last? (other : ∀ node ∈ before.last?, node.kind.isText = false) :
    IsSeparated before := by
  intro node member isText
  rw [other node member] at isText
  contradiction

@[simp]
theorem last?_addLeaf (kind : NodeKind) (position : Position) :
    (before.addLeaf kind position).last? = some (.leaf before.size kind position) := by
  obtain ⟨lexer, document, enclosing, top, dropped, size⟩ := before
  cases enclosing <;> rfl

theorem last?_closeNode {kind : NodeKind} (innermost : before.innermost? = some kind) :
    ∃ node, before.closeNode.last? = some node ∧ node.kind = kind := by
  obtain ⟨lexer, document, enclosing, top, dropped, size⟩ := before
  cases enclosing with
  | nil => simp [State.innermost?] at innermost
  | cons construct outer =>
      have kindEq : construct.kind = kind := by simpa [State.innermost?] using innermost
      cases outer <;> exact ⟨construct.node, rfl, kindEq⟩

theorem last?_declare {declaration : Declaration} (atStart : before.atStart = true) :
    (before.declare declaration).last? = none := by
  have nothingOpen : before.enclosing = [] := by
    simp only [State.atStart, Bool.and_eq_true, List.isEmpty_iff] at atStart
    exact atStart.1
  simp [State.last?, State.declare, nothingOpen]

theorem isSeparated_addLeaf {kind : NodeKind} {position : Position}
    (other : kind.isText = false) : IsSeparated (before.addLeaf kind position) := by
  apply isSeparated_of_last?
  rintro node member
  rw [last?_addLeaf, Option.mem_some] at member
  exact member ▸ other

theorem isSeparated_closeNode {kind : NodeKind} (innermost : before.innermost? = some kind)
    (other : kind.isText = false) : IsSeparated before.closeNode := by
  obtain ⟨node, lastEq, kindEq⟩ := last?_closeNode innermost
  apply isSeparated_of_last?
  rintro _ member
  rw [lastEq, Option.mem_some] at member
  rw [← member, kindEq]
  exact other

theorem isSeparated_of_empty (empty : before.last? = none) : IsSeparated before := by
  apply isSeparated_of_last?
  simp [empty]

end Separation

section Content

/-- Whether none of the open elements has content in a mode of its own. -/
def IsOrdinary (frames : List (NodeKind × Position)) : Prop :=
  ∀ tag position, (.element tag, position) ∈ frames → tag.contentMode? = none

theorem contentMode?_eq_innermost? :
    before.contentMode? = before.innermost?.bind NodeKind.contentMode? :=
  rfl

theorem IsOrdinary.contentMode?_eq (ordinary : IsOrdinary before.frames) :
    before.contentMode? = none := by
  rw [contentMode?_eq_innermost?, State.innermost?_eq_frames]
  cases framesEq : before.frames with
  | nil => rfl
  | cons frame outer =>
      obtain ⟨kind, position⟩ := frame
      cases kind with
      | element tag => exact ordinary tag position (by simp [framesEq])
      | _ => rfl

/-- What a production leads to that leaves the parser between constructs. -/
structure Advances (before : State) (modes : List LexMode) (after : State) : Prop where
  steps : Steps before after
  shorter : after.rest.length < before.rest.length
  modes : after.modes = modes
  ordinary : IsOrdinary after.frames
  separated : IsSeparated after

theorem Advances.after_step {middle after : State} {modes : List LexMode}
    (step : Step before middle) (shorter : middle.rest.length < before.rest.length)
    (later : Advances middle modes after) : Advances before modes after where
  steps := .head step later.steps
  shorter := Nat.lt_trans later.shorter shorter
  modes := later.modes
  ordinary := later.ordinary
  separated := later.separated

theorem shorter_of_change {change : State → State} {piece : List Char}
    (free : State.LexerFree change) (ahead : piece <+: before.rest) (nonempty : piece ≠ []) :
    (change (before.after piece)).rest.length < before.rest.length := by
  rw [free.rest_eq]
  exact State.length_rest_after_lt ahead nonempty

theorem innermost?_of_frames {kind : NodeKind} {position : Position}
    {frames : List (NodeKind × Position)} (framesEq : before.frames = (kind, position) :: frames) :
    before.innermost? = some kind := by
  rw [State.innermost?_eq_frames, framesEq]
  rfl

theorem failUnclosedElement_fails : Fails (failUnclosedElement : Parser α) before := by
  apply Meets.get (fun _ => rfl)
  split
  · exact failAt_fails
  · exact failAt_fails

theorem contentMode?_of_frames {tag : Element} {position : Position}
    {frames : List (NodeKind × Position)}
    (framesEq : before.frames = (.element tag, position) :: frames) :
    before.contentMode? = tag.contentMode? := by
  rw [contentMode?_eq_innermost?, innermost?_of_frames framesEq]
  rfl

variable {tag : Element} {position : Position} {frames : List (NodeKind × Position)}
  {mode : LexMode} {modes : List LexMode}

theorem content_closed {piece : List Char}
    (framesEq : before.frames = (.element tag, position) :: frames)
    (ordinary : IsOrdinary frames) (contentMode : tag.contentMode? = some mode)
    (modesEq : before.modes = mode :: modes) (ahead : piece <+: before.rest)
    (nonempty : piece ≠ []) (ended : tag.IsEndedBy piece) :
    Meets (do popMode; modify (·.closeNode)) (before.after piece)
      (fun _ => Advances before modes) fun _ => True := by
  apply Meets.bind_runs popMode_runs
  have outEq : (before.after piece).outOfContent tag = (before.after piece).left := by
    simp only [State.outOfContent, contentMode]
  have innermost : before.innermost? = some (.element tag) := innermost?_of_frames framesEq
  refine Meets.modify State.closeNode_lexerFree
    ⟨.single ?_, ?_, ?_, ?_, isSeparated_closeNode innermost rfl⟩
  · rw [← outEq]
    exact .closed ahead innermost ended
  · rw [State.closeNode_lexerFree.rest_eq, State.rest_left]
    exact State.length_rest_after_lt ahead nonempty
  · rw [State.closeNode_lexerFree.modes_eq, State.modes_left, State.modes_after, modesEq]
    rfl
  · rw [State.frames_closeNode, State.frames_left, State.frames_after, framesEq]
    exact ordinary

theorem scriptContent_meets {bound : Nat}
    (framesEq : before.frames = (.element tag, position) :: frames)
    (ordinary : IsOrdinary frames) (script : tag.contentMode? = some .script)
    (modesEq : before.modes = .script :: modes) (enough : before.rest.length < bound) :
    Meets (scriptContent bound) before (fun _ => Advances before modes) fun _ => True := by
  induction bound generalizing before with
  | zero => contradiction
  | succ bound ih =>
      have further : ∀ {middle : State}, Step before middle →
          middle.rest.length < before.rest.length → middle.frames = before.frames →
          middle.modes = before.modes →
          Meets (scriptContent bound) middle (fun _ => Advances before modes) fun _ => True := by
        intro middle step shorter sameFrames sameModes
        refine (ih (sameFrames.trans framesEq) (sameModes.trans modesEq) (by omega)).mono ?_
          fun _ _ => trivial
        exact fun _ _ => Advances.after_step step shorter
      have addsCode : ∀ {kind : TokenKind} {piece : List Char}, before.Next kind piece →
          piece ≠ [] → Meets (do
            skip
            modify (·.addCode (String.ofList piece) (before.spanOf piece))
            scriptContent bound) before (fun _ => Advances before modes) fun _ => True := by
        intro kind piece known nonempty
        have free := State.addCode_lexerFree (before.spanOf piece) (String.ofList piece)
        apply Meets.bind_runs (skip_runs known)
        apply Meets.bind_runs (modify_runs free)
        refine further (.code known.ahead nonempty (innermost?_of_frames framesEq) script)
          (shorter_of_change free known.ahead nonempty) ?_ ?_
        · rw [State.frames_addCode, State.frames_after]
        · rw [free.modes_eq, State.modes_after]
      refine Meets.peek (fun kind piece known nonempty spelled => ?_)
        (fun _ => failUnclosedElement_fails.meets) fun _ _ => trivial
      cases kind with
      | scriptCode code =>
          have codeEq : String.ofList piece = code := by
            rw [show piece = code.toList from spelled, String.ofList_toList]
          exact codeEq ▸ addsCode known nonempty
      | interpolationEnd =>
          obtain rfl : piece = ['}', '}'] := spelled
          exact addsCode known nonempty
      | interpolationStart =>
          obtain rfl : piece = ['{', '{'] := spelled
          apply Meets.bind (interpolation_meets bound known)
          rintro _ _ ⟨value, piece, ahead, written, pathed, rfl⟩
          have free := State.addLeaf_lexerFree (.interpolation value) (before.spanOf piece)
          have accepted : before.Accepts (.interpolation value) := by
            rw [State.Accepts, contentMode?_of_frames framesEq, script]
            rfl
          refine further (.leaf ahead written trivial accepted trivial pathed)
            (shorter_of_change free ahead written.nonempty) ?_ ?_
          · rw [State.frames_addLeaf, State.frames_after]
          · rw [free.modes_eq, State.modes_after]
      | scriptEnd =>
          apply Meets.bind_runs (skip_runs known)
          apply content_closed framesEq ordinary script modesEq known.ahead nonempty
          rw [Element.IsEndedBy, script]
          exact spelled
      | _ => exact failUnexpected_fails.meets

/-- Whether a token of a style sheet is part of its content. -/
def isSheetPart : TokenKind → Bool
  | .styleEnd => false
  | _ => true

/-- The content of a style is read token by token up to its end tag. -/
theorem skipStyle_meets {bound : Nat} (enough : before.rest.length < bound) :
    Meets (skipStyle bound) before
      (fun _ after => ∃ piece closing, piece <+: before.rest ∧ after = before.after piece ∧
        TokenRun before.mode isSheetPart piece after.rest ∧ after.Next .styleEnd closing ∧
        closing ≠ [] ∧ Text.equalIgnoreCase "</style>".toList closing = true)
      fun _ => True := by
  induction bound generalizing before with
  | zero => contradiction
  | succ bound ih =>
      have further : ∀ {kind : TokenKind} {piece : List Char}, before.Next kind piece →
          piece ≠ [] → isSheetPart kind = true → Meets (do skip; skipStyle bound) before
            (fun _ after => ∃ piece closing, piece <+: before.rest ∧
              after = before.after piece ∧ TokenRun before.mode isSheetPart piece after.rest ∧
              after.Next .styleEnd closing ∧ closing ≠ [] ∧
              Text.equalIgnoreCase "</style>".toList closing = true)
            fun _ => True := by
        intro kind piece known nonempty part
        have shorter := State.length_rest_after_lt known.ahead nonempty
        apply Meets.bind_runs (skip_runs known)
        refine (ih (by omega)).mono ?_ fun _ _ => trivial
        rintro _ _ ⟨others, closing, ahead, rfl, run, closes⟩
        rw [State.after_after] at run closes ⊢
        have both := State.prefix_append_iff.2 ⟨known.ahead, ahead⟩
        refine ⟨piece ++ others, closing, both, rfl, .token nonempty ?_ part run, closes⟩
        rw [← List.append_assoc, State.append_rest_after both]
        exact known.scanned
      rw [skipStyle, peekKind_bind]
      refine Meets.peek (fun kind piece known nonempty spelled => ?_)
        (fun _ => failUnclosedElement_fails.meets) fun _ _ => trivial
      cases kind with
      | styleEnd =>
          apply Meets.of_settled
          intro settledEq
          exact Meets.pure ⟨[], piece, List.nil_prefix, (State.after_nil settledEq).symm,
            .stop (.of_scanned known.scanned rfl), known, nonempty, spelled⟩
      | _ => exact further known nonempty rfl

theorem styleContent_meets {bound : Nat}
    (framesEq : before.frames = (.element tag, position) :: frames)
    (ordinary : IsOrdinary frames) (style : tag.contentMode? = some .style)
    (modesEq : before.modes = .style :: modes) (empty : before.last? = none)
    (enough : before.rest.length < bound) :
    Meets (styleContent bound) before (fun _ => Advances before modes) fun _ => True := by
  have ended : ∀ {closing : List Char},
      Text.equalIgnoreCase "</style>".toList closing = true → tag.IsEndedBy closing := by
    intro closing closes
    rw [Element.IsEndedBy, style]
    exact closes
  apply Meets.of_settled
  intro settledEq
  apply Meets.bind_runs here_runs
  apply Meets.bind (skipStyle_meets enough)
  rintro - _ ⟨piece, closing, ahead, rfl, -, known, nonempty, closes⟩
  apply Meets.bind_runs here_runs
  dsimp only
  rw [State.textTo_after ahead]
  cases piece with
  | nil =>
      simp only [List.isEmpty_nil, Bool.not_true, Bool.false_eq_true, if_false]
      rw [State.after_nil settledEq] at known ⊢
      apply Meets.bind_runs (skip_runs known)
      exact content_closed framesEq ordinary style modesEq known.ahead nonempty (ended closes)
  | cons c piece =>
      simp only [List.isEmpty_cons, Bool.not_false, if_true]
      have free := State.addLeaf_lexerFree (.text (String.ofList (c :: piece)))
        (before.spanOf (c :: piece))
      have written : (NodeKind.text (String.ofList (c :: piece))).IsWritten (c :: piece) :=
        ⟨List.cons_ne_nil c piece, String.toList_ofList.symm⟩
      have accepted : before.Accepts (.text (String.ofList (c :: piece))) := by
        rw [State.Accepts, contentMode?_of_frames framesEq, style]
        exact ⟨rfl, empty⟩
      apply Meets.bind_runs (spanningFrom_runs (fun _ => rfl) ahead rfl)
      apply Meets.bind_runs (modify_runs free)
      apply Meets.bind_runs (skip_runs (free.next known))
      have framesThen := (State.frames_addLeaf (.text (String.ofList (c :: piece)))
        (before.spanOf (c :: piece)) (before.after (c :: piece))).trans framesEq
      have modesThen := (free.modes_eq (before.after (c :: piece))).trans modesEq
      have closed := content_closed framesThen ordinary style modesThen (free.next known).ahead
        nonempty (ended closes)
      exact closed.mono (fun _ _ => Advances.after_step
        (.leaf ahead written trivial accepted trivial trivial)
        (shorter_of_change free ahead written.nonempty)) fun _ _ => trivial

end Content

section Tags

/-- The state behind the bracket that opens a tag. -/
def inTag (before : State) : State :=
  (before.after ['<']).entered .tag

variable {bound : Nat}

theorem tag_ahead {piece : List Char} (ahead : ['<'] <+: before.rest)
    (inner : piece <+: (inTag before).rest) : ['<'] ++ piece <+: before.rest :=
  State.prefix_append_iff.2 ⟨ahead, inner⟩

/-- A start tag is read to its end, and the tag for it is left. -/
theorem Meets.startTag {next : Element → Position → Parser α} {post : α → State → Prop}
    (ahead : ['<'] <+: before.rest) (enough : before.rest.length ≤ bound)
    (meets : ∀ tag piece, piece <+: before.rest → (NodeKind.element tag).IsWritten piece →
      (isVoid tag.name = true → tag.selfClosing = true) → tag.IsNamed →
      Meets (next tag (before.spanOf piece)) (before.after piece) post fun _ => True) :
    Meets (do
      let tag ← Parser.startTag bound
      Parser.popMode
      let position ← spanningFrom (before.spanOf ['<'])
      next tag position) (inTag before) post fun _ => True := by
  have shorterTag := State.length_rest_after_lt ahead (List.cons_ne_nil _ _)
  refine Meets.bind (startTag_takes rfl (Nat.lt_of_lt_of_le shorterTag enough)) ?_
  rintro tag _ ⟨piece, inner, ⟨⟨items, rfl, closed⟩, voidCloses, named⟩, rfl⟩
  have pieceAhead := tag_ahead ahead inner
  have written : (NodeKind.element tag).IsWritten (['<'] ++ (tag.name.toList ++ items)) :=
    ⟨List.prefix_append _ _, List.suffix_append_of_suffix (List.suffix_append_of_suffix closed)⟩
  exact Meets.leave pieceAhead (meets tag _ pieceAhead written voidCloses named)

theorem element_meets (ordinary : IsOrdinary before.frames) (ahead : ['<'] <+: before.rest)
    (enough : before.rest.length ≤ bound) :
    Meets (element bound (before.spanOf ['<'])) (inTag before)
      (fun _ => Advances before before.modes) fun _ => True := by
  refine Meets.startTag ahead enough fun tag piece pieceAhead written voidCloses named => ?_
  have freeOpen := State.openNode_lexerFree (.element tag) (before.spanOf piece)
  have shorter := shorter_of_change freeOpen pieceAhead written.nonempty
  cases selfClosing : tag.selfClosing with
  | true =>
      have freeLeaf := State.addLeaf_lexerFree (.element tag) (before.spanOf piece)
      have accepted : before.Accepts (.element tag) := by
        rw [State.Accepts, ordinary.contentMode?_eq]
        exact nofun
      refine Meets.modify freeLeaf
        ⟨.single (.leaf pieceAhead written selfClosing accepted named trivial),
          shorter_of_change freeLeaf pieceAhead written.nonempty, freeLeaf.modes_eq _, ?_,
          isSeparated_addLeaf rfl⟩
      rw [State.frames_addLeaf]
      exact ordinary
  | false =>
      have notVoid : isVoid tag.name = false := by
        rw [← Bool.not_eq_true]
        intro isVoid
        rw [voidCloses isVoid] at selfClosing
        contradiction
      have opened := Step.opened pieceAhead written selfClosing notVoid
        ordinary.contentMode?_eq named
      apply Meets.bind_runs (modify_runs freeOpen)
      cases script : tag.isNamed "script" with
      | true =>
          have contentMode : tag.contentMode? = some .script := by
            simp [Element.contentMode?, script]
          simp only [State.intoContent, contentMode] at opened
          apply Meets.bind_runs (pushMode_runs (by decide))
          refine (scriptContent_meets rfl ordinary contentMode rfl ?_).mono ?_ fun _ _ => trivial
          · exact Nat.lt_of_lt_of_le shorter enough
          · exact fun _ _ => Advances.after_step opened shorter
      | false =>
          cases style : tag.isNamed "style" with
          | true =>
              have contentMode : tag.contentMode? = some .style := by
                simp [Element.contentMode?, script, style]
              simp only [State.intoContent, contentMode] at opened
              apply Meets.bind_runs (pushMode_runs (by decide))
              refine (styleContent_meets rfl ordinary contentMode rfl rfl ?_).mono ?_
                fun _ _ => trivial
              · exact Nat.lt_of_lt_of_le shorter enough
              · exact fun _ _ => Advances.after_step opened shorter
          | false =>
              have contentMode : tag.contentMode? = none := by
                simp [Element.contentMode?, script, style]
              simp only [State.intoContent, contentMode] at opened
              refine Meets.pure ⟨.single opened, shorter, rfl, ?_, isSeparated_of_empty rfl⟩
              intro other position member
              rcases List.mem_cons.1 member with same | outer
              · obtain rfl : other = tag := by simpa using congrArg Prod.fst same
                exact contentMode
              · exact ordinary other position outer

theorem frames_of_innermost? {kind : NodeKind} (innermost : before.innermost? = some kind) :
    ∃ position frames, before.frames = (kind, position) :: frames := by
  rw [State.innermost?_eq_frames] at innermost
  cases framesEq : before.frames with
  | nil => simp [framesEq] at innermost
  | cons frame frames =>
      obtain rfl : frame.1 = kind := by simpa [framesEq] using innermost
      exact ⟨frame.2, frames, rfl⟩

theorem elementEnd_meets (ordinary : IsOrdinary before.frames) (ahead : ['<'] <+: before.rest)
    (known : (inTag before).Next (.punctuation .slash) ['/']) :
    Meets (elementEnd bound (before.spanOf ['<'])) (inTag before)
      (fun _ => Advances before before.modes) fun _ => True := by
  apply Meets.bind (endTag_takes known)
  rintro name _ ⟨piece, inner, ⟨early, late, earlySpaces, lateSpaces, pieceEq⟩, rfl⟩
  have pieceAhead := tag_ahead ahead inner
  apply Meets.leave pieceAhead
  apply Meets.get (fun _ => rfl)
  split
  · next tag innermost =>
      split
      · next nameEq =>
          obtain ⟨position, frames, framesEq⟩ :=
            frames_of_innermost? (show before.innermost? = _ from innermost)
          rw [framesEq] at ordinary
          have contentMode := ordinary tag position List.mem_cons_self
          have ended : tag.IsEndedBy (['<'] ++ piece) := by
            rw [Element.IsEndedBy, contentMode]
            exact ⟨early, late, earlySpaces, lateSpaces, by rw [pieceEq, nameEq]; rfl⟩
          have closed := Step.closed pieceAhead innermost ended
          simp only [State.outOfContent, contentMode] at closed
          have free := State.closeNode_lexerFree
          refine Meets.modify free ⟨.single closed,
            shorter_of_change free pieceAhead (List.cons_ne_nil _ _), free.modes_eq _, ?_,
            isSeparated_closeNode innermost rfl⟩
          rw [State.frames_closeNode, State.frames_after, framesEq]
          exact fun other place member => ordinary other place (List.mem_cons_of_mem _ member)
      · exact failAt_fails.meets
  · exact failAt_fails.meets

theorem declaration_meets (ordinary : IsOrdinary before.frames) (ahead : ['<'] <+: before.rest)
    (enough : before.rest.length ≤ bound)
    (known : (inTag before).Next (.punctuation .bang) ['!']) :
    Meets (declaration bound (before.spanOf ['<'])) (inTag before)
      (fun _ => Advances before before.modes) fun _ => True := by
  apply Meets.get (fun _ => rfl)
  cases atStart : (inTag before).atStart with
  | false => exact failAt_fails.bind
  | true =>
      simp only [Bool.not_true, Bool.false_eq_true, if_false]
      apply Meets.bind_runs (skip_runs known)
      apply Takes.further expectIdentifier_takes known.ahead
      rintro ⟨name, place⟩ _ nameAhead rfl
      have shorter := State.length_rest_after_lt known.ahead (List.cons_ne_nil _ _)
      have shorterTag := State.length_rest_after_lt ahead (List.cons_ne_nil _ _)
      have shorterName := (inTag before).length_rest_after_le (['!'] ++ name.toList)
      refine Takes.further (declarationParameters_takes ?_) nameAhead ?_
      · exact Nat.lt_of_le_of_lt shorterName (Nat.lt_of_lt_of_le shorterTag enough)
      rintro parameters piece inner closed
      have pieceAhead := tag_ahead ahead inner
      apply Meets.leave pieceAhead
      have written : Declaration.IsWritten (['<'] ++ (['!'] ++ name.toList ++ piece))
          ⟨name, parameters, before.spanOf (['<'] ++ (['!'] ++ name.toList ++ piece))⟩ :=
        ⟨List.prefix_append (['<', '!'] ++ name.toList) piece,
          List.suffix_append_of_suffix (List.suffix_append_of_suffix closed)⟩
      have free := State.declare_lexerFree
        ⟨name, parameters, before.spanOf (['<'] ++ (['!'] ++ name.toList ++ piece))⟩
      exact Meets.modify free ⟨.single (.declared pieceAhead written atStart rfl),
        shorter_of_change free pieceAhead (List.cons_ne_nil _ _), rfl, ordinary,
        isSeparated_of_empty (last?_declare atStart)⟩

theorem tag_meets (ordinary : IsOrdinary before.frames)
    (known : before.Next (.punctuation .less) ['<']) (enough : before.rest.length ≤ bound) :
    Meets (tag bound) before (fun _ => Advances before before.modes) fun _ => True := by
  apply Meets.enter known (by decide)
  change Meets _ (inTag before) _ _
  rw [peekKind_bind]
  refine Meets.peek (fun kind piece inner nonempty spelled => ?_)
    (fun _ => failExpected_fails.meets) fun _ _ => trivial
  cases kind with
  | identifier name => exact element_meets ordinary known.ahead enough
  | punctuation mark =>
      cases mark with
      | slash =>
          obtain rfl : piece = ['/'] := spelled
          exact elementEnd_meets ordinary known.ahead inner
      | bang =>
          obtain rfl : piece = ['!'] := spelled
          exact declaration_meets ordinary known.ahead enough inner
      | _ => exact failExpected_fails.meets
  | _ => exact failExpected_fails.meets

end Tags

section Blocks

variable {bound : Nat}

theorem IsOrdinary.cons {frames : List (NodeKind × Position)} {kind : NodeKind}
    {position : Position} (ordinary : IsOrdinary frames) (other : ∀ tag, kind ≠ .element tag) :
    IsOrdinary ((kind, position) :: frames) := by
  intro tag place member
  rcases List.mem_cons.1 member with same | outer
  · exact (other tag (congrArg Prod.fst same).symm).elim
  · exact ordinary tag place outer

theorem IsOrdinary.tail {frames : List (NodeKind × Position)} (ordinary : IsOrdinary frames) :
    IsOrdinary frames.tail :=
  fun tag place member => ordinary tag place (List.mem_of_mem_tail member)

theorem statement_meets (ordinary : IsOrdinary before.frames)
    (known : before.Next (.punctuation .at) ['@']) :
    Meets (statement bound) before (fun _ => Advances before before.modes) fun _ => True := by
  apply Meets.enter known (by decide)
  change Meets _ (((before.after ['@']).entered .expression).after []) _ _
  apply Takes.further (skipWhitespace_takes bound) List.nil_prefix
  intro _ behindAt ahead spaces
  apply Takes.further expectIdentifier_takes ahead
  rintro ⟨keyword, place⟩ _ ahead keywordSpelled
  by_cases keywordEq : keyword = "for"
  · simp only [ne_eq, keywordEq, not_true_eq_false, if_false]
    apply Takes.further (loopHeader_takes bound) ahead
    rintro header rest ahead ⟨indexed, takesHeader⟩
    have pathed : (NodeKind.loop header).SpellsPath
        (['@'] ++ ([] ++ behindAt ++ keyword.toList ++ rest) ++ ['{']) := by
      obtain ⟨written, rfl, rfl⟩ := takesHeader rfl
      refine ⟨{ written with behindAt := ⟨behindAt, spaces⟩ }, rfl, ?_⟩
      rw [keywordEq, Header.source]
      simp [Header.rest]
    rw [← keywordSpelled] at pathed
    generalize [] ++ _ ++ _ ++ _ = inside at ahead pathed ⊢
    apply Takes.further expectMark_takes ahead
    rintro ⟨kind, bracePosition⟩ _ inner ⟨rfl, positionEq⟩
    have pieceAhead := State.prefix_append_iff.2 ⟨known.ahead, inner⟩
    apply Meets.leave pieceAhead
    rw [← List.append_assoc] at pieceAhead ⊢
    apply Meets.bind_runs (modify_runs (State.openNode_lexerFree _ _))
    have braceEq : bracePosition = (before.after (['@'] ++ inside)).spanOf ['{'] := by
      rw [← State.after_after]
      exact positionEq
    subst braceEq
    refine Meets.modify (State.openNode_lexerFree _ _)
      ⟨.single (.loop pieceAhead (List.prefix_append _ _) ordinary.contentMode?_eq indexed pathed),
        ?_, rfl, ?_, isSeparated_of_empty rfl⟩
    · exact State.length_rest_after_lt pieceAhead (List.cons_ne_nil _ _)
    · exact (ordinary.cons (by simp)).cons (by simp)
  · simp only [ne_eq, keywordEq, not_false_eq_true, if_true]
    exact failAt_fails.bind

theorem blockStart_meets (ordinary : IsOrdinary before.frames)
    (known : before.Next (.punctuation .leftBrace) ['{']) :
    Meets blockStart before (fun _ => Advances before before.modes) fun _ => True := by
  apply Meets.bind_runs (nextPosition_runs known)
  apply Meets.bind_runs (skip_runs known)
  refine Meets.modify (State.openNode_lexerFree _ _)
    ⟨.single (.block known.ahead ordinary.contentMode?_eq), ?_, rfl, ?_, isSeparated_of_empty rfl⟩
  · exact State.length_rest_after_lt known.ahead (List.cons_ne_nil _ _)
  · exact ordinary.cons fun _ => nofun

theorem blockEnd_meets (ordinary : IsOrdinary before.frames)
    (known : before.Next (.punctuation .rightBrace) ['}']) :
    Meets blockEnd before (fun _ => Advances before before.modes) fun _ => True := by
  apply Meets.bind_runs (nextPosition_runs known)
  apply Meets.bind_runs (skip_runs known)
  apply Meets.get (fun _ => rfl)
  have free := State.closeNode_lexerFree
  have shorter := shorter_of_change free known.ahead (List.cons_ne_nil _ _)
  have ordinaryThen : IsOrdinary (before.after ['}']).closeNode.frames := by
    rw [State.frames_closeNode]
    exact ordinary.tail
  split
  · next innermost =>
      have step := Step.blockClosed known.ahead innermost
      apply Meets.bind_runs (modify_runs free)
      apply Meets.get (fun _ => rfl)
      split
      · next header loopInnermost =>
          rw [State.closeBlock_of_loop loopInnermost] at step
          refine Meets.modify free
            ⟨.single step, ?_, ?_, ?_, isSeparated_closeNode loopInnermost rfl⟩
          · rw [free.rest_eq]
            exact shorter
          · rw [free.modes_eq, free.modes_eq]
            rfl
          · rw [State.frames_closeNode]
            exact ordinaryThen.tail
      · next other =>
          rw [State.closeBlock_of_other other] at step
          exact Meets.pure ⟨.single step, shorter, free.modes_eq _, ordinaryThen,
            isSeparated_closeNode innermost rfl⟩
  · exact failAt_fails.meets

end Blocks

section Markup

variable {bound : Nat}

theorem construct_meets {kind : TokenKind} {piece : List Char}
    (ordinary : IsOrdinary before.frames) (separated : IsSeparated before)
    (known : before.Next kind piece) (nonempty : piece ≠ []) (spelled : kind.IsSpelled piece)
    (enough : before.rest.length ≤ bound) :
    Meets (construct bound ⟨kind, before.spanOf piece⟩) before
      (fun _ => Advances before before.modes) fun _ => True := by
  have leafAdvances : ∀ {leaf : NodeKind} {piece : List Char}, piece <+: before.rest →
      leaf.IsWritten piece → leaf.IsChildless → before.Accepts leaf → leaf.IsNamed →
      leaf.SpellsPath piece →
      IsSeparated ((before.after piece).addLeaf leaf (before.spanOf piece)) →
      Advances before before.modes ((before.after piece).addLeaf leaf (before.spanOf piece)) := by
    intro leaf piece ahead written childless accepted named pathed separatedThen
    have free := State.addLeaf_lexerFree leaf (before.spanOf piece)
    refine ⟨.single (.leaf ahead written childless accepted named pathed),
      shorter_of_change free ahead written.nonempty, free.modes_eq _, ?_, separatedThen⟩
    rw [State.frames_addLeaf]
    exact ordinary
  have accepts : ∀ {leaf : NodeKind},
      (leaf.isText = true → ∀ node ∈ before.last?, node.kind.isText = false) →
        before.Accepts leaf := by
    intro leaf behind
    rw [State.Accepts, ordinary.contentMode?_eq]
    exact behind
  have text : isTextual kind = true → Meets (textRun bound) before
      (fun _ => Advances before before.modes) fun _ => True := by
    intro textual
    refine (textRun_meets known nonempty textual enough).mono ?_ fun _ _ => trivial
    rintro _ _ ⟨run, ahead, someRun, rfl, refuses⟩
    -- A text before this one had come to its end, where the next token was no text.
    have behind : ∀ node ∈ before.last?, node.kind.isText = false := by
      intro node member
      rw [← Bool.not_eq_true]
      intro isText
      exact absurd textual (by simp [separated node member isText _ known.scanned])
    have free := State.addLeaf_lexerFree (.text (String.ofList run)) (before.spanOf run)
    have written : (NodeKind.text (String.ofList run)).IsWritten run :=
      ⟨someRun, String.toList_ofList.symm⟩
    apply leafAdvances ahead written trivial (accepts fun _ => behind) trivial trivial
    intro _ _ _ lexeme scanned
    rw [free.rest_eq, State.mode, free.lexer_eq] at scanned
    exact refuses lexeme scanned
  cases kind with
  | whitespace content | text content | entity content => exact text rfl
  | comment content =>
      refine (comment_meets known).mono ?_ fun _ _ => trivial
      rintro _ _ rfl
      exact leafAdvances known.ahead spelled trivial (accepts nofun) trivial trivial
        (isSeparated_addLeaf rfl)
  | interpolationStart =>
      obtain rfl : piece = ['{', '{'] := spelled
      refine (interpolation_meets bound known).mono ?_ fun _ _ => trivial
      rintro _ _ ⟨value, whole, ahead, written, pathed, rfl⟩
      exact leafAdvances ahead written trivial (accepts nofun) trivial pathed
        (isSeparated_addLeaf rfl)
  | punctuation mark =>
      cases mark with
      | greater => exact text rfl
      | less =>
          obtain rfl : piece = ['<'] := spelled
          exact tag_meets ordinary known enough
      | «at» =>
          obtain rfl : piece = ['@'] := spelled
          exact statement_meets ordinary known
      | leftBrace =>
          obtain rfl : piece = ['{'] := spelled
          exact blockStart_meets ordinary known
      | rightBrace =>
          obtain rfl : piece = ['}'] := spelled
          exact blockEnd_meets ordinary known
      | _ => exact failUnexpected_fails.meets
  | _ => exact failUnexpected_fails.meets

/-- Markup is read until nothing is left. -/
theorem markup_meets (ordinary : IsOrdinary before.frames) (separated : IsSeparated before)
    (modesEq : before.modes = []) (enough : before.rest.length < bound) :
    Meets (markup bound) before (fun _ after => Steps before after ∧ after.rest = [])
      fun _ => True := by
  induction bound generalizing before with
  | zero => contradiction
  | succ bound ih =>
      have modeEq : before.mode = .markup := congrArg (·.headD .markup) modesEq
      refine Meets.peek (fun kind piece known nonempty spelled => ?_) (fun ended => ?_)
        fun _ _ => trivial
      · apply Meets.bind (construct_meets ordinary separated known nonempty spelled (by omega))
        intro _ middle advances
        refine (ih advances.ordinary advances.separated (advances.modes.trans modesEq) ?_).mono ?_
          fun _ _ => trivial
        · have := advances.shorter
          omega
        · exact fun _ _ later => ⟨advances.steps.trans later.1, later.2⟩
      · rw [modeEq] at ended
        exact Meets.pure ⟨.refl, Lex.eq_nil_of_scanMarkup ended⟩

end Markup

section Templates

/-- The state behind the front matter of a text. -/
def behindMatter (text : List Char) (content : String) (length : Nat) : State :=
  ⟨.resting [] ((Cursor.ofText text).advanceBy length), ⟨content, []⟩, [], [], [], 1⟩

theorem rest_behindMatter (text : List Char) (content : String) (length : Nat) :
    (behindMatter text content length).rest = text.drop length :=
  Cursor.advanceBy_rest _ _

theorem length_rest_behindMatter_lt (text : List Char) (content : String) (length : Nat) :
    (behindMatter text content length).rest.length < text.length + 1 := by
  rw [rest_behindMatter, List.length_drop]
  omega

theorem isOrdinary_behindMatter (text : List Char) (content : String) (length : Nat) :
    IsOrdinary (behindMatter text content length).frames :=
  fun _ _ impossible => by cases impossible

theorem frontMatter_ok {text : List Char} {content : String} {length : Nat}
    (scanned : Lex.scanFrontMatter true text = .ok (some ⟨.frontMatter content, length⟩)) :
    ∃ after, frontMatter (.ofText text) = .ok () after ∧ after.lexer.Ready ∧
      after.settled = behindMatter text content length := by
  have took := Lexer.next_beforeMatter scanned
  have stopEq : ∃ position, Lexer.scannedOf (.ofText text) ⟨.frontMatter content, length⟩ =
      ⟨⟨.frontMatter content, position⟩, (Cursor.ofText text).advanceBy length⟩ := ⟨_, rfl⟩
  obtain ⟨position, scannedEq⟩ := stopEq
  rw [scannedEq] at took
  simp only [frontMatter, pushMode, popMode, lexing, run_bind, run_modify]
  rw [show (State.ofText text).lexer.pushMode .frontMatter = Lexer.beforeMatter text from rfl, took]
  exact ⟨_, rfl, ⟨List.not_mem_nil, rfl⟩, rfl⟩

theorem frontMatter_error {text : List Char} {fault : Lex.Fault}
    (scanned : Lex.scanFrontMatter true text = .error fault) :
    ∃ error after, frontMatter (.ofText text) = .error error after := by
  obtain ⟨after, failed⟩ := Lexer.next_beforeMatter_error scanned
  simp only [frontMatter, pushMode, popMode, lexing, run_bind, run_modify]
  rw [show (State.ofText text).lexer.pushMode .frontMatter = Lexer.beforeMatter text from rfl,
    failed]
  exact ⟨_, _, rfl⟩

/-- Parsing a text is running the parser from behind its front matter. -/
theorem parse_of_meets {text content : String} {length : Nat} {post : Unit → State → Prop}
    {fail : Parse.Error → Prop}
    (scanned : Lex.scanFrontMatter true text.toList = .ok (some ⟨.frontMatter content, length⟩))
    (meets : Meets (do markup (text.toList.length + 1); expectNothingOpen)
      (behindMatter text.toList content length) post fail) :
    match Template.parse text with
    | .ok template => ∃ after, post () after ∧ template = after.template
    | .error error => fail error := by
  obtain ⟨start, frontMatterEq, ready, settledEq⟩ := frontMatter_ok scanned
  have ran := meets start ready settledEq
  generalize boundEq : text.toList.length + 1 = bound at ran
  have templateEq : Parser.template bound (.ofText text.toList) =
      (do markup bound; expectNothingOpen : Parser Unit) start := by
    rw [Parser.template, run_bind, frontMatterEq]
  unfold Template.parse
  simp only [boundEq, templateEq]
  cases ended : (do markup bound; expectNothingOpen : Parser Unit) start with
  | ok result after =>
      rw [ended] at ran
      exact ⟨after.settled, ran.2, rfl⟩
  | error error after =>
      rw [ended] at ran
      exact ran

theorem unclosed?_isSome {state : State} (someOpen : state.enclosing ≠ []) :
    state.unclosed?.isSome = true := by
  unfold State.unclosed?
  split
  · split <;> rfl
  · rfl
  · contradiction

theorem expectNothingOpen_meets :
    Meets expectNothingOpen before (fun _ after => after = before ∧ before.enclosing = [])
      fun _ => True := by
  apply Meets.get (fun _ => rfl)
  split
  · exact failAt_fails.meets
  · next nothingOpen =>
      refine Meets.pure ⟨rfl, by_contra fun someOpen => ?_⟩
      have := unclosed?_isSome someOpen
      simp [nothingOpen] at this

/-- Every template that can be parsed was read in steps. -/
theorem parse_steps {text : String} {template : Template}
    (parsed : Template.parse text = .ok template) :
    ∃ content length after,
      Lex.scanFrontMatter true text.toList = .ok (some ⟨.frontMatter content, length⟩) ∧
        Steps (behindMatter text.toList content length) after ∧ after.rest = [] ∧
        after.enclosing = [] ∧ template = after.template := by
  cases scanned : Lex.scanFrontMatter true text.toList with
  | error fault =>
      obtain ⟨error, after, failed⟩ := frontMatter_error scanned
      unfold Template.parse at parsed
      have templateFailed : Parser.template (text.toList.length + 1) (.ofText text.toList) =
          .error error after := by
        rw [Parser.template, run_bind, failed]
      simp [templateFailed] at parsed
  | ok lexeme? =>
      obtain ⟨content, length, rfl⟩ := Lex.exists_of_scanFrontMatter scanned
      have enough := length_rest_behindMatter_lt text.toList content length
      have ordinary := isOrdinary_behindMatter text.toList content length
      have meets : Meets (do markup (text.toList.length + 1); expectNothingOpen)
          (behindMatter text.toList content length)
          (fun _ after => Steps (behindMatter text.toList content length) after ∧
            after.rest = [] ∧ after.enclosing = [])
          fun _ => True := by
        apply Meets.bind (markup_meets ordinary (isSeparated_of_empty rfl) rfl enough)
        rintro _ middle ⟨steps, restEq⟩
        refine expectNothingOpen_meets.mono ?_ fun _ _ => trivial
        rintro _ _ ⟨rfl, closed⟩
        exact ⟨steps, restEq, closed⟩
      have ran := parse_of_meets scanned meets
      rw [parsed] at ran
      obtain ⟨after, ⟨steps, restEq, closed⟩, templateEq⟩ := ran
      exact ⟨content, length, after, rfl, steps, restEq, closed, templateEq⟩

end Templates

end Parser

theorem Template.exists_of_parse {text : String} {holds : Template → Bool}
    (found : (Template.parse text).toOption.any holds = true) :
    ∃ template, Template.parse text = .ok template ∧ holds template = true := by
  cases parsed : Template.parse text with
  | ok template =>
      rw [parsed] at found
      exact ⟨template, rfl, found⟩
  | error error =>
      rw [parsed] at found
      cases found

end TemplateCompiler
