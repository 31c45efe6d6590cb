import TemplateCompiler.Proofs.Parse.Soundness
import TemplateCompiler.Proofs.Parse.WrittenExpressions
import TemplateCompiler.Proofs.Parse.WrittenTags

/-!
# How constructs are read

What the productions of markup do when the parser stands before a construct that
was written: the characters are taken, and the state changes in one way that is
known.  An end tag and a closing brace are stated together with the decision
that follows them, since they need not fit what is open.
-/

namespace TemplateCompiler

open Parse Written

namespace Parser

/-- The parser stands between constructs, before a piece of text that another
text follows. -/
structure Facing (before : State) (piece tail : List Char) : Prop where
  modes : before.modes = []
  rest : before.rest = piece ++ tail

variable {before : State} {piece tail : List Char} {bound : Nat}

namespace Facing

theorem mode_eq (facing : Facing before piece tail) : before.mode = .markup :=
  congrArg (·.headD .markup) facing.modes

theorem ahead (facing : Facing before piece tail) : piece <+: before.rest :=
  ⟨tail, facing.rest.symm⟩

theorem length_le (facing : Facing before piece tail) : piece.length ≤ before.rest.length :=
  facing.ahead.length_le

theorem rest_after (facing : Facing before piece tail) : (before.after piece).rest = tail := by
  rw [State.rest_after, facing.rest, List.drop_left]

theorem after {first second : List Char} (facing : Facing before (first ++ second) tail) :
    Facing (before.after first) second tail where
  modes := facing.modes
  rest := by rw [State.rest_after, facing.rest, List.append_assoc, List.drop_left]

theorem change {change : State → State} (free : State.LexerFree change)
    (facing : Facing before piece tail) : Facing (change before) piece tail where
  modes := by rw [free.modes_eq, facing.modes]
  rest := by rw [free.rest_eq, facing.rest]

/-- What was divided in two in one way may be divided in another. -/
theorem regroup {other behind : List Char} (facing : Facing before piece tail)
    (same : piece ++ tail = other ++ behind) : Facing before other behind :=
  ⟨facing.modes, by rw [facing.rest, same]⟩

theorem next {kind : TokenKind} {first second : List Char}
    (facing : Facing before (first ++ second) tail)
    (scanned : Lex.scanMarkup (first ++ (second ++ tail)) =
      .ok (some ⟨kind, first.length⟩)) : before.Next kind first :=
  next_of_rest facing.mode_eq (facing.rest.trans (List.append_assoc _ _ _)) scanned

end Facing

section Interpolations

theorem interpolation_runs (value : Value)
    (facing : Facing before (interpolationSource value) tail)
    (enough : (interpolationSource value).length ≤ bound) :
    Runs (interpolation bound) before ()
      ((before.after (interpolationSource value)).addLeaf (.interpolation value.expression)
        (before.spanOf (interpolationSource value))) := by
  have known : before.Next .interpolationStart ['{', '{'] := facing.next rfl
  have ends : EndsPath ([' '] ++ (['}', '}'] ++ tail)) := endsPath_blank (by rintro _ ⟨⟩; rfl)
  obtain ⟨lexeme, scanned, solid⟩ := scanIn_value value ends
  simp only [interpolationSource, List.length_append, List.length_singleton] at enough
  apply interpolation_runs_of known _ isSpaces_blank isSpaces_blank scanned solid
    (by simp only [List.length_singleton]; omega) (by simp only [List.length_singleton]; omega)
    (expression_yields value ends (by omega))
  simpa only [interpolationSource, List.append_assoc] using facing.rest

end Interpolations

section Tags

theorem rest_inTag (facing : Facing before (['<'] ++ piece) tail) :
    (inTag before).rest = piece ++ tail :=
  facing.after.rest

theorem scanMarkup_tag (name : TagName) (text : List Char) :
    Lex.scanMarkup (['<'] ++ (name.text.toList ++ text)) =
      .ok (some ⟨.punctuation .less, 1⟩) := by
  obtain ⟨c, rest, nameEq, start, -⟩ := name.isName
  have notBang : c ≠ '!' := by
    rintro rfl
    exact absurd start (by decide)
  rw [nameEq]
  exact Lex.scanMarkup_less notBang

theorem stops_itemsSource (items : Items) (selfClosing : Bool) :
    Lex.Stops CharClass.isNamePart (items.source ++ (closing selfClosing ++ tail)) := by
  have stops := stops_leadOf items.trailing selfClosing items.entries tail
  rwa [← List.append_assoc, leadOf_append_behindLead, ← List.append_assoc, List.append_assoc]
    at stops

variable {name : TagName} {items : Items} {selfClosing : Bool} {α : Type}

/-- A tag is entered, and a name follows its bracket. -/
theorem Meets.enterTag {next : Position → Option TokenKind → Parser α} {post : α → State → Prop}
    {fail : Parse.Error → Prop}
    (facing : Facing before (startTagSource name items selfClosing) tail)
    (meets : Meets (next (before.spanOf ['<']) (some (.identifier name.text))) (inTag before) post
      fail) :
    Meets (do
      let start ← nextPosition
      skip
      Parser.pushMode .tag
      let kind? ← peekKind
      next start kind?) before post fail := by
  have known : before.Next (.punctuation .less) ['<'] :=
    facing.next (by rw [List.append_assoc]; exact scanMarkup_tag name _)
  have restEq : (inTag before).rest = name.text.toList ++
      (items.source ++ (closing selfClosing ++ tail)) := by
    simpa only [List.append_assoc] using rest_inTag facing
  have nameKnown : (inTag before).Next (.identifier name.text) name.text.toList :=
    next_of_rest rfl restEq (scanIn_tagName name (stops_itemsSource items selfClosing))
  apply Meets.enter known (by decide)
  exact Meets.bind_runs (peekKind_runs nameKnown.scanned) meets

/-- The decision what a tag is, when a name follows its bracket. -/
theorem tag_of_name {post : Unit → State → Prop} {fail : Parse.Error → Prop}
    (facing : Facing before (startTagSource name items selfClosing) tail)
    (meets : Meets (element bound (before.spanOf ['<'])) (inTag before) post fail) :
    Meets (tag bound) before post fail :=
  Meets.enterTag facing meets

/-- A start tag is read as it is written, and the tag is left. -/
theorem Meets.leaveStartTag {next : Element → Position → Parser α} {post : α → State → Prop}
    {fail : Parse.Error → Prop}
    (facing : Facing before (startTagSource name items selfClosing) tail)
    (enough : (startTagSource name items selfClosing).length ≤ bound)
    (meets : Meets (next (finished (selfClosing || isVoid name.text) (items.element name))
        (before.spanOf (startTagSource name items selfClosing)))
      (before.after (startTagSource name items selfClosing)) post fail) :
    Meets (do
      let tag ← Parser.startTag bound
      Parser.popMode
      let position ← spanningFrom (before.spanOf ['<'])
      next tag position) (inTag before) post fail := by
  have enoughInside : (items.source ++ closing selfClosing).length ≤ bound := by
    simp only [startTagSource, List.length_append] at enough ⊢
    omega
  refine Meets.bind ((startTag_yields name items enoughInside (inTag before) rfl
    (rest_inTag facing)).mono (fun _ _ same => same) fun _ => False.elim) ?_
  rintro tag _ ⟨rfl, rfl⟩
  exact Meets.leave facing.ahead meets

theorem emptyElement_runs (name : ElementName)
    (facing : Facing before (startTagSource name.toTagName items selfClosing) tail)
    (closed : (selfClosing || isVoid name.text) = true)
    (enough : (startTagSource name.toTagName items selfClosing).length ≤ bound) :
    Runs (tag bound) before ()
      ((before.after (startTagSource name.toTagName items selfClosing)).addLeaf
        (.element (finished true (items.element name.toTagName)))
        (before.spanOf (startTagSource name.toTagName items selfClosing))) := by
  apply tag_of_name facing
  apply Meets.leaveStartTag facing enough
  rw [closed]
  exact modify_runs (State.addLeaf_lexerFree _ _)

theorem isNamed_element (name : ElementName) (items : Items) :
    (items.element name.toTagName).isNamed "script" = false ∧
      (items.element name.toTagName).isNamed "style" = false := by
  have ordinary := name.ordinary
  have nameEq : (items.element name.toTagName).name = (Element.named name.text).name :=
    (addEntries_keeps _ _).1
  unfold Element.isNamed
  rw [nameEq]
  unfold Element.contentMode? at ordinary
  split at ordinary
  · contradiction
  · split at ordinary
    · contradiction
    · simp_all [Element.isNamed]

theorem startTag_runs (name : ContainerName)
    (facing : Facing before (startTagSource name.toTagName items false) tail)
    (enough : (startTagSource name.toTagName items false).length ≤ bound) :
    Runs (tag bound) before ()
      ((before.after (startTagSource name.toTagName items false)).openNode
        (.element (items.element name.toTagName))
        (before.spanOf (startTagSource name.toTagName items false))) := by
  have isOpen : (items.element name.toTagName).selfClosing = false :=
    (addEntries_keeps _ _).2
  obtain ⟨notScript, notStyle⟩ := isNamed_element name.toElementName items
  apply tag_of_name facing
  apply Meets.leaveStartTag facing enough
  rw [Bool.false_or, name.notVoid]
  simp only [finished, Bool.false_eq_true, if_false, isOpen]
  apply Meets.bind_runs (modify_runs (State.openNode_lexerFree _ _))
  simp only [notScript, notStyle, Bool.false_eq_true, if_false]
  exact Meets.pure ⟨trivial, rfl⟩

/-- The decision how an end tag fits what is open, and what is left to do. -/
theorem tag_of_endTag {post : Unit → State → Prop} {fail : Parse.Error → Prop}
    (facing : Facing before (endTagSource name) tail)
    (meets : Meets (do
      match before.innermost? with
      | some (.element tag) =>
          if tag.name = name.text then modify (·.closeNode)
          else failAt (.mismatchedClose tag.name name.text) (before.spanOf (endTagSource name))
      | _ => failAt (.unexpectedClose name.text) (before.spanOf (endTagSource name)) : Parser Unit)
      (before.after (endTagSource name)) post fail) :
    Meets (tag bound) before post fail := by
  have known : before.Next (.punctuation .less) ['<'] := facing.next rfl
  have restEq := rest_inTag facing
  have slash : (inTag before).Next (.punctuation .slash) ['/'] :=
    next_of_rest rfl (restEq.trans (List.append_assoc _ _ _)) rfl
  apply Meets.enter known (by decide)
  apply Meets.bind_runs (peekKind_runs slash.scanned)
  refine Meets.bind ((endTag_yields name (inTag before) rfl restEq).mono
    (fun _ _ same => same) fun _ impossible => impossible.elim) ?_
  rintro _ _ ⟨rfl, rfl⟩
  apply Meets.leave facing.ahead
  exact Meets.get (fun _ => rfl) meets

end Tags

section Texts

/-- What ends the run of text before it: the end of the source, or a token that
is no text, and begins with a character that is none either. -/
structure EndsText (text : List Char) : Prop where
  marked : ∀ c ∈ text.head?, c ∈ ['<', '{', '}', '@']
  refuses : Refuses .markup isTextual text

theorem endsText_nil : EndsText [] where
  marked := by simp
  refuses := ⟨none, rfl, rfl⟩

theorem EndsText.stops (ends : EndsText tail) {member : Char → Bool}
    (apart : ['<', '{', '}', '@'].all fun c => !member c) : Lex.Stops member tail := by
  intro c head
  have := List.all_eq_true.1 apart c (ends.marked c head)
  simpa using this

theorem run_of_class {member : Char → Bool} {c : Char} (text : List Char)
    (isMember : member c = true) (stops : Lex.Stops member tail) :
    ∃ first rest, c :: text = first ++ rest ∧ first ≠ [] ∧
      (c :: text ++ tail).takeWhile member = first := by
  have runEq : ∀ text : List Char, (text ++ tail).takeWhile member = text.takeWhile member := by
    intro text
    induction text with
    | nil => exact Lex.takeWhile_append_of_stops (by simp) stops
    | cons d text ih => rw [List.cons_append, List.takeWhile_cons, List.takeWhile_cons, ih]
  exact ⟨_, _, List.takeWhile_append_dropWhile.symm, by simp [isMember], runEq (c :: text)⟩

theorem scanMarkup_text {c : Char} (text : List Char) (ends : EndsText tail)
    (plain : c ∉ ['<', '{', '}', '@', '&']) :
    ∃ kind first rest, c :: text = first ++ rest ∧ first ≠ [] ∧ isTextual kind = true ∧
      Lex.scanMarkup (c :: text ++ tail) = .ok (some ⟨kind, first.length⟩) := by
  by_cases greater : c = '>'
  · subst greater
    exact ⟨_, ['>'], text, rfl, List.cons_ne_nil _ _, rfl, rfl⟩
  · have notMarked : c ∉ ['<', '>', '{', '}', '@', '&'] := by
      simp only [List.mem_cons, List.not_mem_nil, or_false, not_or] at plain ⊢
      exact ⟨plain.1, greater, plain.2⟩
    rw [List.cons_append, Lex.scanMarkup_plain notMarked, ← List.cons_append]
    split
    · next space =>
        obtain ⟨first, rest, textEq, nonempty, runEq⟩ :=
          run_of_class text space (ends.stops (by decide))
        refine ⟨.whitespace (String.ofList first), first, rest, textEq, nonempty, rfl, ?_⟩
        rw [Lex.whitespaceRun, runEq]
        rfl
    · next notSpace =>
        have inside : (!CharClass.isTextBoundary c) = true := by
          simp only [List.mem_cons, List.not_mem_nil, or_false, not_or] at notMarked
          simp [CharClass.isTextBoundary, notMarked, notSpace]
        have stops : Lex.Stops (fun c => !CharClass.isTextBoundary c) tail :=
          ends.stops (by decide)
        obtain ⟨first, rest, textEq, nonempty, runEq⟩ := run_of_class text inside stops
        refine ⟨.text (String.ofList first), first, rest, textEq, nonempty, rfl, ?_⟩
        rw [runEq]
        rfl

theorem tokenRun_text {text : List Char} (ends : EndsText tail)
    (plain : ∀ c ∈ text, c ∉ ['<', '{', '}', '@', '&']) :
    TokenRun .markup isTextual text tail := by
  induction lengthEq : text.length using Nat.strong_induction_on generalizing text with
  | _ length ih =>
      cases text with
      | nil => exact .stop ends.refuses
      | cons c text =>
          obtain ⟨kind, first, rest, textEq, nonempty, textual, scanned⟩ :=
            scanMarkup_text text ends (plain c List.mem_cons_self)
          rw [textEq] at lengthEq plain scanned ⊢
          have shorter : rest.length < length := by
            have := List.length_pos_iff.2 nonempty
            rw [List.length_append] at lengthEq
            omega
          rw [List.append_assoc] at scanned
          refine .token nonempty scanned textual (ih _ shorter ?_ rfl)
          exact fun d member => plain d (List.mem_append_right _ member)

theorem textRun_runs (text : PlainText) (facing : Facing before text.content.toList tail)
    (ends : EndsText tail) (enough : text.content.toList.length ≤ bound) :
    Runs (textRun bound) before ()
      ((before.after text.content.toList).addLeaf (.text text.content)
        (before.spanOf text.content.toList)) := by
  apply Meets.bind_runs here_runs
  refine Meets.bind (skipWhile_yields (tokenRun_text ends text.plain) enough before
    facing.mode_eq facing.rest) ?_
  rintro _ _ ⟨-, rfl⟩
  apply Meets.bind_runs here_runs
  apply Meets.bind_runs (spanningFrom_runs (fun _ => rfl) facing.ahead rfl)
  rw [State.textTo_after facing.ahead, String.ofList_toList]
  exact modify_runs (State.addLeaf_lexerFree _ _)

end Texts

end Parser

end TemplateCompiler
