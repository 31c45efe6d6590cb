import TemplateCompiler.Proofs.Parse.CoupledTemplates

/-!
# Two texts one behind the other

The second text begins where the first one ends, so the longer text is read as
both of them, unless they meet within a run of text.  Then the run would be one
text and not two.
-/

namespace TemplateCompiler

/-- Whether the first node of a template at the top is a text. -/
def Template.BeginsWithText (template : Template) : Prop :=
  ∃ node ∈ template.children.head?, node.kind.isText = true

/-- Whether the last node of a template at the top is a text. -/
def Template.EndsWithText (template : Template) : Prop :=
  ∃ node ∈ template.children.getLast?, node.kind.isText = true

instance (template : Template) : Decidable template.BeginsWithText :=
  inferInstanceAs (Decidable (∃ node ∈ template.children.head?, node.kind.isText = true))

instance (template : Template) : Decidable template.EndsWithText :=
  inferInstanceAs (Decidable (∃ node ∈ template.children.getLast?, node.kind.isText = true))

namespace Parser

open Parse Written

section Growing

variable {before after : State}

/-- Whether the nodes at the top are those there were before and maybe more, and
nothing was declared meanwhile. -/
def KeepsTop (before after : State) : Prop :=
  after.document.declarations = before.document.declarations ∧ before.top <:+ after.top

theorem KeepsTop.refl (state : State) : KeepsTop state state :=
  ⟨rfl, List.suffix_refl _⟩

theorem KeepsTop.trans {middle : State} (first : KeepsTop before middle)
    (second : KeepsTop middle after) : KeepsTop before after :=
  ⟨second.1.trans first.1, first.2.trans second.2⟩

theorem keepsTop_add (node : Node) (state : State) : KeepsTop state (state.add node) := by
  obtain ⟨lexer, document, enclosing, top, dropped, size⟩ := state
  cases enclosing with
  | nil => exact ⟨rfl, List.suffix_cons node top⟩
  | cons construct outer => exact .refl _

theorem keepsTop_addLeaf (kind : NodeKind) (place : Position) (state : State) :
    KeepsTop state (state.addLeaf kind place) :=
  keepsTop_add _ { state with size := state.size + 1 }

theorem keepsTop_closeNode (state : State) : KeepsTop state state.closeNode := by
  unfold State.closeNode
  split
  · next construct outer _ => exact keepsTop_add construct.node { state with enclosing := outer }
  · exact .refl _

theorem keepsTop_closeBlock (state : State) : KeepsTop state state.closeBlock := by
  unfold State.closeBlock
  split
  · exact (keepsTop_closeNode _).trans (keepsTop_closeNode _)
  · exact keepsTop_closeNode _

theorem keepsTop_addCode (code : String) (place : Position) (state : State) :
    KeepsTop state (state.addCode code place) := by
  unfold State.addCode
  split
  · exact .refl _
  · exact keepsTop_addLeaf _ _ _

theorem keepsTop_intoContent (tag : Element) (state : State) :
    KeepsTop state (state.intoContent tag) := by
  unfold State.intoContent
  split <;> exact .refl _

theorem keepsTop_outOfContent (tag : Element) (state : State) :
    KeepsTop state (state.outOfContent tag) := by
  unfold State.outOfContent
  split <;> exact .refl _

/-- A step that declares nothing keeps the nodes at the top. -/
theorem keepsTop_of_step (step : Step before after)
    (undeclared : after.document.declarations = []) : KeepsTop before after := by
  cases step with
  | leaf => exact keepsTop_addLeaf _ _ (before.after _)
  | @opened tag piece =>
      exact keepsTop_intoContent tag ((before.after piece).openNode (.element tag) _)
  | @closed tag piece =>
      exact (keepsTop_outOfContent tag (before.after piece)).trans (keepsTop_closeNode _)
  | code => exact keepsTop_addCode _ _ (before.after _)
  | loop | block => exact .refl _
  | blockClosed => exact keepsTop_closeBlock (before.after _)
  | declared => simp [State.declare] at undeclared

theorem keepsTop_of_steps (steps : Steps before after)
    (undeclared : after.document.declarations = []) : KeepsTop before after := by
  induction steps using Relation.ReflTransGen.head_induction_on with
  | refl => exact .refl _
  | head step _ keeps =>
      exact (keepsTop_of_step step (keeps.1 ▸ undeclared)).trans keeps

/-- At the top a step begins a construct, or it reads a text. -/
theorem begins_or_text_of_step (step : Step before after) (nothingOpen : before.enclosing = []) :
    Lex.BeginsConstruct before.rest ∨
      ∃ node, after.top = node :: before.top ∧ node.kind.isText = true := by
  have notInside : ∀ kind, before.innermost? ≠ some kind := by
    simp [State.innermost?, nothingOpen]
  have begins : ∀ {piece : List Char} (c : Char), c ∈ ['<', '{', '}', '@'] → [c] <+: piece →
      piece <+: before.rest → Lex.BeginsConstruct before.rest := by
    rintro piece c isMark starts ahead
    obtain ⟨rest, restEq⟩ := starts.trans ahead
    exact ⟨c, rest, restEq.symm, isMark⟩
  cases step with
  | @leaf kind piece ahead written childless =>
      cases kind with
      | text content =>
          have stillNothing : (before.after piece).enclosing = [] := nothingOpen
          refine .inr ⟨.leaf before.size (.text content) (before.spanOf piece), ?_, rfl⟩
          simp only [State.addLeaf, State.add, stillNothing]
          rfl
      | comment content =>
          obtain rfl : piece = _ := written
          exact .inl (begins '<' (by simp) ⟨_, rfl⟩ ahead)
      | interpolation expression =>
          exact .inl (begins '{' (by simp) (.trans ⟨_, rfl⟩ written.1) ahead)
      | element tag => exact .inl (begins '<' (by simp) (.trans ⟨_, rfl⟩ written.1) ahead)
      | script | document | loop | block => exact childless.elim
  | opened ahead written =>
      exact .inl (begins '<' (by simp) (.trans ⟨_, rfl⟩ written.1) ahead)
  | closed ahead innermost | code ahead nonempty innermost | blockClosed ahead innermost =>
      exact (notInside _ innermost).elim
  | loop ahead written =>
      exact .inl (begins '@' (by simp) (written.trans (List.prefix_append _ _)) ahead)
  | block ahead => exact .inl (begins '{' (by simp) (List.prefix_refl _) ahead)
  | declared ahead written =>
      exact .inl (begins '<' (by simp) (.trans ⟨_, rfl⟩ written.1) ahead)

theorem begins_or_text_of_steps (steps : Steps before after) (someRest : before.rest ≠ after.rest)
    (nothingOpen : before.enclosing = []) (noNodes : before.top = [])
    (undeclared : after.document.declarations = []) :
    Lex.BeginsConstruct before.rest ∨
      ∃ node ∈ after.top.getLast?, node.kind.isText = true := by
  rcases steps.cases_head with rfl | ⟨middle, step, stepsThen⟩
  · contradiction
  · refine (begins_or_text_of_step step nothingOpen).imp_right ?_
    rintro ⟨node, topEq, isText⟩
    obtain ⟨later, topThen⟩ := (keepsTop_of_steps stepsThen undeclared).2
    refine ⟨node, ?_, isText⟩
    rw [← topThen, topEq, noNodes, List.getLast?_concat]
    exact rfl

end Growing

section Concatenation

theorem rest_atStart (text : List Char) : (behindMatter text "" 0).rest = text := by
  rw [rest_behindMatter, List.drop_zero]

/-- A text that holds nothing but text is one node. -/
theorem parse_plainText (text : PlainText)
    (noMatter : Lex.opensMatter text.content.toList = false) :
    ∃ template node, Template.parse text.content = .ok template ∧
      template.children = [node] ∧ node.kind = .text text.content := by
  have scanned := Lex.scanFrontMatter_none noMatter
  have facing : Facing (behindMatter text.content.toList "" 0) text.content.toList [] :=
    ⟨rfl, by rw [rest_atStart, List.append_nil]⟩
  have leads := leads_text text facing endsText_nil
  have free := State.addLeaf_lexerFree (.text text.content)
    ((behindMatter text.content.toList "" 0).spanOf text.content.toList)
  refine ⟨_, _, parse_eq_ok scanned leads (free.modes_eq _) ?_ rfl, rfl, rfl⟩
  rw [free.rest_eq, State.rest_after, facing.rest, List.append_nil, List.drop_length]

/-- A text that can be parsed begins with a token, if it has no front matter. -/
theorem scans_of_parse {text : String} {template : Template}
    (noMatter : Lex.opensMatter text.toList = false)
    (parsed : Template.parse text = .ok template) (fault : Lex.Fault) :
    Lex.scanIn .markup text.toList ≠ .error fault := by
  intro scanned
  have modeEq : (behindMatter text.toList "" 0).mode = .markup := rfl
  have restEq := rest_atStart text.toList
  have fails : Meets (markup (text.toList.length + 1)) (behindMatter text.toList "" 0)
      (fun _ _ => False) fun _ => True := by
    refine Meets.peek (fun kind piece known _ _ => ?_) (fun ended => ?_) fun _ _ => trivial
    · have found := known.scanned
      rw [modeEq, restEq, scanned] at found
      contradiction
    · rw [modeEq, restEq, scanned] at ended
      contradiction
  have failsThen : Meets (do markup (text.toList.length + 1); expectNothingOpen)
      (behindMatter text.toList "" 0) (fun _ _ => False) fun _ => True :=
    Meets.bind fails fun _ _ impossible => impossible.elim
  obtain ⟨error, refused, -⟩ :=
    parse_error_of_meets (Lex.scanFrontMatter_none noMatter) failsThen
  rw [parsed] at refused
  contradiction

theorem corresponds_beforeText {text others : List Char}
    (scans : ∀ fault, Lex.scanIn .markup others ≠ .error fault) :
    (Seam.beforeText others scans).Corresponds (behindMatter text "" 0)
      (behindMatter (text ++ others) "" 0) where
  modes := rfl
  rest := by
    rw [rest_atStart, rest_atStart]
    rfl
  offset := rfl
  mark := False.elim
  doctype := rfl
  matter := rfl
  plain := rfl
  enclosing := .nil
  top := ⟨[], .nil, rfl⟩

theorem corresponds_behindState {text : List Char} {state : State} (modes : state.modes = [])
    (rest : state.rest = text) (nothingOpen : state.enclosing = []) :
    (Seam.behindState state).Corresponds (behindMatter text "" 0) state where
  modes := modes
  rest := by
    rw [rest, rest_atStart]
    exact (List.append_nil _).symm
  offset := (Nat.zero_add _).symm
  mark := False.elim
  doctype := by simp [Seam.behindState, behindMatter, Document.doctype?]
  matter := rfl
  plain := rfl
  enclosing := by rw [nothingOpen]; exact .nil
  top := ⟨[], .nil, rfl⟩

/-- Whether a template has the nodes of two others at the top, one behind the
other, and the declarations of the first one. -/
structure Appends (first second whole : Template) : Prop where
  doctype : whole.document.doctype? = first.document.doctype?
  matter : whole.document.frontMatter = ""
  children : ∃ nodes nodesThen, whole.children = nodes ++ nodesThen ∧
    (∃ seam : Seam, List.Forall₂ seam.Matches first.children nodes) ∧
      ∃ seam : Seam, List.Forall₂ seam.Matches second.children nodesThen

theorem appends_of_corresponds {first second front whole : State} {seam : Seam}
    (noBase : seam.base = []) (noDoctype : seam.doctype = none) (noMatter : seam.matter = "")
    (undeclared : second.document.declarations = []) (corresponds : seam.Corresponds first front)
    (correspondsThen : (Seam.behindState front).Corresponds second whole) :
    Appends first.template second.template whole.template := by
  have alike := alike_of_corresponds corresponds
  have alikeThen := alike_of_corresponds correspondsThen
  obtain ⟨nodes, matched, nodesEq⟩ := alike.children
  obtain ⟨nodesThen, matchedThen, wholeEq⟩ := alikeThen.children
  have noDoctypeThen : second.template.document.doctype? = none := by
    simp [State.template, Document.doctype?, undeclared]
  refine ⟨?_, ?_, nodes, nodesThen, ?_, ⟨seam, matched⟩, ⟨_, matchedThen⟩⟩
  · have doctypeEq := alike.doctype
    rw [noDoctype, Option.none_or] at doctypeEq
    rw [alikeThen.doctype, noDoctypeThen, Option.or_none]
    exact doctypeEq
  · exact alikeThen.matter.trans (alike.matter.trans noMatter)
  · rw [noBase, List.reverse_nil, List.nil_append] at nodesEq
    rw [wholeEq, ← nodesEq]
    rfl

variable {text others : String} {middle after : State} {first second : Template}

/-- A text that declares nothing begins with a construct, or the template does with
a text. -/
theorem AtEnd.begins (atEnd : AtEnd (behindMatter text.toList "" 0) after)
    (undeclared : after.document.declarations = []) :
    text.toList = [] ∨ Lex.BeginsConstruct text.toList ∨ after.template.BeginsWithText := by
  have restEq := rest_atStart text.toList
  rw [Classical.or_iff_not_imp_left]
  intro someText
  have begins :=
    begins_or_text_of_steps atEnd.steps (by rwa [restEq, atEnd.rest]) rfl rfl undeclared
  rw [restEq, ← List.head?_reverse] at begins
  exact begins

/-- Only texts that meet within a run of text may open front matter together. -/
theorem opensMatter_append (noMatter : Lex.opensMatter text.toList = false)
    (noDelimiter : Lex.beginsWithDelimiterLine others.toList = false)
    (parsed : Template.parse text = .ok first)
    (begins : others.toList = [] ∨ Lex.BeginsConstruct others.toList ∨ second.BeginsWithText)
    (apart : ¬(first.EndsWithText ∧ second.BeginsWithText)) :
    Lex.opensMatter (text ++ others).toList = false := by
  by_contra opens
  rw [Bool.not_eq_false, String.toList_append] at opens
  obtain ⟨someText, dashes, someOthers, notMark⟩ :=
    Lex.divided_of_opensMatter noMatter noDelimiter opens
  have plain : ∀ c ∈ text.toList, c ∉ ['<', '{', '}', '@', '&'] := by
    intro c member
    rw [dashes c member]
    decide
  obtain ⟨template, node, parsedPlain, childrenEq, kindEq⟩ :=
    parse_plainText ⟨text, someText, plain⟩ noMatter
  obtain rfl := Except.ok.inj (parsedPlain.symm.trans parsed)
  refine apart ⟨⟨node, by rw [childrenEq]; rfl, by rw [kindEq]; rfl⟩, ?_⟩
  exact (begins.resolve_left someOthers).resolve_left notMark

theorem undisturbed_beforeText {scans : ∀ fault, Lex.scanIn .markup others.toList ≠ .error fault}
    (atEnd : AtEnd (behindMatter text.toList "" 0) middle)
    (begins : others.toList = [] ∨ Lex.BeginsConstruct others.toList ∨ second.BeginsWithText)
    (apart : ¬(middle.template.EndsWithText ∧ second.BeginsWithText)) :
    (Seam.beforeText others.toList scans).Undisturbed middle := by
  refine ⟨.inl trivial, begins.imp id fun begins => ?_⟩
  have markup : middle.mode = .markup := congrArg (·.headD .markup) atEnd.modes
  unfold Seam.Ends
  rw [markup]
  refine .inr ⟨atEnd.rest, atEnd.enclosing, ?_⟩
  rcases begins with begins | startsWithText
  · exact .inr begins
  · refine .inl fun node member => ?_
    by_contra isText
    refine apart ⟨⟨node, ?_, by simpa using isText⟩, startsWithText⟩
    rwa [State.template, List.getLast?_reverse]

theorem append_meets {scans : ∀ fault, Lex.scanIn .markup others.toList ≠ .error fault}
    (atEnd : AtEnd (behindMatter text.toList "" 0) middle)
    (atEndThen : AtEnd (behindMatter others.toList "" 0) after)
    (leads : LeadsTo (Seam.beforeText others.toList scans) (behindMatter text.toList "" 0) middle)
    (leadsThen : ∀ seam : Seam, seam.exact ∨ seam.Undisturbed after →
      LeadsTo seam (behindMatter others.toList "" 0) after)
    (undeclared : after.document.declarations = []) :
    Meets (do markup ((text ++ others).toList.length + 1); expectNothingOpen)
      (behindMatter (text ++ others).toList "" 0)
      (fun _ whole => Appends middle.template after.template whole.template) fun _ => False := by
  rw [String.toList_append]
  have enough : (behindMatter text.toList "" 0).rest.length + others.toList.length <
      (text.toList ++ others.toList).length + 1 := by
    rw [rest_atStart, List.length_append]
    exact Nat.lt_succ_self _
  have reads : Meets (markup ((text.toList ++ others.toList).length + 1))
      (behindMatter (text.toList ++ others.toList) "" 0)
      (fun _ whole => ∃ front, (Seam.beforeText others.toList scans).Corresponds middle front ∧
        (Seam.behindState front).Corresponds after whole) fun _ => False := by
    refine leads _ _ (corresponds_beforeText scans) enough _ _ ?_
    intro front bound corresponds more
    have enclosing := corresponds.enclosing_eq_nil atEnd.enclosing
    have frontRest : front.rest = others.toList := by
      rw [corresponds.rest, atEnd.rest]
      rfl
    have correspondsThen := corresponds_behindState (corresponds.modes.trans atEnd.modes)
      frontRest enclosing
    have undisturbed : (Seam.behindState front).Undisturbed after := ⟨.inr undeclared, .inl rfl⟩
    have moreThen : (behindMatter others.toList "" 0).rest.length +
        (Seam.behindState front).tail.length < bound := by
      rw [rest_atStart]
      exact Nat.lt_of_le_of_lt (Nat.le_add_left _ _) more
    exact ((leadsThen _ (.inr undisturbed)).atEnd atEndThen.rest atEndThen.modes rfl
      correspondsThen moreThen _).mono (fun _ _ reached => ⟨front, corresponds, reached⟩)
      fun _ => id
  refine Meets.bind reads ?_
  rintro _ whole ⟨front, corresponds, correspondsThen⟩
  have enclosing := correspondsThen.enclosing_eq_nil atEndThen.enclosing
  exact Meets.of_runs (expectNothingOpen_runs enclosing)
    (appends_of_corresponds rfl rfl rfl undeclared corresponds correspondsThen)

/-- Two texts are read one behind the other, unless front matter or a run of text
would go from the one into the other. -/
theorem parse_append
    (noMatter : Lex.opensMatter text.toList = false)
    (noDelimiter : Lex.beginsWithDelimiterLine others.toList = false)
    (parsed : Template.parse text = .ok first) (parsedThen : Template.parse others = .ok second)
    (undeclared : second.document.declarations = [])
    (apart : ¬(first.EndsWithText ∧ second.BeginsWithText)) :
    ∃ whole, Template.parse (text ++ others) = .ok whole ∧ Appends first second whole := by
  have noMatterThen : Lex.opensMatter others.toList = false := by
    rw [Lex.opensMatter, noDelimiter]
    rfl
  have scans := scans_of_parse noMatterThen parsedThen
  have leads := parse_leads (Lex.scanFrontMatter_none noMatter)
  have leadsThen := parse_leads (Lex.scanFrontMatter_none noMatterThen)
  rw [parsed] at leads
  rw [parsedThen] at leadsThen
  obtain ⟨middle, rfl, atEnd, leads⟩ := leads
  obtain ⟨after, rfl, atEndThen, leadsThen⟩ := leadsThen
  have begins := atEndThen.begins undeclared
  have noMatterWhole := opensMatter_append noMatter noDelimiter parsed begins apart
  have undisturbed : (Seam.beforeText others.toList scans).Undisturbed middle :=
    undisturbed_beforeText atEnd begins apart
  obtain ⟨whole, parsedWhole, appends⟩ :=
    parse_ok_of_meets (Lex.scanFrontMatter_none noMatterWhole)
      (append_meets atEnd atEndThen (leads _ (.inr undisturbed)) leadsThen undeclared)
  exact ⟨_, parsedWhole, appends⟩

end Concatenation

end Parser

end TemplateCompiler
