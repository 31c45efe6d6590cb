import TemplateCompiler.Proofs.Eval.Static
import TemplateCompiler.Proofs.Html.Layout
import TemplateCompiler.Proofs.Parse.Declarations

/-!
# What is rendered is read back

The output for a plain document is again a template, and evaluates to a document
with the same normal form, in every mode.  The output is divided into constructs:
layout joins the texts that it stands next to, and as no two texts of the document
are neighbours, every text of the template has the content of at most one of them.
-/

namespace TemplateCompiler

open Parse Written

namespace Html

section Constructs

/-- A text is the source of constructs that display nodes of a normal form. -/
def ReadsBack (source : List Char) (nodes : List Node) : Prop :=
  ∃ constructs shown, Construct.AllWellFormed constructs ∧
    Construct.sources constructs = source ∧ Displays (Construct.outlines constructs) shown ∧
    Node.normals shown = nodes

/-- The same for a single construct that is no text. -/
def ConstructReadsBack (piece : List Char) (nodes : List Node) : Prop :=
  ∃ construct : Construct, ∃ shown, ¬construct.IsText ∧ construct.WellFormed ∧
    construct.source = piece ∧
    (∀ {outlines others}, Displays outlines others →
      Displays (construct.outline :: outlines) (shown :: others)) ∧
    shown.normal = nodes

/-- A text as an author writes it. -/
def writtenText {text : List Char} (nonempty : text ≠ []) (plain : IsPlainText text) :
    PlainText where
  content := String.ofList text
  nonempty := by rwa [String.toList_ofList]
  plain := by rwa [String.toList_ofList]

theorem readsBack_text {text : List Char} (plain : IsPlainText text) :
    ReadsBack text (Node.normalText (String.ofList text) false) := by
  by_cases empty : text = []
  · subst empty
    exact ⟨[], [], trivial, rfl, .nil, rfl⟩
  · refine ⟨[.text (writtenText empty plain)], _, ⟨trivial, by simp, trivial⟩, ?_, .text _ .nil, ?_⟩
    · simp [Construct.sources, Construct.source, writtenText]
    · simp [Node.normals, Node.normal, writtenText]

theorem ReadsBack.behind {text piece source : List Char} {nodes others : List Node}
    (plain : IsPlainText text) (first : ConstructReadsBack piece nodes)
    (later : ReadsBack source others) :
    ReadsBack (text ++ (piece ++ source))
      (Node.normalText (String.ofList text) false ++ (nodes ++ others)) := by
  obtain ⟨construct, node, notText, wellFormed, rfl, displays, rfl⟩ := first
  obtain ⟨constructs, shown, wellFormedThen, rfl, displaysThen, rfl⟩ := later
  have allWellFormed : Construct.AllWellFormed (construct :: constructs) :=
    ⟨wellFormed, fun isText => (notText isText).elim, wellFormedThen⟩
  by_cases empty : text = []
  · subst empty
    exact ⟨construct :: constructs, _, allWellFormed, rfl, displays displaysThen, rfl⟩
  · refine ⟨.text (writtenText empty plain) :: construct :: constructs, _,
      ⟨trivial, ?_, allWellFormed⟩, ?_, .text _ (displays displaysThen), ?_⟩
    · rintro _ _ ⟨⟩
      exact notText
    · simp [Construct.sources, Construct.source, writtenText]
    · simp [Node.normals, Node.normal, writtenText]

theorem constructReadsBack_comment {content : String}
    (noEnd : ¬['-', '-', '>'] <:+: content.toList) :
    ConstructReadsBack (characters (commentEmissions content)) [.comment content] := by
  refine ⟨.comment ⟨content, noEnd⟩, .comment content, id, trivial, ?_, .comment content, rfl⟩
  simp [Construct.source, CommentText.source, commentEmissions, Emission.written]

end Constructs

section Elements

variable {name : String} {attributes : List Attribute}

theorem valueSource_unescaped {item : Attribute} (plain : item.IsPlain IsPlainName) :
    [' '] ++ (item.name.toList ++ valueSource item.normal.value) =
      characters (attributeEmissions item) := by
  obtain ⟨name, value?⟩ := item
  cases value? with
  | none => simp [Attribute.normal, valueSource, attributeEmissions, Emission.written]
  | some value =>
      obtain ⟨noQuote, noBackslash⟩ := plain.unescaped value rfl
      by_cases empty : value = ""
      · subst empty
        simp [Attribute.normal, Option.filter, valueSource, attributeEmissions, Emission.written]
      · simp [Attribute.normal, Option.filter, valueSource, attributeEmissions, Emission.written,
          Lex.quote, Lex.protect_unescaped noQuote noBackslash, empty]

/-- The attributes of a plain element are rendered as items of a tag. -/
theorem exists_entries (plain : ∀ item ∈ attributes, item.IsPlain IsPlainName) :
    ∃ entries, entriesSource entries = characters (attributes.flatMap attributeEmissions) ∧
      ∀ element, addEntries element entries =
        { element with attributes := element.attributes ++ attributes.map Attribute.normal } := by
  induction attributes with
  | nil => exact ⟨[], rfl, fun element => by simp [addEntries]⟩
  | cons item attributes ih =>
      have plainItem := plain item List.mem_cons_self
      obtain ⟨entries, sourceEq, addEq⟩ := ih fun other member =>
        plain other (List.mem_cons_of_mem _ member)
      let name : TagName := ⟨item.name, plainItem.named.1, plainItem.named.2⟩
      let gap : Gap := ⟨[' '], List.cons_ne_nil _ _, Parser.isSpaces_blank⟩
      refine ⟨(gap, .attribute name item.normal.value) :: entries, ?_, fun element => ?_⟩
      · rw [List.flatMap_cons, characters_append, ← valueSource_unescaped plainItem, ← sourceEq]
        simp [entriesSource, Item.source, gap, name]
      · rw [addEntries, List.foldl_cons, ← addEntries, addEq]
        simp [Item.addTo, name, Attribute.normal]

theorem contentMode?_of_markup (markup : isRawTextElement name = false) :
    (Element.named name).isNamed "style" = false ∧ (Element.named name).contentMode? = none := by
  have other : ∀ raw ∈ rawTextElements, (Element.named name).isNamed raw = false := by
    intro raw member
    rw [Element.isNamed, Text.equalIgnoreCase_comm]
    exact Bool.eq_false_iff.2 fun same =>
      absurd (List.any_eq_true.2 ⟨raw, member, same⟩) (Bool.eq_false_iff.1 markup)
  have notScript := other "script" (by decide)
  have notStyle := other "style" (by decide)
  exact ⟨notStyle, by simp [Element.contentMode?, notScript, notStyle]⟩

variable {children nodes : List Node} {source : List Char}

/-- What stands in the tag of a plain element, up to some white space before its
end. -/
theorem exists_items (plain : ∀ item ∈ attributes, item.IsPlain IsPlainName)
    (trailing : Spaces) :
    ∃ items : Items,
      items.source = characters (attributes.flatMap attributeEmissions) ++ trailing.text ∧
      ∀ name : TagName, items.element name =
        { Element.named name.text with attributes := attributes.map Attribute.normal } := by
  obtain ⟨entries, sourceEq, addEq⟩ := exists_entries plain
  refine ⟨⟨entries, trailing⟩, by rw [Items.source, sourceEq], fun name => ?_⟩
  rw [Items.element, addEq]
  rfl

theorem normals_attributes (attributes : List Attribute) :
    (attributes.map Attribute.normal).map Attribute.normal = attributes.map Attribute.normal := by
  simp [Function.comp_def, Attribute.normal_normal]

theorem constructReadsBack_empty (plain : Node.IsPlainElement IsPlainName name attributes [])
    (trailing : Spaces) :
    ConstructReadsBack (characters (tagEmissions name attributes) ++ (trailing.text ++ ['/', '>']))
      [.element name (attributes.map Attribute.normal) []] := by
  obtain ⟨notStyle, ordinary⟩ := contentMode?_of_markup plain.markup
  obtain ⟨items, sourceEq, elementEq⟩ := exists_items plain.attributes trailing
  let tagName : ElementName := ⟨⟨name, plain.named.1, plain.named.2⟩, ordinary⟩
  refine ⟨.empty tagName items true rfl,
    .element name (attributes.map Attribute.normal) [], id, trivial, ?_, fun later => ?_, ?_⟩
  · simp [Construct.source, startTagSource, sourceEq, tagName, tagEmissions, closing,
      Emission.written]
  · rw [Construct.outline, elementEq]
    exact .element _ notStyle .nil later
  · rw [Node.normal, normals_attributes]
    rfl

theorem constructReadsBack_element
    (plain : Node.IsPlainElement IsPlainName name attributes children) (nonempty : children ≠ [])
    (content : ReadsBack source nodes) :
    ConstructReadsBack
      (characters (tagEmissions name attributes) ++
        (['>'] ++ (source ++ characters (endTagEmissions name))))
      [.element name (attributes.map Attribute.normal) nodes] := by
  obtain ⟨notStyle, ordinary⟩ := contentMode?_of_markup plain.markup
  obtain ⟨items, sourceEq, elementEq⟩ := exists_items plain.attributes ⟨[], Text.isSpaces_nil⟩
  obtain ⟨constructs, shown, wellFormed, rfl, displays, rfl⟩ := content
  have notVoid : Parser.isVoid name = false :=
    Bool.eq_false_iff.2 fun void => nonempty (plain.void void)
  let tagName : ContainerName := ⟨⟨⟨name, plain.named.1, plain.named.2⟩, ordinary⟩, notVoid⟩
  refine ⟨.element tagName items constructs,
    .element name (attributes.map Attribute.normal) shown, id, wellFormed, ?_, fun later => ?_, ?_⟩
  · simp [Construct.source, startTagSource, endTagSource, sourceEq, tagName, tagEmissions,
      endTagEmissions, closing, Emission.written]
  · rw [Construct.outline, elementEq]
    exact .element _ notStyle displays later
  · rw [Node.normal, normals_attributes]

end Elements

section Trees

/-- The layout before a construct belongs to the text that waits there, and the
layout behind it to the text that comes next. -/
theorem ReadsBack.cons {pending laidOut source : List Char} {nodes others : List Node}
    (plain : IsPlainText pending)
    (first : ∃ piece, LaysOut piece laidOut ∧ ConstructReadsBack piece nodes)
    (later : ∀ blanks, IsLayout blanks →
      ReadsBack (blanks ++ source) (Node.normalText (String.ofList blanks) false ++ others)) :
    ReadsBack (pending ++ (laidOut ++ source))
      (Node.normalText (String.ofList pending) false ++ (nodes ++ others)) := by
  obtain ⟨piece, ⟨before, after, layoutBefore, layoutAfter, rfl⟩, reads⟩ := first
  have readsAll := (later after layoutAfter).behind (plain.append layoutBefore.isPlainText) reads
  rw [Node.normalText_congr false (Text.trimList_append_white layoutBefore.allWhite),
    Node.normalText_white false layoutAfter.allWhite] at readsAll
  simpa using readsAll

variable (settings : Settings)

mutual

/-- A node that is no text is laid out as a construct with layout around. -/
theorem readsBack_node : ∀ (node : Node) (depth : Nat), node.IsPlain IsPlainName →
    ¬node.IsText →
      ∃ piece, LaysOut piece (characters (node.layOut settings depth)) ∧
        ConstructReadsBack piece node.normal
  | .text content raw, _, _, notText => (notText trivial).elim
  | .comment content, depth, noEnd, _ =>
      ⟨_, Node.laysOut_ownLine settings depth _, constructReadsBack_comment noEnd⟩
  | .element name attributes [], depth, plain, _ => by
      obtain ⟨blanks, layout, laysOut⟩ := Node.laysOut_empty settings depth name attributes
      exact ⟨_, laysOut, constructReadsBack_empty plain.1 ⟨blanks, layout.isSpaces⟩⟩
  | .element name attributes (first :: others), depth, plain, _ => by
      obtain ⟨inner, ⟨before, after, layoutBefore, layoutAfter, innerEq⟩, laysOut⟩ :=
        Node.layOutElement_eq settings depth name attributes
          (Node.layOuts settings (depth + 1) (first :: others))
      have layOutEq : Node.layOut settings depth (.element name attributes (first :: others)) =
          Node.layOutElement settings depth name attributes
            (Node.layOuts settings (depth + 1) (first :: others)) := by
        rw [Node.layOut, plain.1.markup]
        rfl
      have content := readsBack_nodes (first :: others) (depth + 1) plain.2
        layoutBefore.isPlainText layoutAfter (.inl layoutBefore.allWhite)
      rw [Node.normalText_white false layoutBefore.allWhite, List.nil_append, ← innerEq] at content
      rw [layOutEq]
      exact ⟨_, laysOut, constructReadsBack_element plain.1 (List.cons_ne_nil _ _) content⟩

/-- Nodes are read back behind a text that waits to be joined with theirs.  That
is layout only when they begin with a text. -/
theorem readsBack_nodes : ∀ (nodes : List Node) (depth : Nat) {pending ending : List Char},
    Node.AllPlain IsPlainName nodes → IsPlainText pending → IsLayout ending →
    (Text.AllWhite pending ∨ ∀ next ∈ nodes.head?, ¬next.IsText) →
      ReadsBack (pending ++ (characters (Node.layOuts settings depth nodes) ++ ending))
        (Node.normalText (String.ofList pending) false ++ Node.normals nodes)
  | [], _, pending, ending, _, plain, layout, _ => by
      have reads := readsBack_text (plain.append layout.isPlainText)
      rw [Node.normalText_congr false (Text.trimList_append_white layout.allWhite)] at reads
      simpa [Node.layOuts, Node.normals] using reads
  | first :: others, depth, pending, ending, ⟨plainFirst, apart, plainOthers⟩, plain, layout,
      joins => by
      have readsFirst := readsBack_node first depth plainFirst
      have readsOthers {waiting : List Char} :=
        @readsBack_nodes others depth waiting ending plainOthers
      by_cases isText : first.IsText
      · -- what waits before a text is layout, so the joined text trims to this one
        have white : Text.AllWhite pending := joins.resolve_right fun noText =>
          noText first rfl isText
        obtain ⟨content, raw, rfl⟩ := Node.exists_of_isText isText
        obtain ⟨rfl, plainContent⟩ := plainFirst
        have trimEq : Text.trimList (pending ++
            characters (Node.layOutText settings depth content)) =
              Text.trimList content.toList := by
          rw [Text.trimList_white_append white, Node.trimList_layOutText]
        have reads := readsOthers
          (plain.append (Node.isPlainText_layOutText settings depth plainContent)) layout
          (.inr (apart isText))
        rw [Node.normalText_congr false trimEq, String.ofList_toList] at reads
        simpa [Node.layOuts, Node.layOut, Node.normals, Node.normal,
          Node.normalText_white false white] using reads
      · have reads := ReadsBack.cons plain (readsFirst isText) fun blanks layoutBlanks =>
          readsOthers layoutBlanks.isPlainText layout (.inl layoutBlanks.allWhite)
        rwa [← List.append_assoc (characters _), ← characters_append] at reads

end

end Trees

section Documents

variable {document : Document} {settings : Settings}

def doctypeWord : TagName :=
  ⟨"DOCTYPE", ⟨'D', "OCTYPE".toList, rfl, rfl, by decide⟩, by decide⟩

def htmlWord : TagName :=
  ⟨"html", ⟨'h', "tml".toList, rfl, rfl, by decide⟩, by decide⟩

/-- The document type that is written for a document without one stands on a line
of its own, or right before the nodes. -/
theorem toList_render_implicit (noDoctype : document.doctype = none)
    (implicit : settings.implicitDoctype = true) :
    ∃ lineEnd, IsLayout lineEnd ∧
      (document.render settings).toList = declarationSource doctypeWord [htmlWord] ++
        (lineEnd ++ characters (Node.layOuts settings 0 document.children)) := by
  let lineEnd : List Emission := if settings.mode = .minify then [] else [.newline]
  refine ⟨characters lineEnd, ?_, ?_⟩
  · unfold lineEnd
    split
    · exact isLayout_nil
    · simpa using isLayout_newline
  · rw [Document.render, toList_write, Document.layOut, Document.writtenDoctype?, noDoctype]
    simp [implicit, declarationSource, parametersSource, doctypeWord, htmlWord, Emission.written,
      lineEnd]

theorem toList_render_bare (noDoctype : document.doctype = none)
    (explicit : settings.implicitDoctype = false) :
    (document.render settings).toList =
      characters (Node.layOuts settings 0 document.children) := by
  rw [Document.render, toList_write, Document.layOut, Document.writtenDoctype?, noDoctype]
  simp [explicit]

/-- In the output for a document without a type, the parser comes to the nodes
with nothing read or open. -/
theorem exists_leads_to_nodes (settings : Settings) (noDoctype : document.doctype = none) :
    ∃ start lineEnd, IsLayout lineEnd ∧
      Parser.Leads (Parser.behindMatter (document.render settings).toList "" 0) start ∧
      Parser.Facing start
        (lineEnd ++ characters (Node.layOuts settings 0 document.children)) [] ∧
      start.enclosing = [] ∧ start.top = [] := by
  obtain ⟨start, startEq, facing, nothingOpen, nothingRead⟩ :
      ∃ start, Parser.behindMatter (document.render settings).toList "" 0 = start ∧
        Parser.Facing start (document.render settings).toList [] ∧
        start.enclosing = [] ∧ start.top = [] :=
    ⟨_, rfl, ⟨rfl, by rw [Parser.rest_behindMatter, List.drop_zero, List.append_nil]⟩, rfl, rfl⟩
  rw [startEq]
  cases implicit : settings.implicitDoctype with
  | false =>
      rw [toList_render_bare noDoctype implicit] at facing
      exact ⟨start, [], isLayout_nil, .refl, facing, nothingOpen, nothingRead⟩
  | true =>
      obtain ⟨lineEnd, layout, textEq⟩ := toList_render_implicit noDoctype implicit
      rw [textEq] at facing
      have atStart : start.atStart = true := by
        simp [State.atStart, nothingOpen, nothingRead]
      have leads := Parser.leads_declaration doctypeWord [htmlWord]
        (facing.regroup (List.append_assoc _ _ _)) atStart
      exact ⟨_, lineEnd, layout, leads, facing.after.change (State.declare_lexerFree _),
        nothingOpen, rfl⟩

/-- The output for a plain document without a type is a template, unless it
begins like front matter, and evaluates to a document with the same normal
form, whatever the data are. -/
theorem Document.evaluate_parse_render (noDoctype : document.doctype = none)
    (plain : Node.AllPlain IsPlainName document.children)
    (noMatter : ¬['-', '-', '-'] <+: (document.render settings).toList) (data : Json) :
    ∃ template result, Template.parse (document.render settings) = .ok template ∧
      template.evaluate data = .ok result ∧
      Node.normals result.children = Node.normals document.children := by
  have opens : Lex.opensMatter (document.render settings).toList = false := by
    rw [Lex.opensMatter, Lex.beginsWithDelimiterLine]
    have starts : Text.startsWith Lex.delimiter (document.render settings).toList = false :=
      Bool.eq_false_iff.2 fun starts => noMatter (List.isPrefixOf_iff_prefix.1 starts)
    rw [starts]
    rfl
  obtain ⟨start, lineEnd, layout, leads, facing, nothingOpen, nothingRead⟩ :=
    exists_leads_to_nodes settings noDoctype
  have reads := readsBack_nodes settings document.children 0 plain layout.isPlainText isLayout_nil
    (.inl layout.allWhite)
  rw [Node.normalText_white false layout.allWhite, List.append_nil, List.nil_append] at reads
  obtain ⟨constructs, shown, wellFormed, sourceEq, displays, normalEq⟩ := reads
  rw [← sourceEq] at facing
  obtain ⟨template, parsed, -, -, outlinesEq⟩ := Parser.exists_template_of_leads wellFormed
    (Lex.scanFrontMatter_none opens) leads facing nothingOpen nothingRead
  exact ⟨template, _, parsed, displays.evaluate_eq outlinesEq data, normalEq⟩

/-- A list with an item in it and a comment. -/
def shoppingList : Document :=
  ⟨none,
    [.element "ul" [⟨"class", some "short"⟩, ⟨"id", some ""⟩]
      [.text " " false, .element "li" [] [.text "bread > cake " false, .element "br" [] []],
        .comment " - "]]⟩

theorem allPlain_shoppingList : Node.AllPlain IsPlainName shoppingList.children := by
  have list : IsPlainName "ul" := ⟨⟨'u', ['l'], rfl, rfl, by decide⟩, by decide⟩
  have item : IsPlainName "li" := ⟨⟨'l', ['i'], rfl, rfl, by decide⟩, by decide⟩
  have lineBreak : IsPlainName "br" := ⟨⟨'b', ['r'], rfl, rfl, by decide⟩, by decide⟩
  have kind : IsPlainName "class" := ⟨⟨'c', "lass".toList, rfl, rfl, by decide⟩, by decide⟩
  have mark : IsPlainName "id" := ⟨⟨'i', ['d'], rfl, rfl, by decide⟩, by decide⟩
  have markup : isRawTextElement "ul" = false ∧ isRawTextElement "li" = false ∧
      isRawTextElement "br" = false := by decide
  have notVoid : Parser.isVoid "ul" = false ∧ Parser.isVoid "li" = false := by decide
  have noEnd : ¬['-', '-', '>'] <:+: [' ', '-', ' '] := by decide
  simp [shoppingList, Node.AllPlain, Node.IsPlain, Node.isPlainElement_iff, Node.IsText,
    IsPlainText, Attribute.isPlain_iff, list, item, lineBreak, kind, mark, markup, notVoid, noEnd]

theorem evaluate_parse_render_shoppingList :
    shoppingList.doctype = none ∧ Node.AllPlain IsPlainName shoppingList.children ∧
      ¬['-', '-', '-'] <+: (shoppingList.render ⟨.pretty, 2, false⟩).toList ∧
      ∃ template result,
        Template.parse (shoppingList.render ⟨.pretty, 2, false⟩) = .ok template ∧
          template.evaluate .null = .ok result ∧
          Node.normals result.children = Node.normals shoppingList.children := by
  have noMatter : ¬['-', '-', '-'] <+: (shoppingList.render ⟨.pretty, 2, false⟩).toList := by
    decide +kernel
  exact ⟨rfl, allPlain_shoppingList, noMatter,
    shoppingList.evaluate_parse_render rfl allPlain_shoppingList noMatter .null⟩

/-- An attribute that is named like a truth value is not read back. -/
theorem not_evaluate_parse_render_of_boolean :
    ¬∀ (document : Document) (settings : Settings) (data : Json), document.doctype = none →
      Node.AllPlain (fun name => Lex.IsTagName name.toList) document.children →
      ¬['-', '-', '-'] <+: (document.render settings).toList →
      ∃ template result, Template.parse (document.render settings) = .ok template ∧
        template.evaluate data = .ok result ∧
        Node.normals result.children = Node.normals document.children := by
  intro readsBack
  let document : Document := ⟨none, [.element "a" [⟨"true", none⟩] []]⟩
  let settings : Settings := ⟨.minify, 2, false⟩
  have plain : Node.AllPlain (fun name => Lex.IsTagName name.toList) document.children := by
    have truth : Lex.IsTagName "true".toList := ⟨'t', "rue".toList, rfl, rfl, by decide⟩
    have anchor : IsPlainName "a" := ⟨⟨'a', [], rfl, rfl, rfl⟩, by decide⟩
    refine ⟨⟨⟨anchor, by decide, fun _ => rfl, ?_⟩, trivial⟩, False.elim, trivial⟩
    rintro _ (_ | ⟨_, ⟨⟩⟩)
    exact ⟨truth, by simp⟩
  have noMatter : ¬['-', '-', '-'] <+: (document.render settings).toList := by decide +kernel
  have rejected : (Template.parse (document.render settings)).toBool = false := by
    decide +kernel
  obtain ⟨template, -, parsed, -⟩ := readsBack document settings .null rfl plain noMatter
  rw [parsed] at rejected
  contradiction

end Documents

end Html

end TemplateCompiler
