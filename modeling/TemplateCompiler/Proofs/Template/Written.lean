import TemplateCompiler.Parse.Tag
import TemplateCompiler.Proofs.Lex.Recognition
import TemplateCompiler.Proofs.Template.Spelling

/-!
# What an author writes

A template as it is written: constructs inside constructs, each with the freedom
that the language leaves, such as the white space between the attributes of a
tag.  What is not legal anywhere cannot be built; the two rules about
neighbours, on texts and on braces, are stated apart.

Every construct has a source text, and an outline, which is what a reader of the
template is interested in: the kinds of its nodes and how they are nested.
-/

namespace TemplateCompiler

namespace Written

/-- White space that separates. -/
structure Gap where
  text : List Char
  nonempty : text ≠ []
  isSpaces : Text.IsSpaces text

/-- White space, or nothing. -/
structure Spaces where
  text : List Char
  isSpaces : Text.IsSpaces text

/-- The name of a tag or an attribute, which is no truth value. -/
structure TagName where
  text : String
  isName : Lex.IsTagName text.toList
  notBoolean : Lex.booleanWord? text.toList = none

/-- The name of an element that is neither a script nor a style. -/
structure ElementName extends TagName where
  ordinary : (Element.named text).contentMode? = none

/-- The name of an element that may have content. -/
structure ContainerName extends ElementName where
  notVoid : Parser.isVoid text = false

/-- The name of a variable, which is no truth value. -/
structure VariableName where
  text : String
  isName : Lex.IsVariableName text.toList
  notBoolean : Lex.booleanWord? text.toList = none

section Tags

/-- An attribute, a binding or a directive. -/
inductive Item where
  | attribute (name : TagName) (value : Option String)
  | binding (direction : BindingDirection) (name : TagName) (expression : String)
  | directive (name : TagName) (expression : Option String)

/-- What stands between the name of a tag and its end. -/
structure Items where
  entries : List (Gap × Item)
  trailing : Spaces

/-- An equals sign and a string, if there is a value. -/
def valueSource : Option String → List Char
  | some value => '=' :: Lex.quote value
  | none => []

/-- An item as it is written. -/
def Item.source : Item → List Char
  | .attribute name value => name.text.toList ++ valueSource value
  | .binding .inward name expression =>
      ['['] ++ (name.text.toList ++ ([']'] ++ ('=' :: Lex.quote expression)))
  | .binding .outward name expression =>
      ['('] ++ (name.text.toList ++ ([')'] ++ ('=' :: Lex.quote expression)))
  | .binding .both name expression =>
      ['['] ++ (['('] ++ (name.text.toList ++ ([')'] ++ ([']'] ++ ('=' :: Lex.quote expression)))))
  | .directive name expression => ['*'] ++ (name.text.toList ++ valueSource expression)

/-- An element with one more item. -/
def Item.addTo (element : Element) : Item → Element
  | .attribute name value =>
      { element with attributes := element.attributes ++ [⟨name.text, value⟩] }
  | .binding direction name expression =>
      { element with bindings := element.bindings ++ [⟨name.text, expression, direction⟩] }
  | .directive name expression =>
      { element with directives := element.directives ++ [⟨name.text, expression⟩] }

/-- Items as they are written, each behind its gap. -/
def entriesSource (entries : List (Gap × Item)) : List Char :=
  entries.flatMap fun entry => entry.1.text ++ entry.2.source

def Items.source (items : Items) : List Char :=
  entriesSource items.entries ++ items.trailing.text

def addEntries (element : Element) (entries : List (Gap × Item)) : Element :=
  entries.foldl (fun element entry => entry.2.addTo element) element

def Items.element (name : TagName) (items : Items) : Element :=
  addEntries (.named name.text) items.entries

def closing (selfClosing : Bool) : List Char :=
  if selfClosing then ['/', '>'] else ['>']

def startTagSource (name : TagName) (items : Items) (selfClosing : Bool) : List Char :=
  ['<'] ++ (name.text.toList ++ (items.source ++ closing selfClosing))

def endTagSource (name : TagName) : List Char :=
  ['<'] ++ (['/'] ++ (name.text.toList ++ ['>']))

end Tags

section Expressions

/-- A variable, and the properties to follow from there. -/
structure Lookup where
  root : VariableName
  rest : List VariableName

/-- The properties of a lookup, each behind a point. -/
def propertiesSource (properties : List VariableName) : List Char :=
  properties.flatMap fun property => '.' :: property.text.toList

def Lookup.source (lookup : Lookup) : List Char :=
  lookup.root.text.toList ++ propertiesSource lookup.rest

def Lookup.path (lookup : Lookup) : Path :=
  ⟨lookup.root.text, lookup.rest.map (·.text)⟩

/-- What an interpolation shows. -/
inductive Value where
  | path (lookup : Lookup)
  | string (content : String)
  | boolean (truth : Bool)

def Value.source : Value → List Char
  | .path lookup => lookup.source
  | .string content => Lex.quote content
  | .boolean true => "true".toList
  | .boolean false => "false".toList

def Value.expression : Value → Expr
  | .path lookup => .path lookup.path
  | .string content => .string content
  | .boolean truth => .boolean truth

def interpolationSource (value : Value) : List Char :=
  ['{', '{'] ++ ([' '] ++ (value.source ++ ([' '] ++ ['}', '}'])))

/-- What stands in the header of a loop. -/
structure LoopHead where
  item : VariableName
  preposition : VariableName
  collection : Lookup

/-- The inside of the brackets of a loop, as it is written. -/
def LoopHead.inside (head : LoopHead) : List Char :=
  head.item.text.toList ++
    ([' '] ++ (head.preposition.text.toList ++ ([' '] ++ head.collection.source)))

/-- What stands between the keyword of a loop and its brace. -/
def LoopHead.behindKeyword (head : LoopHead) : List Char :=
  [' '] ++ (['('] ++ (head.inside ++ ([')'] ++ [' '])))

/-- The header of a loop as it is written, up to the brace. -/
def LoopHead.source (head : LoopHead) : List Char :=
  ['@'] ++ ("for".toList ++ head.behindKeyword)

def LoopHead.loop (head : LoopHead) : Loop :=
  ⟨head.item.text, head.preposition.text, head.collection.path, Loop.indexName⟩

end Expressions

section Constructs

/-- A text that holds nothing but text. -/
structure PlainText where
  content : String
  nonempty : content.toList ≠ []
  plain : ∀ c ∈ content.toList, c ∉ ['<', '{', '}', '@', '&']

/-- The text of a comment, which does not hold the end of one. -/
structure CommentText where
  content : String
  noEnd : ¬['-', '-', '>'] <:+: content.toList

def CommentText.source (comment : CommentText) : List Char :=
  ['<', '!', '-', '-'] ++ (comment.content.toList ++ ['-', '-', '>'])

/-- A construct of a template. -/
inductive Construct where
  | text (content : PlainText)
  | comment (content : CommentText)
  | interpolation (value : Value)
  /-- An element that is closed by its start tag: with a slash, or because it is
  void. -/
  | empty (name : ElementName) (items : Items) (slash : Bool)
      (closed : (slash || Parser.isVoid name.text) = true)
  | element (name : ContainerName) (items : Items) (content : List Construct)
  | block (content : List Construct)
  | loop (head : LoopHead) (content : List Construct)

/-- The kinds of nodes and how they are nested. -/
inductive Outline where
  | mk (kind : NodeKind) (children : List Outline)

namespace Construct

mutual

def source : Construct → List Char
  | .text content => content.content.toList
  | .comment content => content.source
  | .interpolation value => interpolationSource value
  | .empty name items slash _ => startTagSource name.toTagName items slash
  | .element name items content =>
      startTagSource name.toTagName items false ++ (sources content ++ endTagSource name.toTagName)
  | .block content => ['{'] ++ (sources content ++ ['}'])
  | .loop head content => head.source ++ (['{'] ++ (sources content ++ ['}']))

def sources : List Construct → List Char
  | [] => []
  | first :: others => source first ++ sources others

end

mutual

/-- The outline of a construct.  A loop holds its body, which holds the content
of the loop. -/
def outline : Construct → Outline
  | .text content => .mk (.text content.content) []
  | .comment content => .mk (.comment content.content) []
  | .interpolation value => .mk (.interpolation value.expression) []
  | .empty name items _ _ =>
      .mk (.element { items.element name.toTagName with selfClosing := true }) []
  | .element name items content => .mk (.element (items.element name.toTagName)) (outlines content)
  | .block content => .mk .block (outlines content)
  | .loop head content => .mk (.loop head.loop) [.mk .block (outlines content)]

def outlines : List Construct → List Outline
  | [] => []
  | first :: others => outline first :: outlines others

end

def IsText : Construct → Prop
  | .text _ => True
  | _ => False

/-- Whether a construct begins with a brace. -/
def IsBraced : Construct → Prop
  | .interpolation _ | .block _ => True
  | _ => False

mutual

/-- Whether no two texts are neighbours in a construct, and none of its blocks
begins with two braces. -/
def WellFormed : Construct → Prop
  | .text _ | .comment _ | .interpolation _ | .empty _ _ _ _ => True
  | .element _ _ content | .loop _ content => AllWellFormed content
  | .block content => (∀ first ∈ content.head?, ¬first.IsBraced) ∧ AllWellFormed content

/-- Whether no two texts are neighbours in constructs that follow each other, and
none of the blocks begins with two braces. -/
def AllWellFormed : List Construct → Prop
  | [] => True
  | first :: others =>
      WellFormed first ∧ (first.IsText → ∀ next ∈ others.head?, ¬next.IsText) ∧
        AllWellFormed others

end

end Construct

end Constructs

end Written

namespace Node

open Written

mutual

def outline : Node → Outline
  | .node _ kind _ children => .mk kind (outlines children)

def outlines : List Node → List Outline
  | [] => []
  | first :: others => outline first :: outlines others

end

theorem outlines_append (first second : List Node) :
    outlines (first ++ second) = outlines first ++ outlines second := by
  induction first with
  | nil => rfl
  | cons node first ih => simp [outlines, ih]

end Node

end TemplateCompiler
