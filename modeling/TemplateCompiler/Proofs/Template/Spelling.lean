import TemplateCompiler.Proofs.Lex.Recognition
import TemplateCompiler.Proofs.Source.Advance
import TemplateCompiler.Template.Node
import TemplateCompiler.Text.WhiteSpace

/-!
# How a template is spelled

A node of a template stands for a stretch of its source: what its own place
covers, then the stretches of its children, then what ends it.  The relation
below says so for a whole tree and ties every place to the bytes it covers, so a
tree that is spelled by a text accounts for all of it, once and in order.
-/

namespace TemplateCompiler

/-- The mode in which the content of an element is read, unless that is
markup. -/
def Element.contentMode? (tag : Element) : Option LexMode :=
  if tag.isNamed "script" then some .script
  else if tag.isNamed "style" then some .style
  else none

def NodeKind.contentMode? : NodeKind → Option LexMode
  | .element tag => tag.contentMode?
  | _ => none

/-- Whether a piece of text ends an element: an end tag with exactly the name of
the element, or the closing tag of scripts or styles in any ASCII case. -/
def Element.IsEndedBy (piece : List Char) (tag : Element) : Prop :=
  match tag.contentMode? with
  | some .script => Text.equalIgnoreCase "</script>".toList piece = true
  | some _ => Text.equalIgnoreCase "</style>".toList piece = true
  | none => ∃ early late, Text.IsSpaces early ∧ Text.IsSpaces late ∧
      piece = ['<', '/'] ++ (early ++ (tag.name.toList ++ (late ++ ['>'])))

def NodeKind.isText : NodeKind → Bool
  | .text _ => true
  | _ => false

def NodeKind.isCode : NodeKind → Bool
  | .script _ => true
  | _ => false

def NodeKind.isInterpolation : NodeKind → Bool
  | .interpolation _ => true
  | _ => false

/-- Whether a piece of text is what stands in a source for a node without its
children and its end. -/
def NodeKind.IsWritten (piece : List Char) : NodeKind → Prop
  | .document _ => False
  | .element tag => '<' :: tag.name.toList <+: piece ∧ ['>'] <:+ piece
  | .text content | .script content => piece ≠ [] ∧ piece = content.toList
  | .comment content => piece = "<!--".toList ++ content.toList ++ "-->".toList
  | .interpolation _ => ['{', '{'] <+: piece ∧ ['}', '}'] <:+ piece
  | .loop _ => ['@'] <+: piece ∧ ['{'] <:+ piece
  | .block => piece = ['{']

theorem NodeKind.IsWritten.nonempty {kind : NodeKind} {piece : List Char}
    (written : kind.IsWritten piece) : piece ≠ [] := by
  rintro rfl
  cases kind with
  | document head => exact written
  | element tag => simpa using written.1
  | text content | script code => exact written.1 rfl
  | comment content => simp [IsWritten] at written
  | block => simp [IsWritten] at written
  | loop header => simpa using written.1
  | interpolation value => simpa using written.1

/-- Whether a node of a kind is read as a whole: it has neither children nor an
end.  Scripts are left out, because they are read in parts. -/
def NodeKind.IsChildless : NodeKind → Prop
  | .text _ | .comment _ | .interpolation _ => True
  | .element tag => tag.selfClosing = true
  | _ => False

/-- Whether the names of the items in the start tag of an element are read as such. -/
structure Element.ItemsNamed (tag : Element) : Prop where
  attributes : ∀ item ∈ tag.attributes, IsPlainName item.name
  bindings : ∀ item ∈ tag.bindings, IsPlainName item.name
  directives : ∀ item ∈ tag.directives, IsPlainName item.name

/-- Whether the names in the start tag of an element are read as such. -/
structure Element.IsNamed (tag : Element) : Prop extends tag.ItemsNamed where
  name : IsPlainName tag.name

namespace Element.ItemsNamed

variable {element : Element}

theorem ofName (name : String) : (Element.named name).ItemsNamed :=
  ⟨List.forall_mem_nil _, List.forall_mem_nil _, List.forall_mem_nil _⟩

theorem addAttribute {item : Attribute} (known : element.ItemsNamed)
    (isName : IsPlainName item.name) :
    ItemsNamed { element with attributes := element.attributes ++ [item] } :=
  ⟨List.forall_mem_append.2 ⟨known.attributes, List.forall_mem_singleton.2 isName⟩,
    known.bindings, known.directives⟩

theorem addBinding {item : Binding} (known : element.ItemsNamed)
    (isName : IsPlainName item.name) :
    ItemsNamed { element with bindings := element.bindings ++ [item] } :=
  ⟨known.attributes,
    List.forall_mem_append.2 ⟨known.bindings, List.forall_mem_singleton.2 isName⟩,
    known.directives⟩

theorem addDirective {item : Directive} (known : element.ItemsNamed)
    (isName : IsPlainName item.name) :
    ItemsNamed { element with directives := element.directives ++ [item] } :=
  ⟨known.attributes, known.bindings,
    List.forall_mem_append.2 ⟨known.directives, List.forall_mem_singleton.2 isName⟩⟩

end Element.ItemsNamed

/-- Whether a node of a kind has names that are read as such, if it is an element. -/
def NodeKind.IsNamed : NodeKind → Prop
  | .element tag => tag.IsNamed
  | _ => True

/-- Whether a node of a kind is read from its beginning to an end of its own. -/
def NodeKind.IsEnclosing : NodeKind → Prop
  | .element tag => tag.selfClosing = false
  | .block => True
  | _ => False

/-- Whether a piece of text is what ends a node of a kind. -/
def NodeKind.IsEndedBy (piece : List Char) : NodeKind → Prop
  | .element tag => if tag.selfClosing then piece = [] else tag.IsEndedBy piece
  | .block => piece = ['}']
  | _ => piece = []

/-- The last part of what is written for a node that belongs to its first child
as well: the brace at the end of the header of a loop opens its body. -/
def NodeKind.shared : NodeKind → List Char
  | .loop _ => ['{']
  | _ => []

/-- Whether a node of a kind may have some children: a loop has its body, and
most others have none. -/
def NodeKind.Admits (children : List Node) : NodeKind → Prop
  | .element tag => tag.selfClosing = true → children = []
  | .block => True
  | .loop _ => ∃ id position content, children = [.node id .block position content]
  | _ => children = []

/-- Whether a piece of text is what stands in a source for a declaration. -/
def Declaration.IsWritten (piece : List Char) (declaration : Declaration) : Prop :=
  ['<', '!'] ++ declaration.name.toList <+: piece ∧ ['>'] <:+ piece

/-- A place begins behind some text and extends over a piece. -/
structure Position.Marks (before piece : List Char) (position : Position) : Prop where
  offset : position.offset = Text.byteLength before
  length : position.length = some (Text.byteLength piece)

/-- A place covers a piece of a source that stands behind some other text. -/
structure Position.Covers (source before piece : List Char) (position : Position) : Prop where
  span : position.span = ⟨Text.byteLength before, Text.byteLength (before ++ piece)⟩
  slice : Text.slice position.span.start position.span.stop source = piece

theorem Position.covers_of_prefix {source before piece : List Char} {position : Position}
    (short : Text.byteLength source ≤ maxOffset) (ahead : before ++ piece <+: source)
    (offsetEq : position.offset = Text.byteLength before)
    (lengthEq : position.length = some (Text.byteLength piece)) :
    position.Covers source before piece := by
  obtain ⟨tail, rfl⟩ := ahead
  have within : Text.byteLength before + Text.byteLength piece ≤ maxOffset := by
    rw [Text.byteLength_append, Text.byteLength_append] at short
    omega
  have spanEq : position.span = ⟨Text.byteLength before, Text.byteLength (before ++ piece)⟩ := by
    simp only [span, offsetEq, lengthEq, Option.getD_some, Text.byteLength_append,
      Nat.min_eq_left within]
  refine ⟨spanEq, ?_⟩
  rw [spanEq, Text.byteLength_append, List.append_assoc]
  exact Text.slice_byteLength before piece tail

namespace Node

mutual

/-- Whether a piece of a source, behind some other text, spells a node: the text
that the place of the node covers, the spellings of its children, and its end. -/
def Spells (source : List Char) : Node → (before piece : List Char) → Prop
  | .node _ kind position children, before, piece =>
      ∃ own inner closing, piece = own ++ (inner ++ closing) ∧
        position.Covers source before (own ++ kind.shared) ∧
        kind.IsWritten (own ++ kind.shared) ∧ kind.Admits children ∧
        SpellAll source children (before ++ own) inner ∧ kind.IsEndedBy closing

/-- Whether a piece of a source spells nodes, one after the other. -/
def SpellAll (source : List Char) : List Node → (before piece : List Char) → Prop
  | [], _, piece => piece = []
  | first :: others, before, piece =>
      ∃ front rest, piece = front ++ rest ∧ Spells source first before front ∧
        SpellAll source others (before ++ front) rest

end

variable {source before piece : List Char}

theorem spellAll_append {first second : List Node} :
    SpellAll source (first ++ second) before piece ↔
      ∃ front rest, piece = front ++ rest ∧ SpellAll source first before front ∧
        SpellAll source second (before ++ front) rest := by
  induction first generalizing before piece with
  | nil => simp [SpellAll]
  | cons node first ih =>
      simp only [List.cons_append, SpellAll, ih]
      constructor
      · rintro ⟨front, _, rfl, spelled, middle, rest, rfl, spelledFirst, spelledSecond⟩
        exact ⟨front ++ middle, rest, (List.append_assoc _ _ _).symm,
          ⟨front, middle, rfl, spelled, spelledFirst⟩, by rwa [← List.append_assoc]⟩
      · rintro ⟨_, rest, rfl, ⟨front, middle, rfl, spelled, spelledFirst⟩, spelledSecond⟩
        exact ⟨front, middle ++ rest, List.append_assoc _ _ _, spelled, middle, rest, rfl,
          spelledFirst, by rwa [List.append_assoc]⟩

@[simp]
theorem spellAll_singleton {node : Node} :
    SpellAll source [node] before piece ↔ Spells source node before piece := by
  simp [SpellAll]

theorem SpellAll.concat {nodes : List Node} {node : Node} {last : List Char}
    (spelled : SpellAll source nodes before piece)
    (spelledLast : Spells source node (before ++ piece) last) :
    SpellAll source (nodes ++ [node]) before (piece ++ last) :=
  spellAll_append.2 ⟨piece, last, rfl, spelled, spellAll_singleton.2 spelledLast⟩

theorem SpellAll.push {nodes : List Node} {node : Node} {last : List Char}
    (spelled : SpellAll source nodes.reverse before piece)
    (spelledLast : Spells source node (before ++ piece) last) :
    SpellAll source (node :: nodes).reverse before (piece ++ last) := by
  rw [List.reverse_cons]
  exact spelled.concat spelledLast

/-- A node with no text but white space. -/
def IsBlank (node : Node) : Prop :=
  ∃ content, node.kind = .text content ∧ Text.isBlank content = true

/-- The characters of a text. -/
def ownText (node : Node) : List Char :=
  match node.kind with
  | .text content => content.toList
  | _ => []

theorem white_of_isBlank {nodes : List Node} (blank : ∀ node ∈ nodes, node.IsBlank) :
    ∀ c ∈ nodes.flatMap ownText, Text.isWhiteSpace c = true := by
  intro c member
  obtain ⟨node, among, inNode⟩ := List.mem_flatMap.1 member
  obtain ⟨content, kindEq, isBlank⟩ := blank node among
  rw [ownText, kindEq] at inNode
  exact List.all_eq_true.1 isBlank c inNode

/-- A text without anything but white space is spelled by its characters. -/
theorem Spells.of_isBlank {node : Node} (spelled : Spells source node before piece)
    (blank : node.IsBlank) :
    piece = node.ownText ∧ node.position.Covers source before node.ownText := by
  obtain ⟨id, kind, position, children⟩ := node
  obtain ⟨content, kindEq, -⟩ := blank
  obtain rfl : kind = .text content := kindEq
  obtain ⟨own, inner, closing, rfl, covers, ⟨-, ownEq⟩, rfl, rfl, rfl⟩ := spelled
  simp only [NodeKind.shared, List.append_nil] at covers ownEq ⊢
  subst ownEq
  exact ⟨rfl, covers⟩

theorem SpellAll.of_isBlank {nodes : List Node} (spelled : SpellAll source nodes before piece)
    (blank : ∀ node ∈ nodes, node.IsBlank) :
    piece = nodes.flatMap ownText ∧ ∀ node ∈ nodes,
      Text.slice node.position.span.start node.position.span.stop source = node.ownText := by
  induction nodes generalizing before piece with
  | nil => exact ⟨spelled, nofun⟩
  | cons first others ih =>
      obtain ⟨blankFirst, blankOthers⟩ := List.forall_mem_cons.1 blank
      obtain ⟨front, rest, rfl, spelledFirst, spelledOthers⟩ := spelled
      obtain ⟨rfl, covers⟩ := spelledFirst.of_isBlank blankFirst
      obtain ⟨rfl, slices⟩ := ih spelledOthers blankOthers
      exact ⟨List.flatMap_cons.symm, List.forall_mem_cons.2 ⟨covers.slice, slices⟩⟩

theorem SpellAll.white {nodes : List Node} (spelled : SpellAll source nodes before piece)
    (blank : ∀ node ∈ nodes, node.IsBlank) : ∀ c ∈ piece, Text.isWhiteSpace c = true := by
  rw [(spelled.of_isBlank blank).1]
  exact white_of_isBlank blank

mutual

/-- The bytes at which a node and the nodes below it begin, each node before its
children. -/
def starts : Node → List Nat
  | .node _ _ position children => position.offset :: startsAll children

/-- The bytes at which nodes and the nodes below them begin. -/
def startsAll : List Node → List Nat
  | [] => []
  | first :: others => starts first ++ startsAll others

end

theorem own_nonempty {kind : NodeKind} {own : List Char}
    (written : kind.IsWritten (own ++ kind.shared)) : own ≠ [] := by
  rintro rfl
  cases kind with
  | loop header => simp [NodeKind.IsWritten, NodeKind.shared] at written
  | _ => exact written.nonempty rfl

mutual

/-- The nodes of a spelled tree begin one after the other. -/
theorem Spells.starts_increasing :
    ∀ {node : Node} {before piece : List Char}, Spells source node before piece →
      (starts node).Pairwise (· < ·) ∧ ∀ start ∈ starts node,
        Text.byteLength before ≤ start ∧ start < Text.byteLength (before ++ piece)
  | .node id kind position children, before, piece, spelled => by
      obtain ⟨own, inner, closing, rfl, covers, written, -, spelledInner, -⟩ := spelled
      obtain ⟨increasing, within⟩ := SpellAll.starts_increasing spelledInner
      have positive := Text.byteLength_pos (own_nonempty written)
      have offsetEq : position.offset = Text.byteLength before :=
        congrArg Span.start covers.span
      simp only [Text.byteLength_append] at within ⊢
      rw [starts, offsetEq]
      refine ⟨List.pairwise_cons.2 ⟨fun start member => ?_, increasing⟩, fun start member => ?_⟩
      · have := (within start member).1
        omega
      · rcases List.mem_cons.1 member with rfl | member
        · omega
        · have := within start member
          omega

theorem SpellAll.starts_increasing :
    ∀ {nodes : List Node} {before piece : List Char}, SpellAll source nodes before piece →
      (startsAll nodes).Pairwise (· < ·) ∧ ∀ start ∈ startsAll nodes,
        Text.byteLength before ≤ start ∧ start < Text.byteLength (before ++ piece)
  | [], before, piece, spelled => by simp [startsAll]
  | first :: others, before, piece, spelled => by
      obtain ⟨front, rest, rfl, spelledFirst, spelledOthers⟩ := spelled
      obtain ⟨increasing, within⟩ := Spells.starts_increasing spelledFirst
      obtain ⟨increasingOthers, withinOthers⟩ := SpellAll.starts_increasing spelledOthers
      simp only [Text.byteLength_append] at within withinOthers ⊢
      rw [startsAll]
      refine ⟨List.pairwise_append.2 ⟨increasing, increasingOthers,
        fun start member later laterMember => ?_⟩, fun start member => ?_⟩
      · have := within start member
        have := withinOthers later laterMember
        omega
      · rcases List.mem_append.1 member with member | member
        · have := within start member
          omega
        · have := withinOthers start member
          omega

end

end Node

/-- Whether a piece of a source, behind some other text, spells the
declarations of a template: each may have white space before it, which is the
text of nodes that were dropped. -/
inductive SpellDeclarations (source before : List Char) :
    List Declaration → List Node → List Char → Prop
  | nil : SpellDeclarations source before [] [] []
  | concat {declarations : List Declaration} {dropped : List Node} {piece : List Char}
      {texts : List Node} {blank own : List Char} {declaration : Declaration}
      (earlier : SpellDeclarations source before declarations dropped piece)
      (spelled : Node.SpellAll source texts (before ++ piece) blank)
      (white : ∀ c ∈ blank, Text.isWhiteSpace c = true)
      (covers : declaration.position.Covers source (before ++ (piece ++ blank)) own)
      (written : declaration.IsWritten own) :
      SpellDeclarations source before (declarations ++ [declaration]) (dropped ++ texts)
        (piece ++ (blank ++ own))

end TemplateCompiler
