import TemplateCompiler.Proofs.Eval.ShapedTemplates
import TemplateCompiler.Proofs.Html.Layout
import TemplateCompiler.Proofs.Parse.EmbeddedCode

/-!
# Embedded code passes through

Scripts and styles are taken from their source to the output without a change of
the code in them.  Every time one of them is reached it is written between its
tags as it stands in the source, except that an interpolation in a script is
replaced by what it shows.  The mode of rendering makes no difference.
-/

namespace TemplateCompiler

namespace Eval

/-- What the rounds of a loop give one after the other, counted from `index`. -/
def eachRound {α : Type} (environment : Environment) (header : Loop)
    (body : Environment → List α) : (index : Nat) → List Json → List α
  | _, [] => []
  | index, item :: items =>
      body (roundIn environment header item index)
        ++ eachRound environment header body (index + 1) items

mutual

/-- The scripts and styles with content that are reached from a node, in order,
and the environment in which each one is reached. -/
def occurrences : Node → Environment → List (Node × Environment)
  | .node id kind position children, environment =>
      match kind with
      | .element tag =>
          if tag.contentMode?.isSome then
            if children.isEmpty then []
            else [(.node id (.element tag) position children, environment)]
          else occurrencesAll children environment
      | .block => occurrencesAll children environment
      | .loop header =>
          match itemsIn environment position header with
          | .ok items => eachRound environment header (bodyOccurrences children) 0 items
          | .error _ => []
      | _ => []

def occurrencesAll : List Node → Environment → List (Node × Environment)
  | [], _ => []
  | first :: others, environment =>
      occurrences first environment ++ occurrencesAll others environment

/-- Those that are reached from the first block in a list. -/
def bodyOccurrences : List Node → Environment → List (Node × Environment)
  | [], _ => []
  | .node _ kind _ children :: others, environment =>
      if kind.isBlock then occurrencesAll children environment
      else bodyOccurrences others environment

end

/-- Whether a text is shown for a part of a script or a style: the part itself,
or the value of an interpolation. -/
def FillsPart (environment : Environment) (node : Node) (before piece shown : List Char) : Prop :=
  match node.kind with
  | .text content | .script content => piece = content.toList ∧ shown = piece
  | .interpolation expression =>
      (NodeKind.interpolation expression).IsWritten piece ∧ node.position.Marks before piece ∧
        ∃ value, shownIn environment node.position expression = .ok value ∧ shown = value.toList
  | _ => False

/-- Whether a text is what is shown for the content of a script or a style, part
by part. -/
def Fills (environment : Environment) : List Node → (before inner shown : List Char) → Prop
  | [], _, inner, shown => inner = [] ∧ shown = []
  | first :: others, before, inner, shown =>
      ∃ piece rest text further, inner = piece ++ rest ∧ shown = text ++ further ∧
        FillsPart environment first before piece text ∧
        Fills environment others (before ++ piece) rest further

/-- A script or a style of the output shows a node of the template in an
environment.  Of a style nothing is replaced. -/
structure Embeds (source : List Char) (environment : Environment) (tag : Element) (node : Node)
    (element : Html.CodeElement) (before own inner closing after : List Char) : Prop where
  sourceEq : source = before ++ (own ++ (inner ++ (closing ++ after)))
  marks : node.position.Marks before own
  written : (NodeKind.element tag).IsWritten own
  ended : tag.IsEndedBy closing
  name : element.name = tag.name
  attributes : element.attributes = tag.attributes
  fills : Fills environment node.children (before ++ own) inner (Html.write element.content).toList
  style : tag.contentMode? ≠ some .script → (Html.write element.content).toList = inner

def ShowsCode (source : List Char) (occurrence : Node × Environment)
    (element : Html.CodeElement) : Prop :=
  ∃ tag before own inner closing after, occurrence.1.kind = .element tag ∧
    Embeds source occurrence.2 tag occurrence.1 element before own inner closing after

variable {source before inner : List Char} {environment : Environment} {inStyle : Bool}

theorem expansions_cons_ok {first : Node} {others : List Node} {shown : List Html.Node}
    (expanded : expansions inStyle (first :: others) environment = .ok shown) :
    ∃ front rest, expansion inStyle first environment = .ok front ∧
      expansions inStyle others environment = .ok rest ∧ shown = front ++ rest := by
  obtain ⟨front, expandedFirst, expanded⟩ := ok_of_bind expanded
  obtain ⟨rest, expandedOthers, expanded⟩ := ok_of_bind expanded
  cases expanded
  exact ⟨front, rest, expandedFirst, expandedOthers, rfl⟩

theorem verbatims_append (first second : List Html.Node) :
    Html.Node.verbatims (first ++ second) =
      Html.Node.verbatims first ++ Html.Node.verbatims second := by
  induction first with
  | nil => rfl
  | cons node first ih =>
      rw [List.cons_append, Html.Node.verbatims, Html.Node.verbatims, ih, List.append_assoc]

/-- A part of a script or a style expands to one text. -/
theorem fillsPart_of_expansion {node : Node} {piece : List Char} {shown : List Html.Node}
    (part : node.IsPartOfCode before piece)
    (expanded : expansion inStyle node environment = .ok shown) :
    ∃ text raw, shown = [.text text raw] ∧ FillsPart environment node before piece text.toList := by
  obtain ⟨id, kind, position, children⟩ := node
  cases kind with
  | text content =>
      cases expanded
      obtain rfl : piece = content.toList := part
      exact ⟨content, inStyle, rfl, rfl, rfl⟩
  | script code =>
      cases expanded
      obtain rfl : piece = code.toList := part
      exact ⟨code, true, rfl, rfl, rfl⟩
  | interpolation expression =>
      obtain ⟨written, marks⟩ := part
      obtain ⟨value, shownEq, expanded⟩ := ok_of_bind expanded
      cases expanded
      exact ⟨value, false, rfl, written, marks, value, shownEq, rfl⟩
  | _ => exact part.elim

theorem fills_of_expansions {nodes : List Node} {shown : List Html.Node}
    (divided : Node.DivideCode nodes before inner)
    (expanded : expansions inStyle nodes environment = .ok shown) :
    Fills environment nodes before inner
      (Html.write (Html.Node.verbatims shown)).toList := by
  induction nodes generalizing before inner shown with
  | nil =>
      cases expanded
      exact ⟨divided, rfl⟩
  | cons first others ih =>
      obtain ⟨piece, rest, rfl, part, dividedRest⟩ := divided
      obtain ⟨front, further, expandedFirst, expandedOthers, rfl⟩ := expansions_cons_ok expanded
      obtain ⟨text, raw, rfl, fillsFirst⟩ := fillsPart_of_expansion part expandedFirst
      refine ⟨piece, rest, _, _, rfl, ?_, fillsFirst, ih dividedRest expandedOthers⟩
      rw [verbatims_append, Html.toList_write, Html.toList_write, Html.characters_append]
      simp [Html.Node.verbatims, Html.Node.verbatim, Html.Emission.written]

/-- What is shown for texts alone is the texts. -/
theorem Fills.eq_of_texts {nodes : List Node} {shown : List Char}
    (fills : Fills environment nodes before inner shown)
    (texts : ∀ node ∈ nodes, node.kind.isText = true) : shown = inner := by
  induction nodes generalizing before inner shown with
  | nil => rw [fills.1, fills.2]
  | cons first others ih =>
      obtain ⟨piece, rest, text, further, rfl, rfl, fillsFirst, fillsOthers⟩ := fills
      rw [ih fillsOthers fun node member => texts node (List.mem_cons_of_mem first member)]
      have isText := texts first List.mem_cons_self
      obtain ⟨id, kind, position, children⟩ := first
      cases kind with
      | text content => rw [fillsFirst.2]
      | _ => cases isText

theorem embedsCode_eq (tag : Element) :
    Html.embedsCode tag.name = tag.contentMode?.isSome := by
  change (tag.isNamed "script" || tag.isNamed "style") = _
  unfold Element.contentMode?
  cases tag.isNamed "script" <;> cases tag.isNamed "style" <;> rfl

theorem texts_of_fits {tag : Element} {children : List Node}
    (fits : (NodeKind.element tag).Fits children) (embeds : tag.contentMode? ≠ none)
    (notScript : tag.contentMode? ≠ some .script) :
    ∀ child ∈ children, child.kind.isText = true := by
  intro child member
  cases selfClosing : tag.selfClosing with
  | true =>
      simp only [NodeKind.Fits, selfClosing, if_true] at fits
      simp [fits.2] at member
  | false =>
      have content := ((NodeKind.fits_element selfClosing).1 fits).2
      split at content
      · next inMarkup => exact absurd inMarkup embeds
      · next script => exact absurd script notScript
      · rcases content with rfl | ⟨only, rfl, isText⟩
        · cases member
        · rw [List.mem_singleton.1 member]
          exact isText

/-- A script or a style with content is shown between its tags. -/
theorem showsCode_element {id : Nat} {tag : Element} {position : Position}
    {children : List Node} {content : List Html.Node}
    (fits : (NodeKind.element tag).Fits children)
    (sourced : Node.IsSourced source (.node id (.element tag) position children))
    (embeds : tag.contentMode? ≠ none) (nonempty : children ≠ [])
    (expanded : expansions inStyle children environment = .ok content) :
    content ≠ [] ∧
      ShowsCode source (.node id (.element tag) position children, environment)
        ⟨tag.name, tag.attributes, Html.Node.verbatims content⟩ := by
  obtain ⟨before, own, inner, closing, ⟨after, sourceEq⟩, marks, written, ended, divided⟩ :=
    sourced.1 tag rfl embeds nonempty
  have fills := fills_of_expansions divided expanded
  constructor
  · cases children with
    | nil => contradiction
    | cons first others =>
        obtain ⟨piece, rest, -, part, -⟩ := divided
        obtain ⟨front, further, expandedFirst, -, rfl⟩ := expansions_cons_ok expanded
        obtain ⟨text, raw, rfl, -⟩ := fillsPart_of_expansion part expandedFirst
        exact List.cons_ne_nil _ _
  · refine ⟨tag, before, own, inner, closing, after, rfl, ?_, marks, written, ended, rfl, rfl,
      fills, fun notScript => fills.eq_of_texts (texts_of_fits fits embeds notScript)⟩
    rw [← sourceEq]
    simp

theorem showsCode_roundsIn {header : Loop} {body : Environment → Expansion}
    {found : Environment → List (Node × Environment)}
    (shows : ∀ environment shown, body environment = .ok shown →
      List.Forall₂ (ShowsCode source) (found environment) (Html.Node.codesAll shown))
    {index : Nat} {items : List Json} {shown : List Html.Node}
    (expanded : roundsIn environment header body index items = .ok shown) :
    List.Forall₂ (ShowsCode source) (eachRound environment header found index items)
      (Html.Node.codesAll shown) := by
  induction items generalizing index shown with
  | nil =>
      cases expanded
      exact .nil
  | cons item items ih =>
      obtain ⟨front, first, expanded⟩ := ok_of_bind expanded
      obtain ⟨rest, others, expanded⟩ := ok_of_bind expanded
      cases expanded
      rw [Html.Node.codesAll_append]
      exact List.rel_append (shows _ front first) (ih others)

mutual

/-- The scripts and styles that a node expands to show those that are reached
from it. -/
theorem showsCode_expansion (source : List Char) (inStyle : Bool) :
    (node : Node) → (environment : Environment) → node.IsFit → node.IsSourced source →
      ∀ shown, expansion inStyle node environment = .ok shown →
        List.Forall₂ (ShowsCode source) (occurrences node environment)
          (Html.Node.codesAll shown)
  | .node id kind position children, environment, fit, sourced, shown, expanded => by
      obtain ⟨fits, below⟩ := Node.isFit_iff.1 fit
      cases kind with
      | document head => exact fits.elim
      | element tag =>
          obtain ⟨inside, content, expanded⟩ := ok_of_bind expanded
          cases expanded
          simp only [occurrences, Html.Node.codesAll, Html.Node.codes, List.append_nil,
            embedsCode_eq]
          cases embeds : tag.contentMode? with
          | none =>
              exact showsCode_expansions source _ children environment below sourced.2 inside
                content
          | some mode =>
              have someMode : tag.contentMode? ≠ none := by simp [embeds]
              cases children with
              | nil =>
                  cases content
                  exact .nil
              | cons first others =>
                  obtain ⟨nonempty, shows⟩ := showsCode_element fits sourced someMode
                    (List.cons_ne_nil _ _) content
                  cases inside with
                  | nil => contradiction
                  | cons node nodes => exact .cons shows .nil
      | text content | comment content | script code =>
          cases expanded
          exact .nil
      | interpolation expression =>
          obtain ⟨text, value, expanded⟩ := ok_of_bind expanded
          cases expanded
          exact .nil
      | block =>
          exact showsCode_expansions source false children environment below sourced.2 shown
            expanded
      | loop header =>
          have body := showsCode_body source children below sourced.2
          simp only [expansion, kindIn, occurrences] at expanded ⊢
          cases meaning : bodyExpansion? children with
          | none =>
              rw [meaning] at expanded
              cases expanded
          | some expand =>
              rw [meaning] at expanded
              obtain ⟨items, found, expanded⟩ := ok_of_bind expanded
              rw [found]
              exact showsCode_roundsIn (body expand meaning) expanded

theorem showsCode_expansions (source : List Char) (inStyle : Bool) :
    (nodes : List Node) → (environment : Environment) → Node.AllFit nodes →
      Node.AllSourced source nodes → ∀ shown, expansions inStyle nodes environment = .ok shown →
        List.Forall₂ (ShowsCode source) (occurrencesAll nodes environment)
          (Html.Node.codesAll shown)
  | [], _, _, _, shown, expanded => by
      cases expanded
      exact .nil
  | first :: others, environment, fit, sourced, shown, expanded => by
      obtain ⟨front, rest, expandedFirst, expandedOthers, rfl⟩ := expansions_cons_ok expanded
      rw [occurrencesAll, Html.Node.codesAll_append]
      exact List.rel_append
        (showsCode_expansion source inStyle first environment fit.1 sourced.1 front expandedFirst)
        (showsCode_expansions source inStyle others environment fit.2 sourced.2 rest expandedOthers)

theorem showsCode_body (source : List Char) :
    (nodes : List Node) → Node.AllFit nodes → Node.AllSourced source nodes →
      ∀ expand, bodyExpansion? nodes = some expand → ∀ environment shown,
        expand environment = .ok shown →
          List.Forall₂ (ShowsCode source) (bodyOccurrences nodes environment)
            (Html.Node.codesAll shown)
  | [], _, _, _, found, _, _, _ => nomatch found
  | .node _ kind _ children :: others, fit, sourced, expand, found, environment, shown,
      expanded => by
      rw [bodyExpansion?_cons] at found
      simp only [bodyOccurrences]
      cases isBlock : kind.isBlock with
      | true =>
          rw [isBlock, if_pos rfl, Option.some.injEq] at found
          rw [← found] at expanded
          exact showsCode_expansions source false children environment (Node.isFit_iff.1 fit.1).2
            sourced.1.2 shown expanded
      | false =>
          rw [isBlock, if_neg Bool.false_ne_true] at found
          exact showsCode_body source others fit.2 sourced.2 expand found environment shown expanded

end

end Eval

/-- In every output of a source, whatever the settings are, the scripts and
styles with content are those that are reached in its template, in order and each
as often as it is reached, and each has between its tags what stands there in the
source, with the values of its interpolations. -/
theorem Source.compile_embeds {source : Source} {data : Json} {settings : Html.Settings}
    {compiled : Compiled} (compiles : source.compile data settings = .ok compiled) :
    ∃ template document elements, source.parse = .ok template ∧
      template.evaluate data = .ok document ∧
      List.Forall₂ (Eval.ShowsCode source.text.toList)
        (Eval.occurrencesAll template.children (.ofData data)) elements ∧
      ∀ other : Html.Settings,
        source.compile data other =
            .ok ⟨Html.write ((document.passages other).flatMap Html.Passage.emissions),
              compiled.frontMatter⟩ ∧
          (document.passages other).filterMap Html.Passage.code? = elements := by
  rcases source.evaluate_cases data with ⟨error, parsed, refused⟩ | ⟨template, parsed, found⟩
  · rw [Source.compile, refused] at compiles
    cases compiles
  · cases evaluated : template.evaluate data with
    | error error =>
        rw [evaluated] at found
        rw [Source.compile, found] at compiles
        cases compiles
    | ok document =>
        rw [evaluated] at found
        have frontMatterEq : compiled.frontMatter = template.document.frontMatter := by
          rw [Source.compile, found] at compiles
          cases compiles
          rfl
        refine ⟨template, document, Html.Node.codesAll document.children, ?_, evaluated, ?_,
          fun other => ⟨?_, ?_⟩⟩
        · rw [Source.parse, parsed]
          rfl
        · have shaped := Parser.shaped_of_parse parsed
          have sourced := Parser.sourced_of_parse parsed
          rw [template.evaluate_eq, Template.expansion] at evaluated
          obtain ⟨shown, expanded, evaluated⟩ := Eval.ok_of_bind evaluated
          cases evaluated
          exact Eval.showsCode_expansions _ false template.children _ shaped.below sourced shown
            expanded
        · rw [Source.compile, found, Html.Document.flatMap_passages, frontMatterEq]
          rfl
        · exact Html.Document.filterMap_passages other document

/-- A script in a loop, with stray braces in its code, and a style. -/
def Source.codeInLoop : Source :=
  ⟨"code", "<pre>@for (x of xs) \x7b<script> a \x7b\x7bx\x7d\x7d \x7d\x7d b</script>\x7d</pre>" ++
    "<STYLE> c\n</style>"⟩

theorem Source.compile_embeds_codeInLoop :
    let data : Json := .object [("xs", .array [.string "p", .string "q"])]
    ∃ compiled, codeInLoop.compile data .standard = .ok compiled ∧
      ∃ template document elements, codeInLoop.parse = .ok template ∧
        template.evaluate data = .ok document ∧
        List.Forall₂ (Eval.ShowsCode codeInLoop.text.toList)
          (Eval.occurrencesAll template.children (.ofData data)) elements ∧
        ∀ other : Html.Settings,
          codeInLoop.compile data other =
              .ok ⟨Html.write ((document.passages other).flatMap Html.Passage.emissions),
                compiled.frontMatter⟩ ∧
            (document.passages other).filterMap Html.Passage.code? = elements := by
  intro data
  have succeeds : (codeInLoop.compile data .standard).toBool = true := by decide +kernel
  cases compiles : codeInLoop.compile data .standard with
  | error diagnostic =>
      rw [compiles] at succeeds
      contradiction
  | ok compiled => exact ⟨compiled, rfl, Source.compile_embeds compiles⟩

end TemplateCompiler
