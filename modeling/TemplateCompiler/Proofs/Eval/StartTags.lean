import TemplateCompiler.Proofs.Eval.EmbeddedCode
import TemplateCompiler.Proofs.Html.StartTags
import TemplateCompiler.Proofs.Parse.Kinds

/-!
# Which start tags are shown

A template shows a start tag for every element that is reached in it, with the name
and the attributes of the element: one that is in a loop, for each round.
-/

namespace TemplateCompiler

/-- The start tag that an element of a template is shown with. -/
def Element.startTag (tag : Element) : Html.StartTag :=
  ⟨tag.name, tag.attributes⟩

namespace Eval

open Html.Node

mutual

/-- The elements that are reached from a node, each before those of its content. -/
def reached : Node → Environment → List Element
  | .node _ kind position children, environment =>
      match kind with
      | .element tag => tag :: reachedAll children environment
      | .block => reachedAll children environment
      | .loop header =>
          match itemsIn environment position header with
          | .ok items => eachRound environment header (reachedInBody children) 0 items
          | .error _ => []
      | _ => []

def reachedAll : List Node → Environment → List Element
  | [], _ => []
  | first :: others, environment => reached first environment ++ reachedAll others environment

/-- The elements that are reached from the first block in a list. -/
def reachedInBody : List Node → Environment → List Element
  | [], _ => []
  | .node _ kind _ children :: others, environment =>
      if kind.isBlock then reachedAll children environment else reachedInBody others environment

end

variable {environment : Environment} {header : Loop}

theorem startTags_roundsIn {body : Environment → Expansion} {found : Environment → List Element}
    (shows : ∀ environment shown, body environment = .ok shown →
      startTagsAll shown = (found environment).map Element.startTag)
    {index : Nat} {items : List Json} {shown : List Html.Node}
    (expanded : roundsIn environment header body index items = .ok shown) :
    startTagsAll shown =
      (eachRound environment header found index items).map Element.startTag := by
  induction items generalizing index shown with
  | nil =>
      cases expanded
      rfl
  | cons item items ih =>
      obtain ⟨front, first, expanded⟩ := ok_of_bind expanded
      obtain ⟨rest, others, expanded⟩ := ok_of_bind expanded
      cases expanded
      rw [startTagsAll_append, shows _ front first, ih others, eachRound, List.map_append]

mutual

/-- What a node expands to has the start tags of the elements that are reached from
the node. -/
theorem startTags_expansion : ∀ (node : Node) {inStyle : Bool} {environment : Environment}
    {shown : List Html.Node}, expansion inStyle node environment = .ok shown →
      startTagsAll shown = (reached node environment).map Element.startTag
  | .node id kind position children, inStyle, environment, shown, expanded => by
      cases kind with
      | document head => cases expanded
      | element tag =>
          obtain ⟨inside, content, expanded⟩ := ok_of_bind expanded
          cases expanded
          rw [startTagsAll, startTags, startTagsAll, startTags_expansions children content,
            List.append_nil]
          rfl
      | text content | comment content | script code =>
          cases expanded
          rfl
      | interpolation expression =>
          obtain ⟨text, value, expanded⟩ := ok_of_bind expanded
          cases expanded
          rfl
      | block => exact startTags_expansions children expanded
      | loop header =>
          simp only [expansion, kindIn, reached] at expanded ⊢
          cases meaning : bodyExpansion? children with
          | none =>
              rw [meaning] at expanded
              cases expanded
          | some expand =>
              rw [meaning] at expanded
              obtain ⟨items, found, expanded⟩ := ok_of_bind expanded
              rw [found]
              exact startTags_roundsIn (fun _ _ => startTags_body children meaning) expanded

theorem startTags_expansions : ∀ (nodes : List Node) {inStyle : Bool}
    {environment : Environment} {shown : List Html.Node},
    expansions inStyle nodes environment = .ok shown →
      startTagsAll shown = (reachedAll nodes environment).map Element.startTag
  | [], _, _, _, expanded => by
      cases expanded
      rfl
  | first :: others, _, _, _, expanded => by
      obtain ⟨front, rest, expandedFirst, expandedOthers, rfl⟩ := expansions_cons_ok expanded
      rw [startTagsAll_append, startTags_expansion first expandedFirst,
        startTags_expansions others expandedOthers, reachedAll, List.map_append]

theorem startTags_body : ∀ (nodes : List Node) {expand : Environment → Expansion},
    bodyExpansion? nodes = some expand → ∀ {environment : Environment} {shown : List Html.Node},
      expand environment = .ok shown →
        startTagsAll shown = (reachedInBody nodes environment).map Element.startTag
  | [], _, found, _, _, _ => nomatch found
  | .node _ kind _ children :: others, _, found, _, _, expanded => by
      rw [bodyExpansion?_cons] at found
      rw [reachedInBody]
      cases isBlock : kind.isBlock with
      | true =>
          rw [isBlock, if_pos rfl, Option.some.injEq] at found
          rw [← found] at expanded
          exact startTags_expansions children expanded
      | false =>
          rw [isBlock, if_neg Bool.false_ne_true] at found
          exact startTags_body others found expanded

end

theorem mem_eachRound {α : Type} {body : Environment → List α} {index : Nat} {items : List Json}
    {result : α} (member : result ∈ eachRound environment header body index items) :
    ∃ inside, result ∈ body inside := by
  induction items generalizing index with
  | nil => cases member
  | cons item items ih =>
      rw [eachRound, List.mem_append] at member
      rcases member with first | later
      · exact ⟨_, first⟩
      · exact ih later

variable {property : NodeKind → Prop} {tag : Element}

mutual

/-- What holds of all nodes below a node holds of the elements that are reached from
it. -/
theorem holds_of_reached : ∀ {node : Node} {environment : Environment},
    node.Holds property → tag ∈ reached node environment → property (.element tag)
  | .node id kind position children, environment, ⟨holds, below⟩, member => by
      cases kind with
      | element found =>
          rcases List.mem_cons.1 member with rfl | member
          · exact holds
          · exact holds_of_reachedAll below member
      | block => exact holds_of_reachedAll below member
      | loop header =>
          simp only [reached] at member
          split at member
          · obtain ⟨inside, member⟩ := mem_eachRound member
            exact holds_of_reachedInBody below member
          · cases member
      | _ => cases member

theorem holds_of_reachedAll : ∀ {nodes : List Node} {environment : Environment},
    Node.AllHold property nodes → tag ∈ reachedAll nodes environment → property (.element tag)
  | [], _, _, member => by cases member
  | first :: others, _, ⟨holds, holdOthers⟩, member => by
      rcases List.mem_append.1 member with member | member
      · exact holds_of_reached holds member
      · exact holds_of_reachedAll holdOthers member

theorem holds_of_reachedInBody : ∀ {nodes : List Node} {environment : Environment},
    Node.AllHold property nodes → tag ∈ reachedInBody nodes environment →
      property (.element tag)
  | [], _, _, member => by cases member
  | .node _ kind _ children :: others, _, ⟨holds, holdOthers⟩, member => by
      rw [reachedInBody] at member
      split at member
      · exact holds_of_reachedAll holds.2 member
      · exact holds_of_reachedInBody holdOthers member

end

end Eval

end TemplateCompiler
