import TemplateCompiler.Proofs.Parse.Kinds
import TemplateCompiler.Proofs.Template.Paths
import TemplateCompiler.Proofs.Template.Quoting
import TemplateCompiler.Template.Dump

/-!
# Dumps tell trees

The dump of a tree has one line for each node.  No node spills over its line, since names
hold no line break and all other texts are quoted.  A line tells the kind of its node: what
stands in a start tag is marked, and names end at a blank, at an equals sign or at a bracket.
The indentation tells how the nodes are nested.  So trees with the same dump are the same
apart from numbers and positions, and whoever compares dumps compares trees.

Declarations are left out, because a parameter of one is shown as it is.  So are numbers.
-/

namespace TemplateCompiler

open TemplateCompiler.Lex (Stops)
open Text (word_append_inj word_append_inj_of_not_mem word_append_cons_inj)

namespace Element

/-- What kind of thing a part of the line for an element shows. -/
inductive Mark where
  | attribute
  | binding (direction : BindingDirection)
  | directive
  | closing

/-- What stands before the name of a part. -/
def Mark.opening : Mark → List Char
  | .attribute => []
  | .binding .inward => ['[']
  | .binding .outward => ['(']
  | .binding .both => ['[', '(']
  | .directive => ['*']
  | .closing => ['/']

/-- What stands behind the name of a part. -/
def Mark.ending : Mark → List Char
  | .binding .inward => [']']
  | .binding .outward => [')']
  | .binding .both => [')', ']']
  | .attribute | .directive | .closing => []

/-- A part of the line for an element behind the name of the element. -/
structure Part where
  mark : Mark
  name : String
  value : Option String

namespace Part

/-- The part that shows that there is no content. -/
def closing : Part :=
  ⟨.closing, "", none⟩

def valueText : Option String → List Char
  | some value => '=' :: (Text.quoted value).toList
  | none => []

def text (part : Part) : List Char :=
  ' ' :: (part.mark.opening ++
    (part.name.toList ++ (part.mark.ending ++ valueText part.value)))

/-- Whether a part is one that can be told from the line. -/
def IsLegible (part : Part) : Prop :=
  part = closing ∨ IsPlainName part.name

def attribute? : Part → Option Attribute
  | ⟨.attribute, name, value⟩ => some ⟨name, value⟩
  | _ => none

def binding? : Part → Option Binding
  | ⟨.binding direction, name, some expression⟩ => some ⟨name, expression, direction⟩
  | _ => none

def directive? : Part → Option Directive
  | ⟨.directive, name, expression⟩ => some ⟨name, expression⟩
  | _ => none

end Part

/-- The parts of the line for an element. -/
def parts (element : Element) : List Part :=
  element.attributes.map (fun item => ⟨.attribute, item.name, item.value⟩) ++
    (element.bindings.map (fun item => ⟨.binding item.direction, item.name, item.expression⟩) ++
      (element.directives.map (fun item => ⟨.directive, item.name, item.expression⟩) ++
        if element.selfClosing then [Part.closing] else []))

section Parts

variable {element other : Element}

theorem toList_assignment (name : String) (value : Option String) :
    (assignment name value).toList = ' ' :: (name.toList ++ Part.valueText value) := by
  cases value <;> simp [assignment, Part.valueText, toString]

theorem toList_bracket (direction : BindingDirection) (name : String) :
    (direction.bracket name).toList =
      (Mark.binding direction).opening ++ (name.toList ++ (Mark.binding direction).ending) := by
  cases direction <;> simp [BindingDirection.bracket, Mark.opening, Mark.ending, toString]

theorem toList_dumpText (element : Element) :
    element.dumpText.toList = ' ' :: (element.name.toList ++ element.parts.flatMap Part.text) := by
  have closing : (if element.selfClosing then " /" else "").toList =
      (if element.selfClosing then [Part.closing] else []).flatMap Part.text := by
    cases element.selfClosing <;> rfl
  simp only [dumpText, parts, String.toList_append, String.toList_join, List.flatMap_append,
    List.flatMap_map, toList_assignment, toList_bracket, closing, Part.text, List.append_assoc]
  simp [Mark.opening, Mark.ending]

theorem filterMap_attribute?_parts (element : Element) :
    element.parts.filterMap Part.attribute? = element.attributes := by
  cases closed : element.selfClosing <;>
    simp [parts, closed, List.filterMap_append, List.filterMap_map, Function.comp_def,
      Part.attribute?, Part.closing]

theorem filterMap_binding?_parts (element : Element) :
    element.parts.filterMap Part.binding? = element.bindings := by
  cases closed : element.selfClosing <;>
    simp [parts, closed, List.filterMap_append, List.filterMap_map, Function.comp_def,
      Part.binding?, Part.closing]

theorem filterMap_directive?_parts (element : Element) :
    element.parts.filterMap Part.directive? = element.directives := by
  cases closed : element.selfClosing <;>
    simp [parts, closed, List.filterMap_append, List.filterMap_map, Function.comp_def,
      Part.directive?, Part.closing]

theorem closing_mem_parts : Part.closing ∈ element.parts ↔ element.selfClosing = true := by
  cases closed : element.selfClosing <;> simp [parts, closed, Part.closing]

/-- An element is told by its name and the parts of its line. -/
theorem eq_of_parts (sameName : element.name = other.name) (same : element.parts = other.parts) :
    element = other := by
  have attributesEq : element.attributes = other.attributes := by
    rw [← filterMap_attribute?_parts, same, filterMap_attribute?_parts]
  have bindingsEq : element.bindings = other.bindings := by
    rw [← filterMap_binding?_parts, same, filterMap_binding?_parts]
  have directivesEq : element.directives = other.directives := by
    rw [← filterMap_directive?_parts, same, filterMap_directive?_parts]
  have closingEq : element.selfClosing = other.selfClosing := by
    rw [Bool.eq_iff_iff, ← closing_mem_parts, same, closing_mem_parts]
  cases element
  cases other
  simp_all

theorem ItemsNamed.isLegible_of_mem (named : element.ItemsNamed) {part : Part}
    (member : part ∈ element.parts) : part.IsLegible := by
  simp only [parts, List.mem_append, List.mem_map] at member
  obtain ⟨item, isItem, rfl⟩ | ⟨item, isItem, rfl⟩ | ⟨item, isItem, rfl⟩ | isClosing := member
  · exact .inr (named.attributes item isItem)
  · exact .inr (named.bindings item isItem)
  · exact .inr (named.directives item isItem)
  · refine .inl ?_
    split at isClosing
    · exact List.mem_singleton.1 isClosing
    · contradiction

end Parts

section Telling

variable {tail otherTail : List Char}

theorem Mark.opening_inj {mark other : Mark} (same : mark.opening = other.opening) :
    mark = other := by
  rcases mark with _ | (_ | _ | _) | _ | _ <;> rcases other with _ | (_ | _ | _) | _ | _ <;>
    first | rfl | cases same

theorem Mark.opening_apart (mark : Mark) :
    ∀ c ∈ mark.opening, (!CharClass.isNameStart c && c != ' ') = true := by
  rw [← List.all_eq_true]
  rcases mark with _ | (_ | _ | _) | _ | _ <;> rfl

theorem Mark.stops_ending (mark : Mark) (stops : Stops CharClass.isNamePart tail) :
    Stops CharClass.isNamePart (mark.ending ++ tail) := by
  rcases mark with _ | (_ | _ | _) | _ | _ <;>
    first | exact stops | exact Lex.stops_cons.2 (by decide)

theorem Part.stops_valueText (value : Option String) (stops : Stops (· != ' ') tail) :
    Stops CharClass.isNamePart (valueText value ++ tail) := by
  cases value with
  | some value => exact Lex.stops_cons.2 (by decide)
  | none => exact stops.of_separator (by decide)

/-- The name of a part is behind whatever opens the part. -/
theorem Part.IsLegible.stops_name {part : Part} (legible : part.IsLegible)
    (stops : Stops (· != ' ') tail) :
    Stops (fun c => !CharClass.isNameStart c && c != ' ')
      (part.name.toList ++ (part.mark.ending ++ (valueText part.value ++ tail))) := by
  rcases legible with rfl | ⟨⟨c, rest, nameEq, start, -⟩, -⟩
  · exact stops.of_separator (by decide)
  · rw [nameEq]
    exact Lex.stops_cons.2 (by simp [start])

theorem Part.IsLegible.isNamePart {part : Part} (legible : part.IsLegible) :
    ∀ c ∈ part.name.toList, CharClass.isNamePart c = true := by
  rcases legible with rfl | ⟨⟨c, rest, nameEq, start, parts⟩, -⟩
  · exact List.forall_mem_nil _
  · rw [nameEq]
    refine List.forall_mem_cons.2 ⟨?_, List.all_eq_true.1 parts⟩
    simp only [CharClass.isNameStart, Bool.or_eq_true, beq_iff_eq] at start
    rcases start with isAlpha | rfl
    · simp [CharClass.isNamePart, Char.isAlphanum, isAlpha]
    · decide

theorem Part.valueText_append_inj {value other : Option String} (stops : Stops (· != ' ') tail)
    (stopsOther : Stops (· != ' ') otherTail)
    (same : valueText value ++ tail = valueText other ++ otherTail) :
    value = other ∧ tail = otherTail := by
  cases value with
  | none =>
      cases other with
      | none => exact ⟨rfl, same⟩
      | some other =>
          obtain rfl : tail = _ := same
          simp [valueText] at stops
  | some value =>
      cases other with
      | none =>
          obtain rfl : otherTail = _ := same.symm
          simp [valueText] at stopsOther
      | some other =>
          obtain ⟨rfl, sameTail⟩ := Text.quoted_append_inj (List.cons.inj same).2
          exact ⟨rfl, sameTail⟩

/-- A part at the head of a text is told by the text, if the text goes on with a blank. -/
theorem Part.text_append_inj {part other : Part} (legible : part.IsLegible)
    (legibleOther : other.IsLegible) (stops : Stops (· != ' ') tail)
    (stopsOther : Stops (· != ' ') otherTail) (same : part.text ++ tail = other.text ++ otherTail) :
    part = other ∧ tail = otherTail := by
  simp only [text, List.cons_append, List.append_assoc, List.cons.injEq, true_and] at same
  -- What opens the part ends where the name begins, and the name ends where it is closed.
  obtain ⟨sameOpening, same⟩ := word_append_inj part.mark.opening_apart other.mark.opening_apart
    (legible.stops_name stops) (legibleOther.stops_name stopsOther) same
  obtain ⟨sameName, same⟩ := word_append_inj legible.isNamePart legibleOther.isNamePart
    (part.mark.stops_ending (stops_valueText part.value stops))
    (other.mark.stops_ending (stops_valueText other.value stopsOther)) same
  have sameMark := Mark.opening_inj sameOpening
  rw [sameMark] at same
  obtain ⟨sameValue, sameTail⟩ :=
    valueText_append_inj stops stopsOther (List.append_cancel_left same)
  refine ⟨?_, sameTail⟩
  cases part
  cases other
  obtain rfl := String.toList_inj.1 sameName
  cases sameMark
  cases sameValue
  rfl

theorem Part.stops_flatMap_text (parts : List Part) :
    Stops (· != ' ') (parts.flatMap text) := by
  cases parts with
  | nil => exact Lex.stops_nil
  | cons part parts => exact Lex.stops_cons.2 rfl

/-- The line for an element tells the element. -/
theorem IsNamed.dumpText_inj {element other : Element} (named : element.IsNamed)
    (namedOther : other.IsNamed) (same : element.dumpText = other.dumpText) : element = other := by
  rw [← String.toList_inj, toList_dumpText, toList_dumpText] at same
  have noBlank {element : Element} (named : element.IsNamed) : ' ' ∉ element.name.toList :=
    named.name.1.not_mem (by decide) (by decide)
  obtain ⟨sameName, sameParts⟩ := word_append_inj_of_not_mem (noBlank named) (noBlank namedOther)
    (Part.stops_flatMap_text _) (Part.stops_flatMap_text _) (List.cons.inj same).2
  refine eq_of_parts (String.toList_inj.1 sameName) ?_
  exact Text.flatMap_inj (by simp [Part.text])
    (fun legible legibleOther =>
      Part.text_append_inj legible legibleOther (Part.stops_flatMap_text _)
        (Part.stops_flatMap_text _))
    (fun part => named.isLegible_of_mem) (fun part => namedOther.isLegible_of_mem) sameParts

theorem Part.IsLegible.noLineFeed {part : Part} (legible : part.IsLegible) :
    '\n' ∉ part.text := by
  have apart : '\n' ∉ part.mark.opening ∧ '\n' ∉ part.mark.ending := by
    rcases part.mark with _ | (_ | _ | _) | _ | _ <;> decide
  have inName : '\n' ∉ part.name.toList := fun member =>
    absurd (legible.isNamePart _ member) (by decide)
  have inValue : '\n' ∉ valueText part.value := by
    cases part.value with
    | none => exact List.not_mem_nil
    | some value => simpa [valueText] using Text.noLineFeed_quoted value
  simp [text, apart, inName, inValue]

theorem IsNamed.noLineFeed {element : Element} (named : element.IsNamed) :
    '\n' ∉ element.dumpText.toList := by
  have inName : '\n' ∉ element.name.toList := named.name.1.not_mem (by decide) (by decide)
  rw [toList_dumpText, List.mem_cons, List.mem_append, List.mem_flatMap]
  rintro (isBlank | isInName | ⟨part, isPart, inPart⟩)
  · contradiction
  · exact inName isInName
  · exact (named.isLegible_of_mem isPart).noLineFeed inPart

end Telling

end Element

section Kinds

/-- Whether an expression is told by its text: it is a path that can be written, or a text
or a truth value. -/
def Expr.IsLegible : Expr → Prop
  | .path lookup => ∃ dotted : Written.Dotted, dotted.path = lookup
  | .string _ | .boolean _ => True
  | .number _ => False

/-- Whether a node of a kind shows no number. -/
def NodeKind.ShowsNoNumber : NodeKind → Prop
  | .interpolation (.number _) => False
  | _ => True

instance : DecidablePred NodeKind.ShowsNoNumber
  | .interpolation (.number _) => inferInstanceAs (Decidable False)
  | .interpolation (.path _) | .interpolation (.string _) | .interpolation (.boolean _)
  | .document _ | .element _ | .text _ | .comment _ | .block | .loop _ | .script _ =>
      inferInstanceAs (Decidable True)

/-- Whether a node of a kind is told by its line in a dump. -/
def NodeKind.IsLegible : NodeKind → Prop
  | .document _ => False
  | .element tag => tag.IsNamed
  | .loop header => ∃ written : Written.Header, written.loop = header
  | .interpolation expression => expression.IsLegible
  | .text _ | .comment _ | .script _ | .block => True

/-- What the parser reads into a node is told by a line, unless it is a number. -/
theorem Parse.IsReadFrom.isLegible {source : List Char} {kind : NodeKind} {position : Position}
    (isRead : Parse.IsReadFrom source kind position) (noNumber : kind.ShowsNoNumber) :
    kind.IsLegible := by
  obtain ⟨isRead, stands⟩ := isRead
  cases kind with
  | document head => exact isRead
  | element tag => exact isRead
  | loop header =>
      obtain ⟨-, -, -, -, written, loopEq, -⟩ := stands rfl
      exact ⟨written, loopEq⟩
  | interpolation expression =>
      cases expression with
      | path path =>
          obtain ⟨-, -, -, -, shown, pathEq, -⟩ := stands rfl
          exact ⟨shown.dotted, pathEq⟩
      | number value => exact noNumber
      | _ => trivial
  | _ => trivial

namespace Written

theorem Dotted.toList_text (dotted : Dotted) : dotted.path.text.toList = dotted.source := by
  rw [dotted.text_path, String.toList_ofList]

/-- A path is told by its text. -/
theorem Dotted.text_inj {dotted other : Dotted} (same : dotted.path.text = other.path.text) :
    dotted.path = other.path :=
  Option.some_inj.1 (by rw [← dotted.parse?_text, same, other.parse?_text])

/-- The text of a path is not a truth value. -/
theorem Dotted.text_ne_boolean (dotted : Dotted) (value : Bool) :
    dotted.path.text ≠ (Expr.boolean value).text := by
  intro same
  have parsed : Path.parse? (Expr.boolean value).text = some ⟨(Expr.boolean value).text, []⟩ := by
    cases value <;> rfl
  rw [← same, dotted.parse?_text, Option.some_inj] at parsed
  have notBoolean := dotted.root.notBoolean
  have rootEq : dotted.root.text = (Expr.boolean value).text :=
    same ▸ congrArg Path.root parsed
  rw [rootEq] at notBoolean
  cases value <;> contradiction

theorem Dotted.text_ne_quoted (dotted : Dotted) (value : String) :
    dotted.path.text ≠ Text.quoted value := by
  intro same
  rw [← String.toList_inj, dotted.toList_text, Text.toList_quoted] at same
  refine dotted.not_mem (c := '"') (by decide) (by decide) (by decide) ?_
  rw [same]
  exact List.mem_cons_self

end Written

theorem Expr.IsLegible.text_inj {expression other : Expr} (legible : expression.IsLegible)
    (legibleOther : other.IsLegible) (same : expression.text = other.text) :
    expression = other := by
  cases expression with
  | path path =>
      obtain ⟨dotted, rfl⟩ := legible
      cases other with
      | path path =>
          obtain ⟨otherDotted, rfl⟩ := legibleOther
          rw [Written.Dotted.text_inj same]
      | string value => exact absurd same (dotted.text_ne_quoted value)
      | boolean value => exact absurd same (dotted.text_ne_boolean value)
      | number value => exact legibleOther.elim
  | string value =>
      cases other with
      | path path =>
          obtain ⟨dotted, rfl⟩ := legibleOther
          exact absurd same.symm (dotted.text_ne_quoted value)
      | string other =>
          rw [Text.quoted_inj same]
      | boolean other =>
          rw [← String.toList_inj, text, Text.toList_quoted] at same
          cases other <;> cases same
      | number value => exact legibleOther.elim
  | boolean value =>
      cases other with
      | path path =>
          obtain ⟨dotted, rfl⟩ := legibleOther
          exact absurd same.symm (dotted.text_ne_boolean value)
      | string other =>
          rw [← String.toList_inj, text, text, Text.toList_quoted] at same
          cases value <;> cases same
      | boolean other => cases value <;> cases other <;> first | rfl | exact absurd same (by decide)
      | number value => exact legibleOther.elim
  | number value => exact legible.elim

theorem Expr.IsLegible.noLineFeed {expression : Expr} (legible : expression.IsLegible) :
    '\n' ∉ expression.text.toList := by
  cases expression with
  | path path =>
      obtain ⟨dotted, rfl⟩ := legible
      rw [text, dotted.toList_text]
      exact dotted.not_mem (by decide) (by decide) (by decide)
  | string value => exact Text.noLineFeed_quoted value
  | boolean value => cases value <;> decide
  | number value => exact legible.elim

namespace NodeKind

variable {kind other : NodeKind}

theorem toList_dumpDetail_loop (header : Loop) :
    (NodeKind.loop header).dumpDetail.toList =
      ' ' :: (header.item.toList ++ ' ' :: (header.preposition.toList ++
        ' ' :: (header.collection.text.toList ++
          ' ' :: ("index=".toList ++ header.index.toList)))) := by
  simp [dumpDetail, toString]

theorem toList_dumpLine (kind : NodeKind) :
    kind.dumpLine.toList = kind.name.toList ++ kind.dumpDetail.toList :=
  String.toList_append

theorem noBlank_name (kind : NodeKind) : ' ' ∉ kind.name.toList := by
  cases kind <;> simp [name]

namespace IsLegible

/-- What is behind the name of a kind is set off by a blank. -/
theorem stops_dumpDetail (legible : kind.IsLegible) : Stops (· != ' ') kind.dumpDetail.toList := by
  cases kind with
  | document head => exact legible.elim
  | element tag => simp [dumpDetail, Element.toList_dumpText]
  | loop header => simp [toList_dumpDetail_loop]
  | block => exact Lex.stops_nil
  | _ => simp [dumpDetail]

theorem noLineFeed (legible : kind.IsLegible) : '\n' ∉ kind.dumpLine.toList := by
  have inName : '\n' ∉ kind.name.toList := by cases kind <;> simp [name]
  rw [toList_dumpLine, List.mem_append]
  refine not_or.2 ⟨inName, ?_⟩
  cases kind with
  | document head => exact legible.elim
  | element tag => exact Element.IsNamed.noLineFeed legible
  | loop header =>
      obtain ⟨written, rfl⟩ := legible
      have inItem : '\n' ∉ written.item.text.toList :=
        written.item.isName.not_mem (by decide) (by decide)
      have inPreposition : '\n' ∉ written.preposition.text.toList :=
        written.preposition.isName.not_mem (by decide) (by decide)
      have inCollection : '\n' ∉ written.collection.path.text.toList := by
        rw [written.collection.toList_text]
        exact written.collection.not_mem (by decide) (by decide) (by decide)
      rw [toList_dumpDetail_loop]
      simp [Written.Header.loop, inItem, inPreposition, inCollection, Loop.indexName]
  | block => exact List.not_mem_nil
  | interpolation expression => simpa [dumpDetail] using Expr.IsLegible.noLineFeed legible
  | text content | comment content | script content =>
      simpa [dumpDetail] using Text.noLineFeed_quoted content

theorem loop_inj {header otherHeader : Loop} (legible : (NodeKind.loop header).IsLegible)
    (legibleOther : (NodeKind.loop otherHeader).IsLegible)
    (same : (NodeKind.loop header).dumpDetail = (NodeKind.loop otherHeader).dumpDetail) :
    header = otherHeader := by
  obtain ⟨written, rfl⟩ := legible
  obtain ⟨otherWritten, rfl⟩ := legibleOther
  have noBlank (name : Written.VariableName) : ' ' ∉ name.text.toList :=
    name.isName.not_mem (by decide) (by decide)
  have noBlankPath (dotted : Written.Dotted) : ' ' ∉ dotted.path.text.toList := by
    rw [dotted.toList_text]
    exact dotted.not_mem (by decide) (by decide) (by decide)
  rw [← String.toList_inj, toList_dumpDetail_loop, toList_dumpDetail_loop] at same
  obtain ⟨sameItem, same⟩ :=
    word_append_cons_inj (noBlank _) (noBlank _) (List.cons.inj same).2
  obtain ⟨samePreposition, same⟩ := word_append_cons_inj (noBlank _) (noBlank _) same
  obtain ⟨sameCollection, -⟩ := word_append_cons_inj (noBlankPath _) (noBlankPath _) same
  rw [Written.Header.loop, Written.Header.loop, String.toList_inj.1 sameItem,
    String.toList_inj.1 samePreposition,
    Written.Dotted.text_inj (String.toList_inj.1 sameCollection)]

/-- A line of a dump tells the kind of the node that it is for. -/
theorem dumpLine_inj (legible : kind.IsLegible) (legibleOther : other.IsLegible)
    (same : kind.dumpLine = other.dumpLine) : kind = other := by
  rw [← String.toList_inj, toList_dumpLine, toList_dumpLine] at same
  obtain ⟨sameName, sameDetail⟩ := word_append_inj_of_not_mem (noBlank_name kind)
    (noBlank_name other) legible.stops_dumpDetail legibleOther.stops_dumpDetail same
  rw [String.toList_inj] at sameName sameDetail
  have quoted_inj {first second : String}
      (same : " " ++ Text.quoted first = " " ++ Text.quoted second) : first = second := by
    exact Text.quoted_inj ((String.append_right_inj _).1 same)
  cases kind with
  | document head => exact legible.elim
  | element tag =>
      cases other with
      | element otherTag => rw [Element.IsNamed.dumpText_inj legible legibleOther sameDetail]
      | _ => simp [name] at sameName
  | text content =>
      cases other with
      | text otherContent => rw [quoted_inj sameDetail]
      | _ => simp [name] at sameName
  | comment content =>
      cases other with
      | comment otherContent => rw [quoted_inj sameDetail]
      | _ => simp [name] at sameName
  | block =>
      cases other with
      | block => rfl
      | _ => simp [name] at sameName
  | loop header =>
      cases other with
      | loop otherHeader => rw [loop_inj legible legibleOther sameDetail]
      | _ => simp [name] at sameName
  | script code =>
      cases other with
      | script otherCode => rw [quoted_inj sameDetail]
      | _ => simp [name] at sameName
  | interpolation expression =>
      cases other with
      | interpolation otherExpression =>
          rw [dumpDetail, dumpDetail, String.append_right_inj] at sameDetail
          rw [Expr.IsLegible.text_inj legible legibleOther sameDetail]
      | _ => simp [name] at sameName

end IsLegible

end NodeKind

end Kinds

namespace Node

section Lines

/-- Whether what a dump shows of a node is one line that is not indented by itself. -/
structure IsLine (entry : Nat × String) : Prop where
  stops : Stops (· == ' ') entry.2.toList
  noLineFeed : '\n' ∉ entry.2.toList

/-- A line of a dump with its indentation and its end. -/
def lineText (entry : Nat × String) : List Char :=
  List.replicate (2 * entry.1) ' ' ++ (entry.2.toList ++ ['\n'])

theorem toList_dump (tree : Node) : tree.dump.toList = (dumpLines 0 tree).flatMap lineText := by
  rw [dump, String.toList_join, List.flatMap_map]
  refine congrArg (dumpLines 0 tree |>.flatMap ·) (funext fun entry => ?_)
  simp [lineText]

theorem IsLine.lineText_append_inj {entry other : Nat × String} {tail otherTail : List Char}
    (isLine : IsLine entry) (isLineOther : IsLine other)
    (same : lineText entry ++ tail = lineText other ++ otherTail) :
    entry = other ∧ tail = otherTail := by
  have blanks (number : Nat) : ∀ c ∈ List.replicate number ' ', (c == ' ') = true :=
    fun c member => by simp [List.eq_of_mem_replicate member]
  have stops {entry : Nat × String} (isLine : IsLine entry) (tail : List Char) :
      Stops (· == ' ') (entry.2.toList ++ '\n' :: tail) := by
    have stops := isLine.stops
    cases lineEq : entry.2.toList with
    | nil => exact Lex.stops_cons.2 (by decide)
    | cons c line =>
        rw [lineEq, Lex.stops_cons] at stops
        exact Lex.stops_cons.2 stops
  simp only [lineText, List.append_assoc, List.cons_append, List.nil_append] at same
  obtain ⟨sameIndentation, same⟩ := word_append_inj (blanks _) (blanks _) (stops isLine tail)
    (stops isLineOther otherTail) same
  obtain ⟨sameLine, sameTail⟩ := word_append_cons_inj isLine.noLineFeed isLineOther.noLineFeed same
  have sameDepth := congrArg List.length sameIndentation
  rw [List.length_replicate, List.length_replicate] at sameDepth
  exact ⟨Prod.ext (by omega) (String.toList_inj.1 sameLine), sameTail⟩

/-- The lines of a dump are told by the dump. -/
theorem dumpLines_inj {tree other : Node} (areLines : ∀ entry ∈ dumpLines 0 tree, IsLine entry)
    (areLinesOther : ∀ entry ∈ dumpLines 0 other, IsLine entry) (same : tree.dump = other.dump) :
    dumpLines 0 tree = dumpLines 0 other := by
  rw [← String.toList_inj, toList_dump, toList_dump] at same
  exact Text.flatMap_inj (by simp [lineText]) IsLine.lineText_append_inj areLines areLinesOther same

theorem isLine_of_isLegible {kind : NodeKind} (legible : kind.IsLegible) (depth : Nat) :
    IsLine (depth, kind.dumpLine) := by
  refine ⟨?_, legible.noLineFeed⟩
  rw [NodeKind.toList_dumpLine]
  cases kind <;> simp [NodeKind.name]

mutual

theorem isLine_of_mem_dumpLines {depth : Nat} {entry : Nat × String} :
    (node : Node) → node.Holds NodeKind.IsLegible → entry ∈ dumpLines depth node → IsLine entry
  | .node _ _ _ children, ⟨legible, below⟩, member => by
      rcases List.mem_cons.1 member with rfl | member
      · exact isLine_of_isLegible legible depth
      · exact isLine_of_mem_childDumpLines children below member

theorem isLine_of_mem_childDumpLines {depth : Nat} {entry : Nat × String} :
    (nodes : List Node) → AllHold NodeKind.IsLegible nodes →
      entry ∈ childDumpLines depth nodes → IsLine entry
  | first :: others, ⟨legible, legibleOthers⟩, member => by
      rcases List.mem_append.1 member with member | member
      · exact isLine_of_mem_dumpLines first legible member
      · exact isLine_of_mem_childDumpLines others legibleOthers member

end

end Lines

section Nesting

/-- Whether no line at the head of others is indented as far as a depth. -/
def Outside (depth : Nat) (lines : List (Nat × String)) : Prop :=
  ∀ entry ∈ lines.head?, entry.1 < depth

variable {tail otherTail : List (Nat × String)}

theorem outside_nil {depth : Nat} : Outside depth [] := by
  simp [Outside]

theorem Outside.childDumpLines_append {depth : Nat} (outside : Outside depth tail)
    (nodes : List Node) : Outside (depth + 1) (childDumpLines depth nodes ++ tail) := by
  cases nodes with
  | nil => exact fun entry member => (outside entry member).trans (Nat.lt_succ_self depth)
  | cons first others =>
      obtain ⟨id, kind, position, children⟩ := first
      simp [childDumpLines, dumpLines, Outside]

theorem Outside.ne_dumpLines_append {depth : Nat} (outside : Outside depth tail) (node : Node)
    (behind : List (Nat × String)) : tail ≠ dumpLines depth node ++ behind := by
  obtain ⟨id, kind, position, children⟩ := node
  rintro rfl
  exact absurd (outside _ rfl) (Nat.lt_irrefl depth)

mutual

/-- The lines for a node tell what is in it and where they end. -/
theorem dumpLines_append_inj {depth : Nat} {tail otherTail : List (Nat × String)}
    (outside : Outside (depth + 1) tail) (outsideOther : Outside (depth + 1) otherTail) :
    (node other : Node) → node.Holds NodeKind.IsLegible → other.Holds NodeKind.IsLegible →
      dumpLines depth node ++ tail = dumpLines depth other ++ otherTail →
        node.outline = other.outline ∧ tail = otherTail
  | .node _ kind _ children, .node _ otherKind _ otherChildren, ⟨legible, below⟩,
      ⟨legibleOther, belowOther⟩, same => by
      simp only [dumpLines, List.cons_append, List.cons.injEq, Prod.mk.injEq, true_and] at same
      obtain ⟨sameLine, sameBelow⟩ := same
      obtain ⟨sameOutlines, sameTail⟩ := childDumpLines_append_inj outside outsideOther children
        otherChildren below belowOther sameBelow
      exact ⟨by rw [outline, outline, legible.dumpLine_inj legibleOther sameLine, sameOutlines],
        sameTail⟩

theorem childDumpLines_append_inj {depth : Nat} {tail otherTail : List (Nat × String)}
    (outside : Outside depth tail) (outsideOther : Outside depth otherTail) :
    (nodes others : List Node) → AllHold NodeKind.IsLegible nodes →
      AllHold NodeKind.IsLegible others →
      childDumpLines depth nodes ++ tail = childDumpLines depth others ++ otherTail →
        outlines nodes = outlines others ∧ tail = otherTail
  | [], [], _, _, same => ⟨rfl, same⟩
  | [], other :: others, _, _, same => by
      rw [childDumpLines, childDumpLines, List.append_assoc] at same
      exact absurd same (outside.ne_dumpLines_append other _)
  | first :: nodes, [], _, _, same => by
      rw [childDumpLines, childDumpLines, List.append_assoc] at same
      exact absurd same.symm (outsideOther.ne_dumpLines_append first _)
  | first :: nodes, other :: others, ⟨legible, legibleNodes⟩, ⟨legibleOther, legibleOthers⟩,
      same => by
      rw [childDumpLines, childDumpLines, List.append_assoc, List.append_assoc] at same
      -- The lines behind the first node are its siblings and what is outside, so none of them
      -- is indented as far as its children.
      obtain ⟨sameOutline, sameBehind⟩ := dumpLines_append_inj
        (outside.childDumpLines_append nodes) (outsideOther.childDumpLines_append others) first
        other legible legibleOther same
      obtain ⟨sameOutlines, sameTail⟩ := childDumpLines_append_inj outside outsideOther nodes others
        legibleNodes legibleOthers sameBehind
      exact ⟨by rw [outlines, outlines, sameOutline, sameOutlines], sameTail⟩

end

mutual

theorem dumpLines_of_outline {depth : Nat} :
    (node other : Node) → node.outline = other.outline →
      dumpLines depth node = dumpLines depth other
  | .node _ _ _ children, .node _ _ _ otherChildren, same => by
      simp only [outline, Written.Outline.mk.injEq] at same
      rw [dumpLines, dumpLines, same.1, childDumpLines_of_outlines children otherChildren same.2]

theorem childDumpLines_of_outlines {depth : Nat} :
    (nodes others : List Node) → outlines nodes = outlines others →
      childDumpLines depth nodes = childDumpLines depth others
  | [], [], _ => rfl
  | first :: nodes, other :: others, same => by
      simp only [outlines, List.cons.injEq] at same
      rw [childDumpLines, childDumpLines, dumpLines_of_outline first other same.1,
        childDumpLines_of_outlines nodes others same.2]

end

end Nesting
section Reading

variable {source : List Char}

mutual

theorem HoldsAt.isLegible :
    (node : Node) → node.HoldsAt (Parse.IsReadFrom source) → node.Holds NodeKind.ShowsNoNumber →
      node.Holds NodeKind.IsLegible
  | .node _ _ _ children, ⟨isRead, readBelow⟩, ⟨noNumber, noNumberBelow⟩ =>
      ⟨isRead.isLegible noNumber, AllHoldAt.isLegible children readBelow noNumberBelow⟩

theorem AllHoldAt.isLegible :
    (nodes : List Node) → AllHoldAt (Parse.IsReadFrom source) nodes →
      AllHold NodeKind.ShowsNoNumber nodes → AllHold NodeKind.IsLegible nodes
  | [], _, _ => trivial
  | first :: others, ⟨isRead, readOthers⟩, ⟨noNumber, noNumberOthers⟩ =>
      ⟨HoldsAt.isLegible first isRead noNumber,
        AllHoldAt.isLegible others readOthers noNumberOthers⟩

end

end Reading

end Node

namespace Template

variable {template other : Template}

theorem dumpLines_root (undeclared : template.document.declarations = []) :
    Node.dumpLines 0 template.root =
      (0, "document") :: Node.childDumpLines 1 template.children := by
  simp [root, Node.dumpLines, NodeKind.dumpLine, NodeKind.dumpDetail, NodeKind.name, undeclared]

theorem isLine_of_mem_dumpLines_root (undeclared : template.document.declarations = [])
    (legible : Node.AllHold NodeKind.IsLegible template.children) :
    ∀ entry ∈ Node.dumpLines 0 template.root, Node.IsLine entry := by
  rw [dumpLines_root undeclared]
  refine List.forall_mem_cons.2 ⟨⟨Lex.stops_cons.2 (by decide), by decide⟩, fun entry member => ?_⟩
  exact Node.isLine_of_mem_childDumpLines template.children legible member

variable {text otherText : String}

/-- Two templates without declarations and numbers have the same dump only if they have the
same nodes, with all that these hold, nested in the same way. -/
theorem root_dump_eq_iff (parsed : Template.parse text = .ok template)
    (parsedOther : Template.parse otherText = .ok other)
    (undeclared : template.document.declarations = [])
    (undeclaredOther : other.document.declarations = [])
    (noNumber : Node.AllHold NodeKind.ShowsNoNumber template.children)
    (noNumberOther : Node.AllHold NodeKind.ShowsNoNumber other.children) :
    template.root.dump = other.root.dump ↔
      Node.outlines template.children = Node.outlines other.children := by
  have legible : Node.AllHold NodeKind.IsLegible template.children :=
    Node.AllHoldAt.isLegible _ (Parser.allRead_of_parse parsed) noNumber
  have legibleOther : Node.AllHold NodeKind.IsLegible other.children :=
    Node.AllHoldAt.isLegible _ (Parser.allRead_of_parse parsedOther) noNumberOther
  constructor
  · intro same
    have sameLines := Node.dumpLines_inj (isLine_of_mem_dumpLines_root undeclared legible)
      (isLine_of_mem_dumpLines_root undeclaredOther legibleOther) same
    rw [dumpLines_root undeclared, dumpLines_root undeclaredOther, List.cons.injEq] at sameLines
    have sameBelow := congrArg (· ++ []) sameLines.2
    exact (Node.childDumpLines_append_inj Node.outside_nil Node.outside_nil _ _ legible legibleOther
      sameBelow).1
  · intro same
    rw [Node.dump, Node.dump, dumpLines_root undeclared, dumpLines_root undeclaredOther,
      Node.childDumpLines_of_outlines _ _ same]

/-- A tag, a path and a comment. -/
def doubleQuoted : String :=
  "<p class=\"a b\" [size]=\"x\" *if></p>\x7b\x7b row.name \x7d\x7d<!--end-->"

/-- The same with other quotes and other white space. -/
def singleQuoted : String :=
  "<p class='a b'  [size]='x'  *if ></p >\x7b\x7brow.name\x7d\x7d<!--end-->"

theorem root_dump_eq_iff_singleQuoted :
    ∃ template other, Template.parse doubleQuoted = .ok template ∧
      Template.parse singleQuoted = .ok other ∧
      Node.outlines template.children = Node.outlines other.children := by
  have plain : ∀ text ∈ [doubleQuoted, singleQuoted],
      (Template.parse text).toOption.any (fun template =>
        decide (template.document.declarations = [] ∧
          Node.AllHold NodeKind.ShowsNoNumber template.children)) = true := by
    decide +kernel
  have sameDump : (Template.parse doubleQuoted).toOption.map (·.root.dump) =
      (Template.parse singleQuoted).toOption.map (·.root.dump) := by
    decide +kernel
  obtain ⟨template, parsed, holds⟩ := exists_of_parse (plain doubleQuoted (by simp))
  obtain ⟨other, parsedOther, holdsOther⟩ := exists_of_parse (plain singleQuoted (by simp))
  obtain ⟨undeclared, noNumber⟩ := of_decide_eq_true holds
  obtain ⟨undeclaredOther, noNumberOther⟩ := of_decide_eq_true holdsOther
  rw [parsed, parsedOther] at sameDump
  exact ⟨template, other, parsed, parsedOther,
    (root_dump_eq_iff parsed parsedOther undeclared undeclaredOther noNumber noNumberOther).1
      (Option.some.inj sameDump)⟩

end Template

end TemplateCompiler
