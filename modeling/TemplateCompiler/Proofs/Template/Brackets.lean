import TemplateCompiler.Parse.Error
import TemplateCompiler.Proofs.Template.Written
import Mathlib.Data.List.Induction

/-!
# Brackets

The beginnings and the ends of elements, blocks and loops are the brackets of a
template.  Here is said, of any sequence of them and without a parser, when it
is balanced, which brackets it leaves open, and which of its brackets is the
first that does not fit.
-/

namespace TemplateCompiler

open Parse

namespace Written

/-- The beginning or the end of an element, a block or a loop. -/
inductive Bracket where
  | startTag (name : ContainerName)
  | endTag (name : ContainerName)
  | blockStart
  | loopStart (head : LoopHead)
  | blockEnd

namespace Bracket

/-- A bracket as it is written, without the blank behind it. -/
def own : Bracket → List Char
  | .startTag name => ['<'] ++ (name.text.toList ++ ['>'])
  | .endTag name => ['<'] ++ (['/'] ++ (name.text.toList ++ ['>']))
  | .blockStart => ['{']
  | .loopStart head => head.source ++ ['{']
  | .blockEnd => ['}']

/-- The blank behind a brace. -/
def trailing : Bracket → List Char
  | .startTag _ | .endTag _ => []
  | .blockStart | .loopStart _ | .blockEnd => [' ']

def source (bracket : Bracket) : List Char :=
  bracket.own ++ bracket.trailing

def sources (brackets : List Bracket) : List Char :=
  brackets.flatMap source

/-- What a bracket opens, in the words of messages: an element with its name, a block, or a loop
with its collection as it is written. -/
def opening? : Bracket → Option String
  | .startTag name => some ("element <" ++ name.text ++ ">")
  | .blockStart => some "block"
  | .loopStart head => some ("@for over \x60" ++ String.ofList head.collection.source ++ "\x60")
  | .endTag _ | .blockEnd => none

/-- Why a bracket does not fit the innermost one that is open.  The end of an
element needs an element of its name, and a closing brace needs an opening
one. -/
def offence? (innermost : Option Bracket) : Bracket → Option Cause
  | .endTag name =>
      match innermost with
      | some (.startTag opened) =>
          if opened.text = name.text then none else some (.mismatchedClose opened.text name.text)
      | _ => some (.unexpectedClose name.text)
  | .blockEnd =>
      match innermost with
      | some .blockStart | some (.loopStart _) => none
      | _ => some .unexpectedBlockClose
  | _ => none

theorem of_offence?_endTag {name : ContainerName} {innermost : Option Bracket} {cause : Cause}
    (offends : (endTag name).offence? innermost = some cause) :
    (∃ opened, innermost = some (.startTag opened) ∧ opened.text ≠ name.text ∧
        cause = .mismatchedClose opened.text name.text) ∨
      (∀ opened, innermost ≠ some (.startTag opened)) ∧ cause = .unexpectedClose name.text := by
  simp only [offence?] at offends
  split at offends
  · next opened =>
      split at offends
      · contradiction
      · next different => exact .inl ⟨opened, rfl, different, (Option.some.inj offends).symm⟩
  · next noElement => exact .inr ⟨noElement, (Option.some.inj offends).symm⟩

theorem of_offence?_blockEnd {innermost : Option Bracket} {cause : Cause}
    (offends : blockEnd.offence? innermost = some cause) :
    innermost ≠ some .blockStart ∧ (∀ head, innermost ≠ some (.loopStart head)) ∧
      cause = .unexpectedBlockClose := by
  simp only [offence?] at offends
  split at offends
  · contradiction
  · contradiction
  · next noBlock noLoop => exact ⟨noBlock, noLoop, (Option.some.inj offends).symm⟩

/-- The place of a piece of text that stands behind some brackets.  All of them
are on the first line. -/
def placeBehind (before : List Bracket) (piece : List Char) : Position :=
  ⟨1, (sources before).length + 1, Text.byteLength (sources before),
    some (Text.byteLength piece)⟩

/-- Brackets that fit each other. -/
inductive Balanced : List Bracket → Prop
  | nil : Balanced []
  | element (name : ContainerName) {inner rest : List Bracket} (balanced : Balanced inner)
      (later : Balanced rest) : Balanced (.startTag name :: inner ++ .endTag name :: rest)
  | block {inner rest : List Bracket} (balanced : Balanced inner) (later : Balanced rest) :
      Balanced (.blockStart :: inner ++ .blockEnd :: rest)
  | loop (head : LoopHead) {inner rest : List Bracket} (balanced : Balanced inner)
      (later : Balanced rest) : Balanced (.loopStart head :: inner ++ .blockEnd :: rest)

/-- Brackets that fit each other but leave some of them open, which are listed
with the innermost first. -/
inductive Leaves : List Bracket → List Bracket → Prop
  | balanced {word : List Bracket} (balanced : Balanced word) : Leaves word []
  | opened {before inner stack : List Bracket} {opener : Bracket} {opening : String}
      (leaves : Leaves before stack) (opens : opener.opening? = some opening)
      (balanced : Balanced inner) : Leaves (before ++ opener :: inner) (opener :: stack)

/-- Brackets are refused with an error: that of the first bracket that does not
fit what is open, or, if they all fit, that of the innermost one left open. -/
inductive Rejected : List Bracket → Parse.Error → Prop
  | offended {before after stack : List Bracket} {bracket : Bracket} {cause : Cause}
      (leaves : Leaves before stack) (offends : bracket.offence? stack.head? = some cause) :
      Rejected (before ++ bracket :: after)
        (.grammatical cause (placeBehind before bracket.own))
  | unclosed {before inner stack : List Bracket} {opener : Bracket} {opening : String}
      (leaves : Leaves before stack) (opens : opener.opening? = some opening)
      (balanced : Balanced inner) :
      Rejected (before ++ opener :: inner)
        (.grammatical (.unclosed opening) (placeBehind before opener.own))

section Words

variable {first second before word stack : List Bracket}

theorem Balanced.append (balanced : Balanced first) (later : Balanced second) :
    Balanced (first ++ second) := by
  induction balanced with
  | nil => exact later
  | element name inner rest innerIh restIh =>
      rw [List.append_assoc]
      exact .element name inner restIh
  | block inner rest innerIh restIh =>
      rw [List.append_assoc]
      exact .block inner restIh
  | loop head inner rest innerIh restIh =>
      rw [List.append_assoc]
      exact .loop head inner restIh

theorem Leaves.append (leaves : Leaves before stack) (balanced : Balanced word) :
    Leaves (before ++ word) stack := by
  cases leaves with
  | balanced earlier => exact .balanced (earlier.append balanced)
  | opened outer opens inner =>
      rw [List.append_assoc]
      exact .opened outer opens (inner.append balanced)

theorem Leaves.close {opener closer : Bracket} (leaves : Leaves before (opener :: stack))
    (fits : ∀ {inner}, Balanced inner → Balanced (opener :: inner ++ [closer])) :
    Leaves (before ++ [closer]) stack := by
  cases leaves with
  | opened outer opens balanced =>
      rw [List.append_assoc]
      exact outer.append (fits balanced)

theorem ContainerName.eq_of_text_eq {first second : ContainerName}
    (same : first.text = second.text) : first = second := by
  obtain ⟨⟨⟨text, isName, notBoolean⟩, ordinary⟩, notVoid⟩ := first
  obtain ⟨⟨⟨other, isOtherName, otherNotBoolean⟩, otherOrdinary⟩, otherNotVoid⟩ := second
  obtain rfl : text = other := same
  rfl

/-- One more bracket fits what is open, or it does not. -/
theorem Leaves.step (leaves : Leaves before stack) (bracket : Bracket) :
    (∃ stack, Leaves (before ++ [bracket]) stack) ∨
      ∃ cause, bracket.offence? stack.head? = some cause := by
  cases bracket with
  | startTag name => exact .inl ⟨_, .opened leaves rfl .nil⟩
  | blockStart => exact .inl ⟨_, .opened leaves rfl .nil⟩
  | loopStart head => exact .inl ⟨_, .opened leaves rfl .nil⟩
  | endTag name =>
      cases stack with
      | nil => exact .inr ⟨_, rfl⟩
      | cons opener stack =>
          cases opener with
          | startTag opened =>
              by_cases same : opened.text = name.text
              · obtain rfl := ContainerName.eq_of_text_eq same
                exact .inl ⟨stack, leaves.close fun balanced => .element opened balanced .nil⟩
              · exact .inr ⟨_, if_neg same⟩
          | _ => exact .inr ⟨_, rfl⟩
  | blockEnd =>
      cases stack with
      | nil => exact .inr ⟨_, rfl⟩
      | cons opener stack =>
          cases opener with
          | blockStart => exact .inl ⟨stack, leaves.close fun balanced => .block balanced .nil⟩
          | loopStart head =>
              exact .inl ⟨stack, leaves.close fun balanced => .loop head balanced .nil⟩
          | _ => exact .inr ⟨_, rfl⟩

/-- Every sequence of brackets leaves some of them open, or has a first one that
does not fit. -/
theorem leaves_or_offended (brackets : List Bracket) :
    (∃ stack, Leaves brackets stack) ∨
      ∃ before bracket after stack cause, brackets = before ++ bracket :: after ∧
        Leaves before stack ∧ bracket.offence? stack.head? = some cause := by
  -- What comes behind a bracket that does not fit makes no difference, so the
  -- sequence is taken apart from its end.
  induction brackets using List.reverseRecOn with
  | nil => exact .inl ⟨[], .balanced .nil⟩
  | append_singleton earlier last ih =>
      rcases ih with ⟨stack, leaves⟩ | ⟨before, bracket, after, stack, cause, rfl, offended⟩
      · rcases leaves.step last with leaves | ⟨cause, offends⟩
        · exact .inl leaves
        · exact .inr ⟨earlier, last, [], stack, cause, rfl, leaves, offends⟩
      · exact .inr ⟨before, bracket, after ++ [last], stack, cause, by simp, offended⟩

/-- Every sequence of brackets is balanced or refused. -/
theorem balanced_or_rejected (brackets : List Bracket) :
    Balanced brackets ∨ ∃ error, Rejected brackets error := by
  rcases leaves_or_offended brackets with
    ⟨stack, leaves⟩ | ⟨before, bracket, after, stack, cause, rfl, leaves, offends⟩
  · cases leaves with
    | balanced balanced => exact .inl balanced
    | opened outer opens inner => exact .inr ⟨_, .unclosed outer opens inner⟩
  · exact .inr ⟨_, .offended leaves offends⟩

end Words

end Bracket

end Written

end TemplateCompiler
