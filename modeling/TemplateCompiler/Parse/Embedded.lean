import TemplateCompiler.Parse.Expression

/-!
# Scripts and styles

The content of a script is code with interpolations in it; the content of a
style is one text.  Both are kept as they are written, and both actions here
begin after the start tag and close the element they are in.
-/

namespace TemplateCompiler

namespace Parse

namespace State

/-- Adds code to an open script: to the code before it, if that is the last
child, or else as a child of its own. -/
def addCode (code : String) (position : Position) (state : State) : State :=
  match state.enclosing with
  | ⟨id, kind, place, .node childId (.script before) childPlace below :: earlier⟩ :: outer =>
      let longer := childPlace.withLength (position.endOffset - childPlace.offset)
      let child := Node.node childId (.script (before ++ code)) longer below
      { state with enclosing := ⟨id, kind, place, child :: earlier⟩ :: outer }
  | _ => state.addLeaf (.script code) position

end State

end Parse

namespace Parser

/-- Fails because the innermost element is open at the end of the source. -/
def failUnclosedElement {α : Type} : Parser α := do
  match (← get).enclosing with
  | ⟨_, .element tag, position, _⟩ :: _ =>
      failAt (.unclosed s!"element <{tag.name}>") position
  | _ => failAt (.unclosed "element <>") .start

/-- Parses the content and the end tag of an open script. -/
def scriptContent : (bound : Nat) → Parser Unit
  | 0 => pure ()
  | bound + 1 => do
      match ← peek with
      | none => failUnclosedElement
      | some ⟨.scriptCode code, position⟩ =>
          skip
          modify (·.addCode code position)
          scriptContent bound
      | some ⟨.interpolationEnd, position⟩ =>
          skip
          modify (·.addCode "\x7d\x7d" position)
          scriptContent bound
      | some ⟨.interpolationStart, _⟩ =>
          interpolation bound
          scriptContent bound
      | some ⟨.scriptEnd, _⟩ =>
          skip
          popMode
          modify (·.closeNode)
      | some _ => failUnexpected .script

/-- Takes the tokens of a style up to its end tag. -/
def skipStyle : (bound : Nat) → Parser Unit
  | 0 => pure ()
  | bound + 1 => do
      match ← peekKind with
      | some .styleEnd => pure ()
      | some _ =>
          skip
          skipStyle bound
      | none => failUnclosedElement

/-- Parses the content and the end tag of an open style. -/
def styleContent (bound : Nat) : Parser Unit := do
  let start ← here
  skipStyle bound
  let stop ← here
  let text := start.textTo stop
  if !text.isEmpty then
    let position ← spanningFrom start.mark.position
    modify (·.addLeaf (.text (String.ofList text)) position)
  skip
  popMode
  modify (·.closeNode)

end Parser

end TemplateCompiler
