import TemplateCompiler.Text.Search

/-!
# Settings of the output

How much layout the output gets.
-/

namespace TemplateCompiler

namespace Html

/-- How white space is laid out. -/
inductive Mode where
  /-- One node per line, indented by depth, with texts trimmed. -/
  | pretty
  /-- No layout at all, with texts trimmed. -/
  | minify
  /-- Texts untrimmed, each on an indented line. -/
  | preserve
deriving DecidableEq, Repr

namespace Mode

def all : List Mode :=
  [.pretty, .minify, .preserve]

def text : Mode → String
  | .pretty => "pretty"
  | .minify => "minify"
  | .preserve => "preserve"

/-- The mode of a name, in any ASCII case. -/
def ofName? (name : String) : Option Mode :=
  all.find? fun mode => Text.equalIgnoreCase mode.text.toList name.toList

/-- The wording for a name that is no mode. -/
def unknownMessage (name : String) : String :=
  s!"unknown render mode `{name}`, expected pretty, minify or preserve"

end Mode

/-- The settings of the output. -/
structure Settings where
  mode : Mode
  /-- The number of blanks for each level. -/
  indent : Nat
  /-- Whether a document without a type is given one. -/
  implicitDoctype : Bool
deriving DecidableEq, Repr

/-- Pretty output, two blanks for each level, always with a document type. -/
def Settings.standard : Settings :=
  ⟨.pretty, 2, true⟩

end Html

end TemplateCompiler
