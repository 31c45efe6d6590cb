import TemplateCompiler.Source.Position
import TemplateCompiler.Text.Quoted
import TemplateCompiler.Text.Utf8

/-!
# Sources

A source is one text to compile together with the name it goes by in reports.
-/

namespace TemplateCompiler

/-- A named text.  The text includes the front matter. -/
structure Source where
  name : String
  text : String
deriving DecidableEq, Repr

namespace Source

def byteLength (source : Source) : Nat :=
  source.text.utf8ByteSize

def isEmpty (source : Source) : Bool :=
  source.text.isEmpty

/-- The text within a span, and nothing when the span does not lie between two
character boundaries of the text. -/
def slice (source : Source) (span : Span) : String :=
  String.ofList (Text.slice span.start span.stop source.text.toList)

def summary (source : Source) : String :=
  "Source \x7b name: " ++ Text.quoted source.name ++ s!", len: {source.byteLength}" ++ " \x7d"

end Source

end TemplateCompiler
