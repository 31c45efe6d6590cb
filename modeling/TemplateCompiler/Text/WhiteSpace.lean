/-!
# Unicode white space

The White_Space property decides what is trimmed from texts in the output and
what may stand before a declaration.  It is wider than the whitespace that
separates markup tokens.
-/

namespace TemplateCompiler

namespace Text

/-- A character with the White_Space property. -/
def isWhiteSpace (c : Char) : Bool :=
  (0x09 ≤ c.val && c.val ≤ 0x0D) || c.val == 0x20 || c.val == 0x85 || c.val == 0xA0
    || c.val == 0x1680 || (0x2000 ≤ c.val && c.val ≤ 0x200A) || c.val == 0x2028
    || c.val == 0x2029 || c.val == 0x202F || c.val == 0x205F || c.val == 0x3000

/-- A text consisting of white space only. -/
def isBlank (text : String) : Bool :=
  text.toList.all isWhiteSpace

/-- The characters of a text without white space at either end. -/
def trimList (text : List Char) : List Char :=
  ((text.dropWhile isWhiteSpace).reverse.dropWhile isWhiteSpace).reverse

def trim (text : String) : String :=
  String.ofList (trimList text.toList)

end Text

end TemplateCompiler
