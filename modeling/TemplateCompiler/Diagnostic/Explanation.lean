import TemplateCompiler.Diagnostic.Code

/-!
# Explanations of error codes

The long text of every code, in Markdown, as lines.
-/

namespace TemplateCompiler

namespace ErrorCode

/-- The lines of the explanation of a code. -/
def explanationLines : ErrorCode → List String
  | .unterminatedString =>
      ["# E0001: Unterminated string literal",
        "",
        "A string literal was opened with `\"`, `'` or a backtick and the file ended",
        "before the matching quote.",
        "",
        "```rift",
        "<a href=\"/about>About</a>",
        "```",
        "",
        "The error points at the opening quote. Add the closing quote:",
        "",
        "```rift",
        "<a href=\"/about\">About</a>",
        "```"]
  | .invalidEscape =>
      ["# E0002: Invalid escape sequence",
        "",
        "Inside a string literal only these escapes are recognised:",
        "`\\\"`, `\\'`, `` \\` ``, `\\\\`, `\\n`, `\\r` and `\\t`.",
        "",
        "```rift",
        "<p title=\"C:\\path\">x</p>",
        "```",
        "",
        "Write a literal backslash as `\\\\`."]
  | .unterminatedComment =>
      ["# E0003: Unterminated comment",
        "",
        "An HTML comment (`<!--`) or a CSS block comment (`/*`) was never closed.",
        "",
        "```rift",
        "<!-- navigation",
        "<nav></nav>",
        "```",
        "",
        "Close the comment with `-->` (or `*/` inside `<style>`)."]
  | .invalidEntity =>
      ["# E0004: Invalid HTML entity",
        "",
        "An `&` in text must start an entity reference made of letters, digits or",
        "`#`, terminated by `;`.",
        "",
        "```rift",
        "<p>Fish & Chips</p>",
        "```",
        "",
        "Escape a literal ampersand as `&amp;`."]
  | .unexpectedChar =>
      ["# E0005: Unexpected character",
        "",
        "The character is not valid where it appears. Inside a tag only names,",
        "string literals, `=`, binding brackets, `*` and the closing `>` or `/>` are",
        "allowed.",
        "",
        "```rift",
        "<div id=\"a\" ^>",
        "```"]
  | .unterminatedFrontMatter =>
      ["# E0006: Unterminated front matter",
        "",
        "The file starts with a `---` line but no later line consists solely of",
        "`---`.",
        "",
        "```rift",
        "---",
        "title: Home",
        "<h1>Home</h1>",
        "```",
        "",
        "Close the block with a line containing only `---`."]
  | .unterminatedTemplate =>
      ["# E0007: Unterminated template literal",
        "",
        "A backtick literal inside an interpolation was never closed.",
        "",
        "```rift",
        "\x7b\x7b `Hello \x7d\x7d",
        "```"]
  | .unexpectedToken =>
      ["# E1001: Unexpected token",
        "",
        "The parser found a token that cannot start or continue a construct at this",
        "point.",
        "",
        "```rift",
        "<div id=\"a\">)</div>",
        "```"]
  | .expectedToken =>
      ["# E1002: Expected token",
        "",
        "A construct requires a specific token that is missing, for example the `>`",
        "ending a tag or the `)` closing a loop header.",
        "",
        "```rift",
        "@for (post of posts \x7b",
        "```",
        "",
        "Add the missing token: `@for (post of posts) \x7b`."]
  | .mismatchedClose =>
      ["# E1003: Mismatched closing tag",
        "",
        "A closing tag must name the element that is currently open.",
        "",
        "```rift",
        "<ul><li>One</ul>",
        "```",
        "",
        "Here `</ul>` arrives while `<li>` is still open. Close `<li>` first."]
  | .unclosed =>
      ["# E1004: Unclosed element or block",
        "",
        "The file ended while an element, block or loop was still open.",
        "",
        "```rift",
        "<main>",
        "  <p>Hi</p>",
        "```",
        "",
        "Add `</main>`."]
  | .misplacedDeclaration =>
      ["# E1005: Misplaced declaration",
        "",
        "Declarations such as `<!DOCTYPE html>` must be the first node in the",
        "document; only whitespace may precede them.",
        "",
        "```rift",
        "<p></p><!DOCTYPE html>",
        "```",
        "",
        "Move the declaration to the top of the file (after any front matter)."]
  | .valueNotString =>
      ["# E1006: Attribute value must be a string",
        "",
        "When an attribute, binding or directive has `=`, a quoted string must follow.",
        "",
        "```rift",
        "<input maxlength=10>",
        "```",
        "",
        "Quote the value: `maxlength=\"10\"`."]
  | .unknownStatement =>
      ["# E1007: Unknown statement",
        "",
        "`@` introduces a statement. The only statement is `@for`.",
        "",
        "```rift",
        "@while (x) \x7b \x7d",
        "```"]
  | .unexpectedBlockClose =>
      ["# E1008: Unexpected block close",
        "",
        "A `\x7d` appeared while no block was open, or while an element inside the block",
        "was still open.",
        "",
        "```rift",
        "<p>\x7d</p>",
        "```"]
  | .undefinedVariable =>
      ["# E2001: Undefined variable",
        "",
        "A loop collection or interpolated path could not be resolved in the data or",
        "in any enclosing loop scope.",
        "",
        "```rift",
        "@for (post of posts) \x7b <li>\x7b\x7b post.title \x7d\x7d</li> \x7d",
        "```",
        "",
        "Fails when the data has no `posts` key. Loop aliases are only visible",
        "inside their loop body."]
  | .notIterable =>
      ["# E2002: Value is not iterable",
        "",
        "`@for` iterates arrays (by element) and objects (by value). Strings,",
        "numbers, booleans and null cannot be iterated."]
  | .noEvaluator =>
      ["# E2003: No evaluator for node kind",
        "",
        "The evaluator met a node kind it has no handler for at that position, such",
        "as a document node nested inside another node. This indicates a malformed",
        "tree built outside the parser."]
  | .emptyResult =>
      ["# E2004: Evaluator produced no result",
        "",
        "A node handler returned nothing, for example a loop node without a body",
        "block. This indicates a malformed tree built outside the parser."]

def explanation (code : ErrorCode) : String :=
  String.join (code.explanationLines.map (· ++ "\n"))

end ErrorCode

end TemplateCompiler
