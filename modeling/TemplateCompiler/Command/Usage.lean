/-!
# Usage texts

What the commands print about themselves.
-/

namespace TemplateCompiler

namespace Command

/-- Lines, each with a line break. -/
def lines (texts : List String) : String :=
  String.join (texts.map (· ++ "\n"))

def versionText : String :=
  lines ["Rift Template Compiler 0.1.0-alpha.1"]

def usageText : String :=
  lines
    ["Rift Template Compiler",
      "",
      "Usage: riftc <command> [options]",
      "",
      "Commands:",
      "  render <file.rift>...  Compile templates to HTML",
      "  lex <file.rift>        Tokenize and display tokens",
      "  parse <file.rift>      Parse and display the tree",
      "  explain <code>         Explain an error code (e.g., E1003)",
      "  help                   Show this help message",
      "  version                Show version information",
      "",
      "Render options:",
      "  --data=<file.json>     Data the templates are evaluated against",
      "  --mode=<mode>          Output mode: pretty (default), minify, preserve",
      "  --indent=<n>           Spaces per nesting level in pretty mode (default 2)",
      "  --out=<dir>            Write <name>.html files into <dir> instead of stdout",
      "  --emit=<type>          Emit: html (default), vdom",
      "  --no-doctype           Omit <!DOCTYPE html> when the template declares none",
      "",
      "Environment:",
      "  RIFT_LOG=<filter>      Enable tracing output (e.g. rift_parse=trace)",
      "  NO_COLOR               Disable colored diagnostics",
      "",
      "Examples:",
      "  riftc render index.rift --data=site.json",
      "  riftc render pages/*.rift --mode=minify --out=dist",
      "  riftc parse index.rift",
      "  riftc explain E1003"]

def renderUsageText : String :=
  lines
    ["Usage: riftc render <file.rift>... [options]",
      "",
      "Options:",
      "  --data=<file.json>   Data the templates are evaluated against",
      "  --mode=<mode>        Output mode: pretty (default), minify, preserve",
      "  --indent=<n>         Spaces per nesting level in pretty mode (default 2)",
      "  --out=<dir>          Write <name>.html files into <dir> instead of stdout",
      "  --emit=<type>        Emit: html (default), vdom",
      "  --no-doctype         Omit <!DOCTYPE html> when the template declares none"]

def lexUsageText : String :=
  lines ["Usage: riftc lex <file.rift>"]

def parseUsageText : String :=
  lines ["Usage: riftc parse <file.rift>"]

def explainUsageText : String :=
  lines ["Usage: riftc explain <ERROR_CODE>", "Example: riftc explain E1003"]

/-- What is said of a text that is no error code. -/
def unknownCodeText (name : String) : String :=
  lines
    [s!"Unknown error code: {name}",
      "",
      "Codes have the format EXXXX where X is a digit.",
      "Examples: E0001 (lexer), E1003 (parser), E2001 (evaluator)"]

/-- What is said of a word that is no command. -/
def unknownCommandText (name : String) : String :=
  lines [s!"Unknown command: {name}", ""]

end Command

end TemplateCompiler
