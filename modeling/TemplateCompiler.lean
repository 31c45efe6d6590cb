import TemplateCompiler.Command.FileTree
import TemplateCompiler.Command.Run
import TemplateCompiler.Compile
import TemplateCompiler.Diagnostic.Log
import TemplateCompiler.Main
import TemplateCompiler.Proofs.Eval.ArenaExpansion
import TemplateCompiler.Proofs.Html.ReadBack
import TemplateCompiler.Proofs.Lex.Ledger
import TemplateCompiler.Proofs.Lex.Progress
import TemplateCompiler.Proofs.Lex.Transparency
import TemplateCompiler.Proofs.Parse.ModeDiscipline
import TemplateCompiler.Proofs.Parse.Nesting
import TemplateCompiler.Proofs.Parse.Tiling
import TemplateCompiler.Proofs.Template.ArenaLinks
import TemplateCompiler.Proofs.Template.ArenaTraversal
import TemplateCompiler.Proofs.Template.Shape
import TemplateCompiler.Proofs.Parse.Shape
import TemplateCompiler.Proofs.Eval.ShapedTemplates
import TemplateCompiler.Proofs.Parse.EmbeddedCode
import TemplateCompiler.Proofs.Eval.EmbeddedCode
import TemplateCompiler.Proofs.Lex.LineBreaks
import TemplateCompiler.Proofs.Lex.Places
import TemplateCompiler.Proofs.Parse.Places
import TemplateCompiler.Proofs.Eval.Diagnostics
import TemplateCompiler.Proofs.Html.Modes
import TemplateCompiler.Proofs.Html.Stripping
import TemplateCompiler.Proofs.Compile.Concatenation
import TemplateCompiler.Proofs.Source.Moves
import TemplateCompiler.Proofs.Eval.ScopeRuns
import TemplateCompiler.Proofs.Eval.FreeNames
import TemplateCompiler.Proofs.Eval.Moments
import TemplateCompiler.Proofs.Eval.Selections
import TemplateCompiler.Proofs.Lex.RespelledRuns
import TemplateCompiler.Proofs.Compile.Doctype
import TemplateCompiler.Proofs.Compile.Attributes
import TemplateCompiler.Proofs.Command.Independence
import TemplateCompiler.Proofs.Lex.ScriptCode
import TemplateCompiler.Proofs.Lex.MarkupLanguage
import TemplateCompiler.Proofs.Compile.FrontMatter
import TemplateCompiler.Proofs.Source.LinePartition
import TemplateCompiler.Proofs.Html.RawText
import TemplateCompiler.Proofs.Lex.StringLiterals
import TemplateCompiler.Proofs.Parse.StyleContent
import TemplateCompiler.Proofs.Diagnostic.Colors
import TemplateCompiler.Proofs.Diagnostic.Underlining
import TemplateCompiler.Proofs.Parse.LeadingDeclarations
import TemplateCompiler.Proofs.Parse.DottedPaths
import TemplateCompiler.Proofs.Lex.Anchors
import TemplateCompiler.Proofs.Lex.Recovery
import TemplateCompiler.Proofs.Template.Dumps
import TemplateCompiler.Proofs.Command.OutputFiles
import TemplateCompiler.Proofs.Lex.Numerals
import TemplateCompiler.Proofs.Lex.Substitutions
