import TemplateCompiler.Lex.Lexeme

/-!
# Tokens of markup

Between tags a template consists of whitespace, text, entities, comments and
the characters that open or close a construct.  An ampersand always begins an
entity, which must be complete.
-/

namespace TemplateCompiler

namespace Lex

/-- Scans a markup comment; `text` follows its opening delimiter. -/
def scanMarkupComment (text : List Char) : Scan :=
  match Text.splitAtFirst? ['-', '-', '>'] text with
  | some (body, _) => .found (.comment (String.ofList body)) (body.length + 7)
  | none => .error ⟨.unterminatedComment, 0, text.length + 4⟩

/-- Scans an entity; `text` follows its ampersand. -/
def scanEntity (text : List Char) : Scan :=
  let body := text.takeWhile CharClass.isEntityPart
  match text.drop body.length with
  | ';' :: _ =>
      if body.isEmpty then .error ⟨.invalidEntity "&", 0, 1⟩
      else .found (.entity (String.ofList ('&' :: body ++ [';']))) (body.length + 2)
  | _ => .error ⟨.invalidEntity (String.ofList ('&' :: body)), 0, body.length + 1⟩

def scanMarkup : List Char → Scan
  | [] => .ok none
  | '<' :: '!' :: '-' :: '-' :: text => scanMarkupComment text
  | '{' :: '{' :: _ => .found .interpolationStart 2
  | '&' :: text => scanEntity text
  | '<' :: _ => .mark .less
  | '>' :: _ => .mark .greater
  | '{' :: _ => .mark .leftBrace
  | '}' :: _ => .mark .rightBrace
  | '@' :: _ => .mark .at
  | c :: text =>
      if CharClass.isMarkupSpace c then
        let run := whitespaceRun (c :: text)
        .found (.whitespace (String.ofList run)) run.length
      else
        let run := (c :: text).takeWhile fun c => !CharClass.isTextBoundary c
        .found (.text (String.ofList run)) run.length

end Lex

end TemplateCompiler
