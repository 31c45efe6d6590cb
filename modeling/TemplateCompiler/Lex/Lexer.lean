import TemplateCompiler.Lex.Expression
import TemplateCompiler.Lex.FrontMatter
import TemplateCompiler.Lex.Markup
import TemplateCompiler.Lex.Script
import TemplateCompiler.Lex.Style
import TemplateCompiler.Lex.Tag
import TemplateCompiler.Token

/-!
# The lexer

A lexer reads a source token by token, each by the rules of the innermost mode.
It may look ahead any number of tokens.  A change of mode discards what was
looked ahead at and goes back to the end of the last token that was taken, so
the next token is always read in the mode that holds when it is asked for.

A lexical error leaves the place of scanning where the scanner gave up; tokens
that were looked ahead at before stay available.

A lexer logs what it reads, what it gives out and what its changes of mode
discard.  The log is for tracing; nothing that a lexer does depends on it.
-/

namespace TemplateCompiler

/-- A token and the cursor behind it. -/
structure Scanned where
  token : Token
  stop : Cursor
deriving DecidableEq

/-- An entry in the log of a lexer. -/
inductive LexEvent where
  /-- A token was read by the rules of a mode. -/
  | scanned (mode : LexMode) (token : Token)
  /-- A token was given out while a mode was in force. -/
  | taken (mode : LexMode) (token : Token)
  /-- The modes changed, which discarded the tokens looked ahead at. -/
  | changed (discarded : List Token)
deriving DecidableEq

/-- The state of reading a source. -/
structure Lexer where
  /-- Where the next scan starts. -/
  ahead : Cursor
  /-- The modes that are in force, the innermost first. -/
  modes : List LexMode
  /-- The tokens looked ahead at, the next one first. -/
  lookahead : List Scanned
  /-- The cursor behind the last token taken. -/
  taken : Cursor
  /-- The last token taken. -/
  last : Option Token
  /-- What happened so far, the latest entry first. -/
  history : List LexEvent
deriving DecidableEq

/-- An action of the lexer; its state is kept when the action fails. -/
abbrev Lexing := EStateM Lex.Error Lexer

namespace Lexer

/-- The lexer before the first token of a source. -/
def ofText (text : List Char) : Lexer :=
  ⟨.ofText text, [], [], .ofText text, none, []⟩

/-- The innermost mode; markup when there is none. -/
def mode (lexer : Lexer) : LexMode :=
  lexer.modes.headD .markup

/-- The place just behind the last token taken. -/
def position (lexer : Lexer) : Position :=
  lexer.taken.mark.position

/-- The source between two byte offsets. -/
def slice (lexer : Lexer) (start stop : Nat) : String :=
  String.ofList (lexer.taken.slice start stop)

/-- Discards what was looked ahead at. -/
def rewind (lexer : Lexer) : Lexer :=
  { lexer with
    ahead := lexer.taken
    lookahead := []
    history := .changed (lexer.lookahead.map (·.token)) :: lexer.history }

def pushMode (mode : LexMode) (lexer : Lexer) : Lexer :=
  { lexer.rewind with modes := mode :: lexer.modes }

def popMode (lexer : Lexer) : Lexer :=
  { lexer.rewind with modes := lexer.modes.tail }

/-- Whether the token before the place of scanning is front matter. -/
def followsFrontMatter (lexer : Lexer) : Bool :=
  let previous :=
    match lexer.lookahead.getLast? with
    | some scanned => some scanned.token
    | none => lexer.last
  previous.any fun token =>
    match token.kind with
    | .frontMatter _ => true
    | _ => false

/-- Scans the text ahead of a cursor in a mode. -/
def scanAt (mode : LexMode) (cursor : Cursor) : Lex.Scan :=
  match mode with
  | .frontMatter => Lex.scanFrontMatter (cursor.mark.offset == 0) cursor.rest
  | .markup => Lex.scanMarkup cursor.rest
  | .tag => Lex.scanTag cursor.rest
  | .style => Lex.scanStyle cursor.rest
  | .script => Lex.scanScript cursor.rest
  | .expression => Lex.scanExpression cursor.rest

/-- The token that a lexeme at a cursor is. -/
def scannedOf (start : Cursor) (lexeme : Lex.Lexeme) : Scanned :=
  let stop := start.advanceBy lexeme.length
  { token :=
      ⟨lexeme.kind, start.mark.position.withLength (stop.mark.offset - start.mark.offset)⟩
    stop := stop }

/-- Scans one more token.  Front matter is followed by nothing in its own
mode. -/
def scan : Lexing (Option Scanned) := fun lexer =>
  if lexer.mode = .frontMatter ∧ lexer.followsFrontMatter then .ok none lexer
  else
    let start := lexer.ahead
    match scanAt lexer.mode start with
    | .ok none => .ok none lexer
    | .ok (some lexeme) =>
        let scanned := scannedOf start lexeme
        .ok (some scanned)
          { lexer with
            ahead := scanned.stop
            history := .scanned lexer.mode scanned.token :: lexer.history }
    | .error fault =>
        .error (.atMark fault.cause (start.advanceBy fault.anchor).mark)
          { lexer with ahead := start.advanceBy fault.reached }

/-- Looks `count` tokens further ahead, or as far as there are tokens. -/
def lookFurther : (count : Nat) → Lexing Unit
  | 0 => pure ()
  | count + 1 => do
      match ← scan with
      | none => pure ()
      | some scanned =>
          modify fun lexer => { lexer with lookahead := lexer.lookahead ++ [scanned] }
          lookFurther count

/-- The token some places ahead, which is not taken. -/
def peek (places : Nat) : Lexing (Option Token) := do
  lookFurther (places + 1 - (← get).lookahead.length)
  return (← get).lookahead[places]?.map (·.token)

/-- Takes a token that was scanned. -/
def take (scanned : Scanned) : Lexing Token := do
  modify fun lexer =>
    { lexer with
      taken := scanned.stop
      last := some scanned.token
      history := .taken lexer.mode scanned.token :: lexer.history }
  return scanned.token

/-- Takes the next token. -/
def next : Lexing (Option Token) := do
  match (← get).lookahead with
  | scanned :: later =>
      modify fun lexer => { lexer with lookahead := later }
      return some (← take scanned)
  | [] =>
      match ← scan with
      | some scanned => return some (← take scanned)
      | none => return none

/-- Takes `count` tokens, or as many as there are. -/
def consume : (count : Nat) → Lexing Unit
  | 0 => pure ()
  | count + 1 => do
      match ← next with
      | none => pure ()
      | some _ => consume count

/-- Takes tokens up to the end, but at most `bound` of them. -/
def collectAtMost : (bound : Nat) → Lexing (List Token)
  | 0 => return []
  | bound + 1 => do
      match ← next with
      | none => return []
      | some token => return token :: (← collectAtMost bound)

/-- Takes all tokens that are left in the current mode.  A token takes at least
one character, front matter excepted, of which there is one at most. -/
def collect : Lexing (List Token) := do
  let lexer ← get
  collectAtMost (lexer.lookahead.length + lexer.ahead.rest.length + 2)

end Lexer

end TemplateCompiler
