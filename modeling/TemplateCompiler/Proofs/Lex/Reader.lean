import TemplateCompiler.Lex.Lexer
import TemplateCompiler.Proofs.Actions

/-!
# Reading one token at a time

A reader gives out the tokens of a source like a lexer, but it never holds any.
All that it knows is the mark behind the last token it gave out, that token, and
the modes in force, so what it gives out next cannot depend on anything else.
It says what a lexer means, whatever the lexer looked ahead at.

Lexers and readers take the same operations, and a session performs some of
them one after the other.
-/

namespace TemplateCompiler

/-- Whether a token is the block before a template. -/
def Token.isFrontMatter (token : Token) : Bool :=
  match token.kind with
  | .frontMatter _ => true
  | _ => false

/-- What can be asked of a lexer. -/
inductive LexOperation where
  | pushMode (mode : LexMode)
  | popMode
  | peek (places : Nat)
  | next
  | consume (count : Nat)
  | collect
  | last
  | position
deriving DecidableEq

/-- What an operation answers. -/
inductive LexAnswer where
  | done
  | mode (former : Option LexMode)
  | token (found : Option Token)
  | tokens (found : List Token)
  | position (place : Position)
deriving DecidableEq

namespace LexOperation

def isPeek : LexOperation → Bool
  | .peek _ => true
  | _ => false

def changesMode : LexOperation → Bool
  | .pushMode _ | .popMode => true
  | _ => false

end LexOperation

/-- The tokens that an answer tells to have been taken. -/
def LexOperation.tokensTaken : LexOperation × LexAnswer → List Token
  | (.next, .token found) => found.toList
  | (.collect, .tokens found) => found
  | _ => []

/-- Performs operations one after the other, and gives each with its answer. -/
def transcript {m : Type → Type} [Monad m] (perform : LexOperation → m LexAnswer) :
    List LexOperation → m (List (LexOperation × LexAnswer))
  | [] => return []
  | operation :: later => do
      let answer ← perform operation
      return (operation, answer) :: (← transcript perform later)

/-- Performs an operation on a lexer. -/
def Lexer.perform : LexOperation → Lexing LexAnswer
  | .pushMode mode => do
      modify (·.pushMode mode)
      return .done
  | .popMode => do
      let former := (← get).modes.head?
      modify (·.popMode)
      return .mode former
  | .peek places => return .token (← Lexer.peek places)
  | .next => return .token (← Lexer.next)
  | .consume count => do
      Lexer.consume count
      return .done
  | .collect => return .tokens (← Lexer.collect)
  | .last => return .token (← get).last
  | .position => return .position (← get).position

/-- The state of reading a source without looking ahead. -/
structure Reader where
  /-- The mark behind the last token taken. -/
  mark : Mark
  /-- The last token taken. -/
  last : Option Token
  /-- The modes that are in force, the innermost first. -/
  modes : List LexMode
deriving DecidableEq

/-- An action of a reader. -/
abbrev Reading := EStateM Lex.Error Reader

namespace Reader

/-- The reader before the first token of a source. -/
def start : Reader :=
  ⟨.start, none, []⟩

def mode (reader : Reader) : LexMode :=
  reader.modes.headD .markup

/-- The place a reader has come to in a source. -/
def cursor (source : List Char) (reader : Reader) : Cursor :=
  .ofMark source reader.mark

/-- The reader behind a token. -/
def moved (reader : Reader) (scanned : Scanned) : Reader :=
  { reader with mark := scanned.stop.mark, last := some scanned.token }

/-- The token at the place of a reader, if there is one, or the error of reading
it.  Front matter is followed by nothing in its own mode. -/
def scanned (source : List Char) (reader : Reader) : Except Lex.Error (Option Scanned) :=
  if reader.mode = .frontMatter ∧ reader.last.any Token.isFrontMatter then .ok none
  else
    let start := reader.cursor source
    match Lexer.scanAt reader.mode start with
    | .ok lexeme? => .ok (lexeme?.map (Lexer.scannedOf start))
    | .error fault => .error (.atMark fault.cause (start.advanceBy fault.anchor).mark)

variable (source : List Char)

/-- Takes the next token. -/
def next : Reading (Option Token) := fun reader =>
  match reader.scanned source with
  | .ok none => .ok none reader
  | .ok (some scanned) => .ok (some scanned.token) (reader.moved scanned)
  | .error error => .error error reader

/-- Takes `count` tokens, or as many as there are. -/
def consume : (count : Nat) → Reading Unit
  | 0 => pure ()
  | count + 1 => do
      match ← next source with
      | none => pure ()
      | some _ => consume count

/-- The token that would be next if `places` tokens were taken first; nothing is
taken. -/
def peek (places : Nat) : Reading (Option Token) := fun reader =>
  match (do consume source places; next source : Reading (Option Token)) reader with
  | .ok token? _ => .ok token? reader
  | .error error _ => .error error reader

/-- Takes tokens up to the end, but at most `bound` of them. -/
def collectAtMost : (bound : Nat) → Reading (List Token)
  | 0 => return []
  | bound + 1 => do
      match ← next source with
      | none => return []
      | some token => return token :: (← collectAtMost bound)

/-- Takes all tokens that are left in the current mode.  There are no more of
them than characters, but for front matter. -/
def collect : Reading (List Token) := fun reader =>
  collectAtMost source ((reader.cursor source).rest.length + 2) reader

/-- Performs an operation on a reader. -/
def perform : LexOperation → Reading LexAnswer
  | .pushMode mode => do
      modify fun reader => { reader with modes := mode :: reader.modes }
      return .done
  | .popMode => do
      let former := (← get).modes.head?
      modify fun reader => { reader with modes := reader.modes.tail }
      return .mode former
  | .peek places => return .token (← peek source places)
  | .next => return .token (← next source)
  | .consume count => do
      consume source count
      return .done
  | .collect => return .tokens (← collect source)
  | .last => return .token (← get).last
  | .position => return .position (← get).mark.position

end Reader

end TemplateCompiler
