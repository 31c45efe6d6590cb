import TemplateCompiler.Proofs.Lex.Continuation
import TemplateCompiler.Proofs.Parse.Building
import TemplateCompiler.Proofs.Template.Spelling
import Mathlib.Data.List.Forall2

/-!
# A text inside of a longer one

The parser reads a text by itself and again as a part of a longer source.  A seam
says what is different about the second reading: what follows the text there,
what was built before it, and how far its places are moved.  States of the two
readings correspond when they differ in just that.

Places are compared only if the seam is exact.  An exact seam has nothing behind
the text, so both readings fail alike.  For the other seams the second reading is
followed only as long as the first one succeeds, and as long as what follows does
not disturb it.
-/

namespace TemplateCompiler

/-- The same place in a text that follows some bytes and some whole lines. -/
def Position.shifted (bytes lines : Nat) (position : Position) : Position :=
  { position with line := position.line + lines, offset := position.offset + bytes }

def Mark.shifted (bytes lines : Nat) (mark : Mark) : Mark :=
  ⟨mark.offset + bytes, mark.line + lines, mark.column⟩

def Lex.Error.shifted (bytes lines : Nat) (error : Lex.Error) : Lex.Error :=
  ⟨error.cause, error.position.shifted bytes lines⟩

def Parse.Error.shifted (bytes lines : Nat) : Parse.Error → Parse.Error
  | .lexical error => .lexical (error.shifted bytes lines)
  | .grammatical cause position => .grammatical cause (position.shifted bytes lines)

theorem Mark.step_shifted (bytes lines : Nat) (mark : Mark) (c : Char) (next : Option Char) :
    (mark.shifted bytes lines).step c next = (mark.step c next).shifted bytes lines := by
  simp only [step, shifted]
  split
  · simp only [mk.injEq, and_true]
    omega
  · split <;> simp only [mk.injEq, and_true] <;> omega

theorem Cursor.advanceBy_shifted {bytes lines : Nat} {first second : Cursor}
    (restEq : second.rest = first.rest) (markEq : second.mark = first.mark.shifted bytes lines)
    (count : Nat) :
    (advanceBy count second).mark = (advanceBy count first).mark.shifted bytes lines := by
  induction count generalizing first second with
  | zero => exact markEq
  | succ count ih =>
      cases firstEq : first.rest with
      | nil =>
          rw [advanceBy_of_rest_nil firstEq, advanceBy_of_rest_nil (restEq.trans firstEq), markEq]
      | cons c rest =>
          rw [advanceBy_succ_cons firstEq, advanceBy_succ_cons (restEq.trans firstEq)]
          exact ih rfl (by rw [markEq, Mark.step_shifted])

/-- Whether a mode ends with a delimiter of its own. -/
def LexMode.IsInner (mode : LexMode) : Prop :=
  mode = .tag ∨ mode = .expression ∨ mode = .style

namespace Parse

/-- How a text is read as a part of a longer source. -/
structure Seam where
  /-- What follows the text. -/
  tail : List Char
  /-- The nodes that were at the top before the text, the last one first. -/
  base : List Node
  /-- The document type that was declared before the text. -/
  doctype : Option String
  /-- The front matter of the longer source. -/
  matter : String
  /-- The number of bytes before the text. -/
  bytes : Nat
  /-- The number of lines before the text. -/
  lines : Nat
  /-- Whether the places in both readings, and their errors, are compared. -/
  exact : Prop
  /-- Whether declarations in the text are declarations of the longer source. -/
  declares : Prop
  tail_of_exact : exact → tail = []
  declares_of_exact : exact → declares
  base_of_declares : declares → base = []
  /-- What follows the text begins with a token, if it begins with anything. -/
  scans : ∀ fault, Lex.scanIn .markup tail ≠ .error fault

namespace Seam

section Kinds

/-- How a text is read behind a block of front matter. -/
def behindBlock (block : List Char) (matter : String) : Seam where
  tail := []
  base := []
  doctype := none
  matter := matter
  bytes := Text.byteLength block
  lines := Text.lineBreaks block none
  exact := True
  declares := True
  tail_of_exact := fun _ => rfl
  declares_of_exact := id
  base_of_declares := fun _ => rfl
  scans := nofun

/-- How a text is read before another one. -/
def beforeText (text : List Char) (scans : ∀ fault, Lex.scanIn .markup text ≠ .error fault) :
    Seam where
  tail := text
  base := []
  doctype := none
  matter := ""
  bytes := 0
  lines := 0
  exact := False
  declares := True
  tail_of_exact := False.elim
  declares_of_exact := False.elim
  base_of_declares := fun _ => rfl
  scans := scans

/-- How a text is read where the parser has read another one. -/
def behindState (state : State) : Seam where
  tail := []
  base := state.top
  doctype := state.document.doctype?
  matter := state.document.frontMatter
  bytes := state.cursor.mark.offset
  lines := 0
  exact := False
  declares := False
  tail_of_exact := False.elim
  declares_of_exact := False.elim
  base_of_declares := False.elim
  scans := nofun

end Kinds

variable (seam : Seam)

/-- Whether two places are the same one, if places are compared. -/
def Agrees (first second : Position) : Prop :=
  seam.exact → second = first.shifted seam.bytes seam.lines

mutual

/-- Whether two nodes are built from the same text.  The place of code is not
compared: it is never reported. -/
def Matches : Node → Node → Prop
  | .node _ kind place children, .node _ otherKind otherPlace others =>
      otherKind = kind ∧ (kind.isCode = false → seam.Agrees place otherPlace) ∧
        AllMatch children others

def AllMatch : List Node → List Node → Prop
  | [], [] => True
  | first :: children, other :: others => Matches first other ∧ AllMatch children others
  | _, _ => False

end

theorem allMatch_iff {nodes others : List Node} :
    seam.AllMatch nodes others ↔ List.Forall₂ seam.Matches nodes others := by
  induction nodes generalizing others with
  | nil => cases others <;> simp [AllMatch]
  | cons first nodes ih => cases others <;> simp [AllMatch, ih]

variable {seam} in
theorem Matches.kind_eq {node other : Node} (matched : seam.Matches node other) :
    other.kind = node.kind := by
  obtain ⟨id, kind, place, children⟩ := node
  obtain ⟨id', kind', place', children'⟩ := other
  exact matched.1

/-- Whether two constructs that are open were opened by the same text. -/
structure MatchesOpen (first second : Open) : Prop where
  kind : second.kind = first.kind
  position : seam.Agrees first.position second.position
  children : List.Forall₂ seam.Matches first.children second.children

/-- Whether two states are those of both readings at the same place. -/
structure Corresponds (first second : State) : Prop where
  modes : second.modes = first.modes
  rest : second.rest = first.rest ++ seam.tail
  offset : second.cursor.mark.offset = first.cursor.mark.offset + seam.bytes
  mark : seam.exact → second.cursor.mark = first.cursor.mark.shifted seam.bytes seam.lines
  doctype : second.document.doctype? = seam.doctype.or first.document.doctype?
  matter : second.document.frontMatter = seam.matter
  plain : first.document.frontMatter = ""
  enclosing : List.Forall₂ seam.MatchesOpen first.enclosing second.enclosing
  top : ∃ nodes, List.Forall₂ seam.Matches first.top nodes ∧ second.top = nodes ++ seam.base

variable {seam} {first second : State}

theorem agrees_shifted (place : Position) :
    seam.Agrees place (place.shifted seam.bytes seam.lines) :=
  fun _ => rfl

namespace Corresponds

theorem mode (corresponds : seam.Corresponds first second) : second.mode = first.mode :=
  congrArg (·.headD .markup) corresponds.modes

theorem spanOf (corresponds : seam.Corresponds first second) (piece : List Char) :
    seam.Agrees (first.spanOf piece) (second.spanOf piece) := by
  intro isExact
  rw [State.spanOf, corresponds.mark isExact]
  rfl

theorem after (corresponds : seam.Corresponds first second) {piece : List Char}
    (ahead : piece <+: first.rest) :
    seam.Corresponds (first.after piece) (second.after piece) where
  modes := corresponds.modes
  rest := by
    rw [State.rest_after, State.rest_after, corresponds.rest,
      List.drop_append_of_le_length ahead.length_le]
  offset := by
    have restEq : second.cursor.rest = first.cursor.rest ++ seam.tail := corresponds.rest
    have within : piece.length ≤ first.cursor.rest.length := ahead.length_le
    rw [State.cursor_after, State.cursor_after, Cursor.advanceBy_offset, Cursor.advanceBy_offset,
      corresponds.offset, restEq, List.take_append_of_le_length within]
    omega
  mark := by
    intro isExact
    have restEq := corresponds.rest
    rw [seam.tail_of_exact isExact, List.append_nil] at restEq
    exact Cursor.advanceBy_shifted restEq (corresponds.mark isExact) _
  doctype := corresponds.doctype
  matter := corresponds.matter
  plain := corresponds.plain
  enclosing := corresponds.enclosing
  top := corresponds.top

theorem entered (corresponds : seam.Corresponds first second) (mode : LexMode) :
    seam.Corresponds (first.entered mode) (second.entered mode) :=
  { corresponds with modes := congrArg (mode :: ·) corresponds.modes }

theorem left (corresponds : seam.Corresponds first second) :
    seam.Corresponds first.left second.left :=
  { corresponds with modes := congrArg List.tail corresponds.modes }

theorem innermost? (corresponds : seam.Corresponds first second) :
    second.innermost? = first.innermost? := by
  have enclosing := corresponds.enclosing
  rw [State.innermost?, State.innermost?]
  generalize first.enclosing = opened, second.enclosing = others at enclosing ⊢
  cases enclosing with
  | nil => rfl
  | cons matched others => exact congrArg some matched.kind

theorem enclosing_eq_nil (corresponds : seam.Corresponds first second)
    (nothingOpen : first.enclosing = []) : second.enclosing = [] := by
  have enclosing := corresponds.enclosing
  rwa [nothingOpen, List.forall₂_nil_left_iff] at enclosing

theorem atStart (corresponds : seam.Corresponds first second) (declares : seam.declares) :
    second.atStart = first.atStart := by
  obtain ⟨nodes, matched, topEq⟩ := corresponds.top
  rw [seam.base_of_declares declares, List.append_nil] at topEq
  have enclosingEq : second.enclosing.isEmpty = first.enclosing.isEmpty := by
    rw [Bool.eq_iff_iff, List.isEmpty_iff_length_eq_zero, List.isEmpty_iff_length_eq_zero,
      corresponds.enclosing.length_eq]
  unfold State.atStart
  rw [enclosingEq, topEq]
  congr 1
  clear topEq
  generalize first.top = others at matched
  induction matched with
  | nil => rfl
  | cons matched _ ih => simp only [List.all_cons, ih, matched.kind_eq]

theorem add (corresponds : seam.Corresponds first second) {node other : Node}
    (matched : seam.Matches node other) :
    seam.Corresponds (first.add node) (second.add other) := by
  obtain ⟨modes, rest, offset, mark, doctype, matter, plain, enclosing, top⟩ := corresponds
  obtain ⟨lexer, document, opened, nodes, dropped, size⟩ := first
  obtain ⟨lexer', document', opened', nodes', dropped', size'⟩ := second
  cases enclosing with
  | nil =>
      obtain ⟨others, matchedTop, topEq⟩ := top
      exact ⟨modes, rest, offset, mark, doctype, matter, plain, .nil,
        other :: others, .cons matched matchedTop, by simp_all [State.add]⟩
  | cons matchedOpen others =>
      exact ⟨modes, rest, offset, mark, doctype, matter, plain,
        .cons ⟨matchedOpen.kind, matchedOpen.position, .cons matched matchedOpen.children⟩ others,
        top⟩

theorem addLeaf (corresponds : seam.Corresponds first second) (kind : NodeKind)
    {place other : Position} (agrees : kind.isCode = false → seam.Agrees place other) :
    seam.Corresponds (first.addLeaf kind place) (second.addLeaf kind other) := by
  have numbered : seam.Corresponds { first with size := first.size + 1 }
    { second with size := second.size + 1 } := { corresponds with }
  exact numbered.add ⟨rfl, agrees, trivial⟩

theorem openNode (corresponds : seam.Corresponds first second) (kind : NodeKind)
    {place other : Position} (agrees : seam.Agrees place other) :
    seam.Corresponds (first.openNode kind place) (second.openNode kind other) :=
  { corresponds with enclosing := .cons ⟨rfl, agrees, .nil⟩ corresponds.enclosing }

theorem closeNode (corresponds : seam.Corresponds first second) :
    seam.Corresponds first.closeNode second.closeNode := by
  have enclosing := corresponds.enclosing
  cases firstEq : first.enclosing with
  | nil =>
      simp only [State.closeNode, firstEq, corresponds.enclosing_eq_nil firstEq]
      exact corresponds
  | cons construct outer =>
      rw [firstEq] at enclosing
      cases secondEq : second.enclosing with
      | nil => simp [secondEq] at enclosing
      | cons construct' outer' =>
          rw [secondEq, List.forall₂_cons] at enclosing
          obtain ⟨matched, others⟩ := enclosing
          have closed : seam.Corresponds { first with enclosing := outer }
            { second with enclosing := outer' } := { corresponds with enclosing := others }
          have children := seam.allMatch_iff.2 (List.rel_reverse matched.children)
          simp only [State.closeNode, firstEq, secondEq]
          exact closed.add ⟨matched.kind, fun _ => matched.position, children⟩

theorem addCode (corresponds : seam.Corresponds first second) (code : String)
    (place other : Position) :
    seam.Corresponds (first.addCode code place) (second.addCode code other) := by
  have enclosing := corresponds.enclosing
  unfold State.addCode
  split
  · next id kind opened childId before childPlace below earlier outer firstEq =>
      rw [firstEq] at enclosing
      obtain ⟨⟨id', kind', opened', children'⟩, outer', matched, others, secondEq⟩ :=
        List.forall₂_cons_left_iff.1 enclosing
      obtain ⟨⟨childId', childKind', childPlace', below'⟩, earlier', child, siblings, rfl⟩ :=
        List.forall₂_cons_left_iff.1 matched.children
      obtain ⟨rfl, -, matchedBelow⟩ := child
      simp only [secondEq]
      have longer : ∀ length length', seam.Matches
          (.node childId (.script (before ++ code)) (childPlace.withLength length) below)
          (.node childId' (.script (before ++ code)) (childPlace'.withLength length') below') :=
        fun _ _ => ⟨rfl, nofun, matchedBelow⟩
      exact { corresponds with
        enclosing := .cons ⟨matched.kind, matched.position, .cons (longer _ _) siblings⟩ others }
  · next notCode =>
      split
      · next id' kind' opened' childId' before' childPlace' below' earlier' outer' secondEq =>
          rw [secondEq] at enclosing
          obtain ⟨⟨id, kind, opened, children⟩, outer, matched, others, firstEq⟩ :=
            List.forall₂_cons_right_iff.1 enclosing
          obtain ⟨⟨childId, childKind, childPlace, below⟩, earlier, child, siblings, rfl⟩ :=
            List.forall₂_cons_right_iff.1 matched.children
          obtain ⟨rfl, -⟩ := child
          exact (notCode _ _ _ _ _ _ _ _ _ firstEq).elim
      · exact corresponds.addLeaf (.script code) nofun

theorem declare (corresponds : seam.Corresponds first second) (declares : seam.declares)
    {name : String} {parameters : List String} (place other : Position) :
    seam.Corresponds (first.declare ⟨name, parameters, place⟩)
      (second.declare ⟨name, parameters, other⟩) :=
  { corresponds with
    doctype := by
      have doctypeEq := corresponds.doctype
      simp only [Document.doctype?] at doctypeEq
      simp only [State.declare, Document.doctype?, List.findSome?_append, doctypeEq,
        Option.or_assoc]
      rfl
    top := ⟨[], .nil, by rw [seam.base_of_declares declares]; rfl⟩ }

end Corresponds

section Disturbance

variable (seam)

/-- Whether the next token is the same one when the text is continued. -/
def Steady (state : State) : Prop :=
  ∀ lexeme, Lex.scanIn state.mode state.rest = .ok (some lexeme) →
    Lex.scanIn state.mode (state.rest ++ seam.tail) = .ok (some lexeme)

/-- Whether no declaration was read that is none of the longer source. -/
def Kept (state : State) : Prop :=
  seam.declares ∨ state.document.declarations = []

/-- Whether the text itself ends the mode it is read in.  In markup nothing has
to end, but a text that goes up to the end must not go on behind it. -/
def Ends (state : State) : Prop :=
  match state.mode with
  | .frontMatter => False
  | .markup =>
      (state.rest ≠ [] ∧ seam.Steady state) ∨
        (state.rest = [] ∧ state.enclosing = [] ∧
          ((∀ node ∈ state.top.head?, node.kind.isText = false) ∨ Lex.BeginsConstruct seam.tail))
  | .script => state.rest ≠ [] ∧ seam.Steady state
  | mode => Lex.IsClosed mode state.rest

/-- Whether the longer source does not disturb how the text is read from a
state on. -/
def Undisturbed (state : State) : Prop :=
  seam.Kept state ∧ (seam.tail = [] ∨ seam.Ends state)

end Disturbance

namespace Undisturbed

variable {state : State}

theorem steady (undisturbed : seam.Undisturbed state) : seam.Steady state := by
  intro lexeme found
  rcases undisturbed.2 with noTail | ends
  · rw [noTail, List.append_nil]
    exact found
  · unfold Ends at ends
    split at ends
    · contradiction
    · next modeEq =>
        rcases ends with ⟨-, isSteady⟩ | ⟨ended, -⟩
        · exact isSteady lexeme found
        · simp [modeEq, ended, Lex.scanIn, Lex.scanMarkup] at found
    · exact ends.2 lexeme found
    · exact Lex.scanIn_append_of_isClosed ends found

theorem of_closed (kept : seam.Kept state) (inner : state.mode.IsInner)
    (closed : Lex.IsClosed state.mode state.rest) : seam.Undisturbed state := by
  refine ⟨kept, .inr ?_⟩
  unfold Ends
  rcases inner with modeEq | modeEq | modeEq <;> rwa [modeEq] at closed ⊢

theorem closed (undisturbed : seam.Undisturbed state) (inner : state.mode.IsInner) :
    seam.tail = [] ∨ Lex.IsClosed state.mode state.rest := by
  refine undisturbed.2.imp_right fun ends => ?_
  unfold Ends at ends
  rcases inner with modeEq | modeEq | modeEq <;> rwa [modeEq] at ends ⊢

/-- What is read inside of a tag, an expression or a style sheet does not end
it. -/
theorem of_after {piece : List Char} (inner : state.mode.IsInner)
    (undisturbed : seam.Undisturbed (state.after piece)) : seam.Undisturbed state := by
  rcases undisturbed.closed inner with noTail | closed
  · exact ⟨undisturbed.1, .inl noTail⟩
  · rw [State.rest_after] at closed
    exact of_closed undisturbed.1 inner (closed.of_suffix (List.drop_suffix _ _))

theorem tail_eq_nil (undisturbed : seam.Undisturbed state) (inner : state.mode.IsInner)
    (ended : state.rest = []) : seam.tail = [] :=
  (undisturbed.closed inner).resolve_right fun closed => closed.ne_nil ended

theorem of_bounded {kind : TokenKind} {piece : List Char} (kept : seam.Kept state)
    (outer : state.mode = .markup ∨ state.mode = .script) (known : state.Next kind piece)
    (bounded : Lex.IsBounded kind (state.rest.drop piece.length) seam.tail) :
    seam.Undisturbed state := by
  have isSteady : seam.Steady state := by
    intro lexeme found
    obtain rfl := Option.some.inj (Except.ok.inj (known.scanned.symm.trans found))
    rcases outer with modeEq | modeEq <;> rw [modeEq] at found ⊢
    · exact Lex.scanMarkup_append found bounded
    · exact Lex.scanScript_append found bounded
  have notMatter : state.mode ≠ .frontMatter := by
    rcases outer with modeEq | modeEq <;> simp [modeEq]
  have nonempty : state.rest ≠ [] := fun ended =>
    (known.fits notMatter).1 (List.prefix_nil.1 (ended ▸ known.ahead))
  refine ⟨kept, .inr ?_⟩
  unfold Ends
  rcases outer with modeEq | modeEq <;> rw [modeEq]
  · exact .inl ⟨nonempty, isSteady⟩
  · exact ⟨nonempty, isSteady⟩

end Undisturbed

end Seam

end Parse

end TemplateCompiler
