import TemplateCompiler.Proofs.Parse.Productions
import TemplateCompiler.Proofs.Parse.Soundness

/-!
# The modes of the parser

When a text is parsed, no change of mode discards a token, so every token is
taken in the mode it was read in, and none is read twice.  Between constructs no
mode is in force, and between the pieces of a script only that of scripts is.  As
every token of these two modes belongs there, two errors never occur.
-/

namespace TemplateCompiler

namespace Parser

open Parse State

variable {α : Type} {modes : List LexMode} {left bound : Nat}

section Templates

theorem frontMatter_keeps (text : List Char) :
    Keeps frontMatter (fun state => state = .ofText text)
      fun _ state => state.Stands [] text.length 0 := by
  rintro _ rfl
  have ledger := ((Lexer.ledger_ofText text).pushMode rfl .frontMatter).next
  have enters : (State.ofText text).lexer.pushMode .frontMatter = Lexer.beforeMatter text := rfl
  simp only [frontMatter, Parser.pushMode, Parser.popMode, lexing, run_bind, run_modify, enters]
  cases scanned : Lex.scanFrontMatter true text with
  | error fault =>
      obtain ⟨after, failed⟩ := Lexer.next_beforeMatter_error scanned
      rw [show (Lexer.ofText text).pushMode .frontMatter = Lexer.beforeMatter text from rfl,
        failed] at ledger
      rw [failed]
      exact ⟨ledger, trivial⟩
  | ok lexeme? =>
      obtain ⟨content, length, rfl⟩ := Lex.exists_of_scanFrontMatter scanned
      rw [show (Lexer.ofText text).pushMode .frontMatter = Lexer.beforeMatter text from rfl,
        Lexer.next_beforeMatter scanned] at ledger
      rw [Lexer.next_beforeMatter scanned]
      refine ⟨⟨List.not_mem_nil, rfl⟩, ledger.popMode rfl, rfl, ?_, Nat.le_refl 0⟩
      change (((Cursor.ofText text).advanceBy length).rest).length ≤ text.length
      rw [Cursor.advanceBy_rest, List.length_drop]
      exact Nat.sub_le _ _

theorem expectNothingOpen_keeps :
    Keeps expectNothingOpen (Stands modes left 0) fun _ => Stands modes left 0 := by
  refine Keeps.get fun state => ?_
  split
  · exact failAt_keeps trivial
  · exact Keeps.pure fun _ => id

theorem template_keeps (text : List Char) :
    Keeps (template (text.length + 1)) (fun state => state = .ofText text)
      fun _ state => state.Stands [] text.length 0 := by
  refine (frontMatter_keeps text).bind fun _ => ?_
  refine (markup_keeps (Nat.lt_succ_self _)).resume.bind fun _ => ?_
  exact expectNothingOpen_keeps

/-- Where the main loop stands when a text is parsed, and its bound there. -/
inductive MarkupHead (text : List Char) : Nat → State → Prop
  | first {state : State} (ran : frontMatter (.ofText text) = .ok () state) :
      MarkupHead text (text.length + 1) state
  | later {bound : Nat} {before looked after : State} {token : Token}
      (head : MarkupHead text (bound + 1) before)
      (peeked : Parser.peek before = .ok (some token) looked)
      (ran : construct bound token looked = .ok () after) : MarkupHead text bound after

/-- Reads a start tag, and tells whether the content of a script follows. -/
def scriptStart (bound : Nat) : Parser Bool := do
  let start ← nextPosition
  skip
  pushMode .tag
  match ← peekKind with
  | some (.identifier _) =>
      let tag ← startTag bound
      popMode
      let position ← spanningFrom start
      if tag.selfClosing then return false
      else
        modify (·.openNode (.element tag) position)
        if tag.isNamed "script" then
          pushMode .script
          return true
        else return false
  | _ => return false

/-- Reads a start tag, and opens the element unless the tag closes it. -/
def openTag (bound : Nat) : Parser (Option (Element × Position)) := do
  let start ← nextPosition
  skip
  pushMode .tag
  match ← peekKind with
  | some (.identifier _) =>
      let tag ← startTag bound
      popMode
      let position ← spanningFrom start
      if tag.selfClosing then return none
      else
        modify (·.openNode (.element tag) position)
        return some (tag, position)
  | _ => return none

/-- Parses the content of an element that is open, if it has a mode of its own. -/
def elementContent (bound : Nat) (tag : Element) : Parser Unit :=
  if tag.isNamed "script" then do
    pushMode .script
    scriptContent bound
  else if tag.isNamed "style" then do
    pushMode .style
    styleContent bound
  else pure ()

/-- A piece of a script is read, and more of the script follows. -/
inductive ScriptRound (bound : Nat) : State → State → Prop
  | code {before looked after : State} {code : String} {position : Position}
      (peeked : Parser.peek before = .ok (some ⟨.scriptCode code, position⟩) looked)
      (ran : (do skip; modify (·.addCode code position) : Parser Unit) looked = .ok () after) :
      ScriptRound bound before after
  | braces {before looked after : State} {position : Position}
      (peeked : Parser.peek before = .ok (some ⟨.interpolationEnd, position⟩) looked)
      (ran : (do skip; modify (·.addCode "\x7d\x7d" position) : Parser Unit) looked =
        .ok () after) : ScriptRound bound before after
  | interpolation {before looked after : State} {position : Position}
      (peeked : Parser.peek before = .ok (some ⟨.interpolationStart, position⟩) looked)
      (ran : interpolation bound looked = .ok () after) : ScriptRound bound before after

/-- Where the loop over the content of a script stands when a text is parsed, and
its bound there. -/
inductive ScriptHead (text : List Char) : Nat → State → Prop
  | first {bound : Nat} {before looked after : State} {token : Token}
      (head : MarkupHead text (bound + 1) before)
      (peeked : Parser.peek before = .ok (some token) looked)
      (opens : token.kind = .punctuation .less)
      (ran : scriptStart bound looked = .ok true after) : ScriptHead text bound after
  | later {bound : Nat} {before after : State} (head : ScriptHead text (bound + 1) before)
      (round : ScriptRound bound before after) : ScriptHead text bound after

variable {text : List Char} {state after : State}

/-- From where the main loop stands the rest of a text is parsed. -/
theorem MarkupHead.template_eq (head : MarkupHead text bound state) :
    template (text.length + 1) (.ofText text) =
      (do markup bound; expectNothingOpen : Parser Unit) state := by
  induction head with
  | first ran => rw [template, run_bind, ran]
  | later head peeked ran ih =>
      rw [ih, run_bind, markup, run_bind, peeked]
      simp only [run_bind, ran]

theorem MarkupHead.stands (head : MarkupHead text bound state) :
    ∃ left, left < bound ∧ state.Stands [] left 1 := by
  induction head with
  | first ran =>
      exact ⟨_, Nat.lt_succ_self _,
        ((frontMatter_keeps text).of_ok rfl ran).mono (Nat.le_refl _)⟩
  | @later bound before looked after token head peeked ran ih =>
      obtain ⟨left, less, stands⟩ := ih
      have facing := peek_keeps.of_ok stands peeked
      obtain ⟨fewer, lessThen, standsThen⟩ :=
        (construct_keeps token (Nat.le_of_lt_succ less)).of_ok facing ran
      exact ⟨fewer, by omega, standsThen⟩

theorem scriptStart_eq (bound : Nat) :
    scriptStart bound = do
      match ← openTag bound with
      | some (tag, _) =>
          if tag.isNamed "script" then
            pushMode .script
            return true
          else return false
      | none => return false := by
  simp only [scriptStart, openTag, bind_assoc]
  congr; funext start
  congr; funext _
  congr; funext _
  congr; funext kind?
  split
  · simp only [bind_assoc]
    congr; funext tag
    congr; funext _
    congr; funext position
    split <;> simp
  · simp

theorem openTag_keeps (token : Token) (enough : left ≤ bound) :
    Keeps (openTag bound) (fun state => state.Stands modes left 1 ∧ state.Faces (some token))
      fun opened? state => opened?.isSome = true →
        ∃ fewer, fewer < left ∧ state.Stands modes fewer 0 := by
  apply Keeps.enter (by decide)
  intro start fewer less
  refine Keeps.peekKind fun token? => ?_
  split
  · refine (startTag_keeps (by omega)).looked.bind fun tag => ?_
    apply Keeps.leave
    intro position
    split
    · exact Keeps.pure fun _ _ => nofun
    · refine (modify_keeps (State.openNode_lexerFree _ _)).bind fun _ => ?_
      exact Keeps.pure fun _ stands _ => ⟨fewer, less, stands⟩
  · exact Keeps.pure fun _ _ => nofun

theorem scriptStart_keeps (token : Token) (enough : left ≤ bound) :
    Keeps (scriptStart bound) (fun state => state.Stands [] left 1 ∧ state.Faces (some token))
      fun opened state => opened = true →
        ∃ fewer, fewer < left ∧ state.Stands [.script] fewer 1 := by
  rw [scriptStart_eq]
  refine (openTag_keeps token enough).bind fun opened? => ?_
  cases opened? with
  | none => exact Keeps.pure fun _ _ => nofun
  | some element =>
      simp only
      split
      · refine Keeps.weaken ?_ fun _ stands => stands rfl
        refine Keeps.ofFewer fun fewer less => (pushMode_keeps (by decide)).bind fun _ => ?_
        exact Keeps.pure fun _ stands _ => ⟨fewer, less, stands.mono (Nat.le_refl _)⟩
      · exact Keeps.pure fun _ _ => nofun

theorem ScriptRound.stands (round : ScriptRound bound state after)
    (stands : state.Stands modes left 1) :
    ∃ fewer, fewer < left ∧ after.Stands modes fewer 1 := by
  have settles {token : Token} {action : Parser Unit} {looked : State}
      (keeps : Keeps action (fun state => state.Stands modes left 1 ∧ state.Faces (some token))
        fun _ state => ∃ fewer, fewer < left ∧ state.Stands modes fewer 0)
      (peeked : Parser.peek state = .ok (some token) looked) (ran : action looked = .ok () after) :
      ∃ fewer, fewer < left ∧ after.Stands modes fewer 1 := by
    obtain ⟨fewer, less, standsThen⟩ := keeps.of_ok (peek_keeps.of_ok stands peeked) ran
    exact ⟨fewer, less, standsThen.mono (Nat.le_refl _)⟩
  have addsCode (token : Token) (code : String) :
      Keeps (do skip; modify (·.addCode code token.position) : Parser Unit)
        (fun state => state.Stands modes left 1 ∧ state.Faces (some token))
        fun _ state => ∃ fewer, fewer < left ∧ state.Stands modes fewer 0 := by
    apply Keeps.skipFacing
    intro fewer less
    exact (modify_keeps (State.addCode_lexerFree _ _)).strengthen
      fun _ _ stands => ⟨fewer, less, stands⟩
  cases round with
  | code peeked ran => exact settles (addsCode _ _) peeked ran
  | braces peeked ran => exact settles (addsCode _ _) peeked ran
  | interpolation peeked ran => exact settles (interpolation_keeps bound _) peeked ran

theorem ScriptHead.stands (head : ScriptHead text bound state) :
    ∃ left, left < bound ∧ state.Stands [.script] left 1 := by
  induction head with
  | @first bound before looked after token head peeked opens ran =>
      obtain ⟨left, less, stands⟩ := head.stands
      have facing := peek_keeps.of_ok stands peeked
      obtain ⟨fewer, lessThen, standsThen⟩ :=
        (scriptStart_keeps token (Nat.le_of_lt_succ less)).of_ok facing ran rfl
      exact ⟨fewer, by omega, standsThen⟩
  | later head round ih =>
      obtain ⟨left, less, stands⟩ := ih
      obtain ⟨fewer, lessThen, standsThen⟩ := round.stands stands
      exact ⟨fewer, by omega, standsThen⟩

theorem ScriptRound.scriptContent_eq (round : ScriptRound bound state after) :
    scriptContent (bound + 1) state = scriptContent bound after := by
  cases round with
  | code peeked ran | braces peeked ran =>
      rw [scriptContent, run_bind, peeked]
      simp only
      rw [← bind_assoc, run_bind, ran]
  | interpolation peeked ran =>
      rw [scriptContent, run_bind, peeked]
      simp only [run_bind, ran]

/-- A tag that opens an element goes on with the content of the element. -/
theorem tag_of_openTag {tag : Element} {place : Position}
    (ran : openTag bound state = .ok (some (tag, place)) after) :
    Parser.tag bound state = elementContent bound tag after := by
  obtain ⟨start, placed, placedEq, ran⟩ := bind_eq_ok _ ran
  obtain ⟨_, skipped, skippedEq, ran⟩ := bind_eq_ok _ ran
  obtain ⟨_, pushed, pushedEq, ran⟩ := bind_eq_ok _ ran
  obtain ⟨kind?, looked, lookedEq, ran⟩ := bind_eq_ok _ ran
  simp only [Parser.tag, run_bind, placedEq, skippedEq, pushedEq, lookedEq]
  split at ran
  · obtain ⟨read, readBehind, readEq, ran⟩ := bind_eq_ok _ ran
    obtain ⟨_, popped, poppedEq, ran⟩ := bind_eq_ok _ ran
    obtain ⟨position, spanned, spannedEq, ran⟩ := bind_eq_ok _ ran
    simp only [element, run_bind, readEq, poppedEq, spannedEq]
    split at ran
    · simp [run_pure] at ran
    · next hasContent =>
        obtain ⟨_, opened, openedEq, ran⟩ := bind_eq_ok _ ran
        obtain ⟨same, rfl⟩ := EStateM.Result.ok.inj ran
        obtain ⟨rfl, rfl⟩ := Prod.mk.inj (Option.some.inj same)
        rw [if_neg hasContent, run_bind, openedEq]
        rfl
  · simp [run_pure] at ran

theorem tag_eq_scriptContent (ran : scriptStart bound state = .ok true after) :
    tag bound state = scriptContent bound after := by
  rw [scriptStart_eq] at ran
  obtain ⟨opened?, opened, openedEq, ran⟩ := bind_eq_ok _ ran
  cases opened? with
  | none => simp [run_pure] at ran
  | some element =>
      simp only at ran
      split at ran
      · next script =>
          obtain ⟨_, entered, enteredEq, ran⟩ := bind_eq_ok _ ran
          obtain ⟨-, rfl⟩ := EStateM.Result.ok.inj ran
          rw [tag_of_openTag openedEq, elementContent, if_pos script, run_bind, enteredEq]
      · simp [run_pure] at ran

/-- From where the loop over a script stands the rest of a text is parsed. -/
theorem ScriptHead.template_eq (head : ScriptHead text bound state) :
    ∃ outer, template (text.length + 1) (.ofText text) =
      (do scriptContent bound; markup outer; expectNothingOpen : Parser Unit) state := by
  induction head with
  | @first bound before looked after token head peeked opens ran =>
      refine ⟨bound, ?_⟩
      have constructEq : construct bound token looked = scriptContent bound after := by
        rw [construct, opens]
        exact tag_eq_scriptContent ran
      rw [head.template_eq, run_bind, markup, run_bind, peeked]
      simp only [run_bind, constructEq]
      cases scriptContent bound after <;> rfl
  | later head round ih =>
      obtain ⟨outer, templateEq⟩ := ih
      refine ⟨outer, ?_⟩
      rw [templateEq, run_bind, run_bind, round.scriptContent_eq]

/-- The productions of the grammar that begin with the next token, in whichever mode
that is read. -/
def productions (bound : Nat) : List (Parser Unit) :=
  [textRun bound, tag bound, interpolation bound, statement bound, blockStart, blockEnd,
    Functor.discard (startTag bound), Functor.discard (endTag bound),
    Functor.discard (declarationParameters bound), Functor.discard (optionalValue bound),
    Functor.discard (stringValue bound), Functor.discard (squareBinding bound),
    Functor.discard (roundBinding bound), Functor.discard (loopHeader bound),
    Functor.discard (expression bound), Functor.discard (path bound)]

/-- The productions for the contents of elements, which begin by entering a mode. -/
def contentProductions (bound : Nat) : List (Parser Unit) :=
  [do pushMode .script; scriptContent bound, do pushMode .style; styleContent bound]

theorem productions_keep {production : Parser Unit} (member : production ∈ productions bound)
    (token : Token) (enough : left < bound) :
    Keeps production (fun state => state.Stands modes left 1 ∧ state.Faces (some token))
      fun _ state => state.lexer.modes = modes := by
  have shrinks {action : Parser Unit}
      (keeps : Keeps action (fun state => state.Stands modes left 1 ∧ state.Faces (some token))
        fun _ state => ∃ fewer, fewer < left ∧ state.Stands modes fewer 0) :
      Keeps action (fun state => state.Stands modes left 1 ∧ state.Faces (some token))
        fun _ state => state.lexer.modes = modes :=
    keeps.strengthen fun _ _ ⟨_, _, stands⟩ => stands.modesEq
  have stays {α : Type} {held : Nat} {action : Parser α}
      (keeps : Keeps action (Stands modes left 1) fun _ => Stands modes left held) :
      Keeps (Functor.discard action)
        (fun state => state.Stands modes left 1 ∧ state.Faces (some token))
        fun _ state => state.lexer.modes = modes :=
    (keeps.mono (fun _ => And.left) fun _ _ stands => stands.modesEq).discard
  simp only [productions, List.mem_cons, List.not_mem_nil, or_false] at member
  rcases member with rfl | rfl | rfl | rfl | rfl | rfl | rfl | rfl | rfl | rfl | rfl | rfl | rfl |
    rfl | rfl | rfl
  · exact (textRun_quiet bound _ _).mono (fun _ => And.left) fun _ _ stands => stands.modesEq
  · exact shrinks (tag_keeps token (Nat.le_of_lt enough))
  · exact shrinks (interpolation_keeps bound token)
  · exact shrinks (statement_keeps bound token)
  · exact shrinks (blockStart_keeps token)
  · exact shrinks (blockEnd_keeps token)
  · exact stays (startTag_keeps enough)
  · exact stays (endTag_keeps bound _ _)
  · exact stays (declarationParameters_keeps enough)
  · exact stays (optionalValue_quiet bound _ _)
  · exact stays (stringValue_clears bound _ _)
  · exact stays (squareBinding_clears bound _ _)
  · exact stays (roundBinding_clears bound _ _)
  · exact stays (loopHeader_quiet bound _ _)
  · exact stays (expression_quiet bound _ _)
  · exact stays (path_quiet bound _ _)

theorem contentProductions_keep {production : Parser Unit}
    (member : production ∈ contentProductions bound) (enough : left < bound) :
    Keeps production (Stands modes left 0) fun _ state => state.lexer.modes = modes := by
  have leaves {content : Parser Unit} (keeps : Keeps content (Stands modes left 0)
      fun _ => Stands modes left 0) :
      Keeps content (Stands modes left 0) fun _ state => state.lexer.modes = modes :=
    keeps.strengthen fun _ _ stands => stands.modesEq
  simp only [contentProductions, List.mem_cons, List.not_mem_nil, or_false] at member
  rcases member with rfl | rfl
  · exact leaves ((pushMode_keeps (by decide)).bind fun _ => (scriptContent_keeps enough).resume)
  · exact leaves ((pushMode_keeps (by decide)).bind fun _ => (styleContent_keeps bound).resume)

/-- The state behind the parse of a text, whether it succeeds or fails. -/
def finalState (text : List Char) : State :=
  endState (template (text.length + 1) (.ofText text))

/-- How the parser uses the modes of its lexer, whatever the text.

* No change of mode discards a token; every token read is taken in the mode it was
  read in, unless the parse failed with that token held.
* The main loop runs in no mode, and the loop over a script in that of scripts only,
  wherever they stand before the rest of the text is parsed.
* A production that succeeds leaves the modes as it found them.
* The errors for a token that belongs neither in markup nor in a script do not occur,
  and neither does a path without segments. -/
theorem parse_keeps_modes (text : String) :
    ((finalState text.toList).lexer.Ledger ∧
      ∀ parsed, Template.parse text = .ok parsed →
        (finalState text.toList).lexer.lookahead = []) ∧
    ((∀ bound state, MarkupHead text.toList bound state →
        state.lexer.modes = [] ∧
        template (text.toList.length + 1) (.ofText text.toList) =
          (do markup bound; expectNothingOpen : Parser Unit) state) ∧
      ∀ bound state, ScriptHead text.toList bound state →
        state.lexer.modes = [.script] ∧
        ∃ outer, template (text.toList.length + 1) (.ofText text.toList) =
          (do scriptContent bound; markup outer; expectNothingOpen : Parser Unit) state) ∧
    (∀ bound state after, state.lexer.taken.rest.length < bound →
      (∀ production ∈ productions bound, ∀ modes left token,
        state.Stands modes left 1 → state.Faces (some token) →
          production state = .ok () after → after.lexer.modes = modes) ∧
      ∀ production ∈ contentProductions bound, ∀ modes left, state.Stands modes left 0 →
        production state = .ok () after → after.lexer.modes = modes) ∧
    (∀ found position,
      Template.parse text ≠ .error (.grammatical (.unexpected found .markup) position) ∧
      Template.parse text ≠ .error (.grammatical (.unexpected found .script) position)) ∧
    ∀ bound (unreached : Parser Path),
      path bound = (do
        let (root, _) ← expectIdentifier "identifier"
        match Path.ofSegments? (root :: (← pathSegments bound)) with
        | some path => return path
        | none => unreached) := by
  have kept := template_keeps text.toList _ rfl
  refine ⟨?_, ⟨?_, ?_⟩, ?_, ?_, ?_⟩
  · cases ran : template (text.toList.length + 1) (.ofText text.toList) with
    | ok result state =>
        rw [ran] at kept
        rw [finalState, ran]
        exact ⟨kept.ledger, fun _ _ => kept.holdsNone⟩
    | error error state =>
        rw [ran] at kept
        rw [finalState, ran, parse_of_error ran]
        exact ⟨kept.1, nofun⟩
  · intro bound state head
    obtain ⟨left, -, stands⟩ := head.stands
    exact ⟨stands.modesEq, head.template_eq⟩
  · intro bound state head
    obtain ⟨left, -, stands⟩ := head.stands
    exact ⟨stands.modesEq, head.template_eq⟩
  · intro bound state after enough
    constructor
    · intro production member modes left token stands faces ran
      have facing := And.intro { stands with restLe := Nat.le_refl _ } faces
      exact (productions_keep member token enough).of_ok facing ran
    · intro production member modes left stands ran
      have standing := { stands with restLe := Nat.le_refl _ }
      exact (contentProductions_keep member enough).of_ok standing ran
  · intro found position
    cases ran : template (text.toList.length + 1) (.ofText text.toList) with
    | ok result state =>
        rw [parse_of_ok ran]
        exact ⟨nofun, nofun⟩
    | error error state =>
        rw [ran] at kept
        rw [parse_of_error ran]
        refine ⟨fun same => ?_, fun same => ?_⟩
        · rw [Except.error.inj same] at kept
          exact kept.2
        · rw [Except.error.inj same] at kept
          exact kept.2
  · intro bound unreached
    rfl

/-- A template that is a script. -/
def shortScript : String :=
  "<script>a</script>"

/-- The state behind the front matter of the script, with its first token looked at. -/
def atScriptTag : State :=
  endState ((do frontMatter; Parser.peek : Parser (Option Token)) (.ofText shortScript.toList))

/-- The state behind the tag that opens the script. -/
def behindScriptTag : State :=
  endState (openTag 18 atScriptTag)

/-- The first token of the script. -/
def scriptLess : Token :=
  ⟨.punctuation .less, ⟨1, 1, 0, some 1⟩⟩

theorem exists_head_shortScript :
    ∃ start, MarkupHead shortScript.toList 19 start ∧
      Parser.peek start = .ok (some scriptLess) atScriptTag := by
  have ran : (do frontMatter; Parser.peek : Parser (Option Token)) (.ofText shortScript.toList) =
      .ok (some scriptLess) atScriptTag := eq_ok_endState (by decide +kernel)
  obtain ⟨_, start, matterRan, peeked⟩ := bind_eq_ok _ ran
  have head := MarkupHead.first matterRan
  rw [show shortScript.toList.length + 1 = 19 by decide] at head
  exact ⟨start, head, peeked⟩

theorem behindScriptTag_stands :
    ∃ fewer, fewer < 18 ∧ behindScriptTag.Stands [] fewer 0 := by
  obtain ⟨start, head, peeked⟩ := exists_head_shortScript
  have opened : openTag 18 atScriptTag =
      .ok (some (.named "script", ⟨1, 1, 0, some 8⟩)) behindScriptTag :=
    eq_ok_endState (by decide +kernel)
  obtain ⟨left, less, stands⟩ := head.stands
  obtain ⟨fewer, fewerLt, standsThen⟩ := (openTag_keeps scriptLess (Nat.le_of_lt_succ less)).of_ok
    (peek_keeps.of_ok stands peeked) opened rfl
  exact ⟨fewer, by omega, standsThen⟩

/-- A script that is parsed, the tag that opens it and its content.  Braces that close nothing are
refused as such, and not as what does not belong in markup. -/
theorem parse_keeps_modes_script :
    ((∃ parsed, Template.parse shortScript = .ok parsed) ∧
      (finalState shortScript.toList).lexer.Ledger ∧
      (finalState shortScript.toList).lexer.lookahead = [] ∧
      .changed [] ∈ (finalState shortScript.toList).lexer.history) ∧
    (∃ state, ScriptHead shortScript.toList 18 state ∧ state.lexer.modes = [.script]) ∧
    (∃ token left after, atScriptTag.Stands [] left 1 ∧ atScriptTag.Faces (some token) ∧
      tag 19 atScriptTag = .ok () after ∧ after.lexer.modes = []) ∧
    (∃ left after, behindScriptTag.Stands [] left 0 ∧
      (do pushMode .script; scriptContent 18 : Parser Unit) behindScriptTag = .ok () after ∧
      after.lexer.modes = []) ∧
    ∃ error, Template.parse "\x7d\x7d" = .error error ∧
      ∀ found position, error ≠ .grammatical (.unexpected found .markup) position := by
  obtain ⟨⟨ledger, holdsNone⟩, ⟨-, scripts⟩, kept, -, -⟩ := parse_keeps_modes shortScript
  obtain ⟨start, head, peeked⟩ := exists_head_shortScript
  refine ⟨?_, ?_, ?_, ?_, ?_⟩
  · obtain ⟨parsed, parseEq⟩ : ∃ parsed, Template.parse shortScript = .ok parsed :=
      exists_eq_ok (by decide +kernel)
    exact ⟨⟨parsed, parseEq⟩, ledger, holdsNone parsed parseEq, by decide +kernel⟩
  · obtain ⟨state, opened⟩ : ∃ state, scriptStart 18 atScriptTag = .ok true state :=
      ⟨_, eq_ok_endState (by decide +kernel)⟩
    have inScript : ScriptHead shortScript.toList 18 state := .first head peeked rfl opened
    exact ⟨state, inScript, (scripts 18 state inScript).1⟩
  · obtain ⟨left, less, stands⟩ := head.stands
    obtain ⟨standsThen, faces⟩ := peek_keeps.of_ok stands peeked
    obtain ⟨_, after, ran⟩ := eq_ok_of_isOk
      (show (outcome (tag 19 atScriptTag)).isOk = true by decide +kernel)
    have enough := Nat.lt_of_le_of_lt standsThen.restLe less
    exact ⟨scriptLess, left, after, standsThen, faces, ran,
      (kept 19 atScriptTag after enough).1 (tag 19) (by simp [productions]) [] left scriptLess
        standsThen faces ran⟩
  · obtain ⟨left, less, stands⟩ := behindScriptTag_stands
    obtain ⟨_, after, ran⟩ := eq_ok_of_isOk
      (show (outcome ((do pushMode .script; scriptContent 18 : Parser Unit) behindScriptTag)).isOk =
        true by decide +kernel)
    have enough := Nat.lt_of_le_of_lt stands.restLe less
    exact ⟨left, after, stands, ran,
      (kept 18 behindScriptTag after enough).2 _ (by simp [contentProductions]) [] left stands ran⟩
  · obtain ⟨-, -, -, never, -⟩ := parse_keeps_modes "\x7d\x7d"
    have refused : (Template.parse "\x7d\x7d").isOk = false := by decide +kernel
    cases parsed : Template.parse "\x7d\x7d" with
    | ok template => simp [parsed, Except.isOk, Except.toBool] at refused
    | error error =>
        exact ⟨error, rfl, fun found position same => (never found position).1 (same ▸ parsed)⟩

end Templates

end Parser

end TemplateCompiler
