import TemplateCompiler.Lex.Lexer
import TemplateCompiler.Proofs.Actions

/-!
# Places that count

What is to be said of every place in a source that is handed around while it is
read, be it the cursor of a lexer or the position of a token, is said once as a
property that reading on preserves.  A lexer that starts at such a place never
comes to another one, however it is used.
-/

namespace TemplateCompiler

/-- Which places count: where a lexer may stand, which positions tokens and nodes may
have, and with which errors a scan may fail. -/
structure Places where
  cursor : Cursor → Prop
  position : Position → Prop
  error : Lex.Error → Prop

namespace Places

/-- A token and the cursor behind it are at places that count. -/
structure Admits (places : Places) (scanned : Scanned) : Prop where
  position : places.position scanned.token.position
  stop : places.cursor scanned.stop

/-- Whatever is read from a place that counts is at places that count, and positions
may be extended to them. -/
structure Closed (places : Places) : Prop where
  scan : ∀ mode cursor, places.cursor cursor →
    match Lexer.scanAt mode cursor with
    | .ok none => True
    | .ok (some lexeme) => places.Admits (Lexer.scannedOf cursor lexeme)
    | .error fault => places.error (.atMark fault.cause (cursor.advanceBy fault.anchor).mark)
  start : places.position .start
  point : ∀ cursor, places.cursor cursor → places.position cursor.mark.position
  upTo : ∀ position cursor, places.position position → places.cursor cursor →
    places.position (position.withLength (cursor.mark.offset - position.offset))
  joined : ∀ first second, places.position first → places.position second →
    places.position (first.withLength (second.endOffset - first.offset))

/-- A lexer stands at places that count, and so do the tokens it holds. -/
structure OfLexer (places : Places) (lexer : Lexer) : Prop where
  ahead : places.cursor lexer.ahead
  taken : places.cursor lexer.taken
  held : ∀ scanned ∈ lexer.lookahead, places.Admits scanned

variable {places : Places} {lexer : Lexer}

theorem OfLexer.pushMode (known : places.OfLexer lexer) (mode : LexMode) :
    places.OfLexer (lexer.pushMode mode) :=
  ⟨known.taken, known.taken, List.forall_mem_nil _⟩

theorem OfLexer.popMode (known : places.OfLexer lexer) : places.OfLexer lexer.popMode :=
  ⟨known.taken, known.taken, List.forall_mem_nil _⟩

theorem scan_maintains (closed : places.Closed) :
    Maintains places.OfLexer Lexer.scan
      (fun scanned? => ∀ scanned ∈ scanned?, places.Admits scanned) places.error := by
  intro lexer known
  have scanned := closed.scan lexer.mode lexer.ahead known.ahead
  by_cases ended : lexer.mode = .frontMatter ∧ lexer.followsFrontMatter
  · rw [Lexer.scan, if_pos ended]
    exact ⟨nofun, known⟩
  · rw [Lexer.scan, if_neg ended]
    cases found : Lexer.scanAt lexer.mode lexer.ahead with
    | error fault =>
        rw [found] at scanned
        simpa only [found] using scanned
    | ok lexeme? =>
        rw [found] at scanned
        cases lexeme? with
        | none =>
            simp only [found]
            exact ⟨nofun, known⟩
        | some lexeme =>
            simp only [found]
            refine ⟨?_, scanned.stop, known.taken, known.held⟩
            rintro _ ⟨rfl⟩
            exact scanned

theorem lookFurther_maintains (closed : places.Closed) (count : Nat) :
    Maintains places.OfLexer (Lexer.lookFurther count) (fun _ => True) places.error := by
  induction count with
  | zero => exact Maintains.pure trivial
  | succ count ih =>
      apply (scan_maintains closed).bind
      intro scanned? admitted
      cases scanned? with
      | none => exact Maintains.pure trivial
      | some scanned =>
          have hold : Maintains places.OfLexer
              (modify fun lexer : Lexer => { lexer with lookahead := lexer.lookahead ++ [scanned] })
              (fun _ => True) places.error := by
            refine Maintains.modify (fun lexer known => ⟨known.ahead, known.taken, ?_⟩) trivial
            exact List.forall_mem_append.2
              ⟨known.held, List.forall_mem_singleton.2 (admitted scanned rfl)⟩
          exact hold.bind fun _ _ => ih

theorem peek_maintains (closed : places.Closed) (count : Nat) :
    Maintains places.OfLexer (Lexer.peek count)
      (fun token? => ∀ token ∈ token?, places.position token.position) places.error := by
  refine Maintains.get fun lexer _ => (lookFurther_maintains closed _).bind fun _ _ => ?_
  refine Maintains.get fun lexer known => Maintains.pure fun token found => ?_
  obtain ⟨scanned, held, rfl⟩ := Option.map_eq_some_iff.1 found
  exact (known.held scanned (List.mem_of_getElem? held)).position

theorem take_maintains {scanned : Scanned} (admitted : places.Admits scanned) :
    Maintains places.OfLexer (Lexer.take scanned) (fun token => places.position token.position)
      places.error := by
  have moved : Maintains places.OfLexer
      (modify fun lexer : Lexer =>
        { lexer with
          taken := scanned.stop
          last := some scanned.token
          history := .taken lexer.mode scanned.token :: lexer.history })
      (fun _ => True) places.error :=
    Maintains.modify (fun lexer known => ⟨known.ahead, admitted.stop, known.held⟩) trivial
  exact moved.bind fun _ _ => Maintains.pure admitted.position

theorem next_maintains (closed : places.Closed) :
    Maintains places.OfLexer Lexer.next
      (fun token? => ∀ token ∈ token?, places.position token.position) places.error := by
  have taken {scanned : Scanned} (admitted : places.Admits scanned) :
      Maintains places.OfLexer (do return some (← Lexer.take scanned))
        (fun token? => ∀ token ∈ token?, places.position token.position) places.error :=
    (take_maintains admitted).bind fun token holds => Maintains.pure fun other same => by
      cases same
      exact holds
  refine Maintains.get fun lexer known => ?_
  cases held : lexer.lookahead with
  | nil =>
      apply (scan_maintains closed).bind
      intro scanned? admitted
      cases scanned? with
      | none => exact Maintains.pure nofun
      | some scanned => exact taken (admitted scanned rfl)
  | cons scanned later =>
      obtain ⟨admitted, others⟩ := List.forall_mem_cons.1 (held ▸ known.held)
      have dropped : Maintains places.OfLexer
          (modify fun lexer : Lexer => { lexer with lookahead := later }) (fun _ => True)
          places.error :=
        Maintains.modify (fun lexer known => ⟨known.ahead, known.taken, others⟩) trivial
      exact dropped.bind fun _ _ => taken admitted

end Places

end TemplateCompiler
