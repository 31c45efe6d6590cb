import TemplateCompiler.Proofs.Lex.FrontMatter
import TemplateCompiler.Proofs.Parse.CoupledNodes
import TemplateCompiler.Proofs.Parse.Leads

/-!
# Templates in two readings

When a text is read as a part of a longer source, the second reading comes to the
end of the text and goes on with what follows there.  How it goes on is left open
here: whatever can be said of reading the rest can be said of reading the text and
the rest.
-/

namespace TemplateCompiler

namespace Parser

open Parse

variable {seam : Seam} {before : State} {bound : Nat}

/-- The second reading of a text comes from one place to another one. -/
def LeadsTo (seam : Seam) (before after : State) : Prop :=
  ∀ other bound', seam.Corresponds before other →
    before.rest.length + seam.tail.length < bound' →
    ∀ (post : Unit → State → Prop) (fail : Parse.Error → Prop),
      (∀ other' less, seam.Corresponds after other' →
        after.rest.length + seam.tail.length < less → Meets (markup less) other' post fail) →
      Meets (markup bound') other post fail

/-- The second reading of a text fails as the first one does, only later. -/
def FailsWith (seam : Seam) (before : State) (error : Parse.Error) : Prop :=
  seam.exact → ∀ other bound', seam.Corresponds before other →
    before.rest.length + seam.tail.length < bound' →
    Meets (markup bound') other (fun _ _ => False) (· = error.shifted seam.bytes seam.lines)

theorem LeadsTo.refl : LeadsTo seam before before :=
  fun other bound' corresponds enough _ _ meets => meets other bound' corresponds enough

theorem LeadsTo.trans {middle after : State} (first : LeadsTo seam before middle)
    (second : LeadsTo seam middle after) : LeadsTo seam before after :=
  fun other bound' corresponds enough post fail meets =>
    first other bound' corresponds enough post fail fun other' less correspondsThen enoughThen =>
      second other' less correspondsThen enoughThen post fail meets

theorem LeadsTo.fails {middle : State} {error : Parse.Error} (first : LeadsTo seam before middle)
    (failsWith : FailsWith seam middle error) : FailsWith seam before error :=
  fun isExact other bound' corresponds enough =>
    first other bound' corresponds enough _ _ fun other' less correspondsThen enoughThen =>
      failsWith isExact other' less correspondsThen enoughThen

/-- One construct in two readings. -/
theorem construct_leads {kind : TokenKind} {piece : List Char} (markupMode : before.mode = .markup)
    (known : before.Next kind piece) (nonempty : piece ≠ []) (spelled : kind.IsSpelled piece)
    (enough : before.rest.length ≤ bound) :
    Meets (construct bound ⟨kind, before.spanOf piece⟩) before
      (fun _ middle => seam.exact ∨ seam.Undisturbed middle →
        (seam.exact ∨ seam.Undisturbed before) ∧
          (middle.rest.length < before.rest.length → LeadsTo seam before middle))
      (FailsWith seam before) := by
  have coupled : ∀ index : { place // Couples.IsSpanOf seam before piece place } ×
      { bound' // before.rest.length + seam.tail.length ≤ bound' },
      Couples seam (construct bound ⟨kind, before.spanOf piece⟩)
        (construct index.2.1 ⟨kind, index.1.1⟩) before Eq seam.Undisturbed seam.Undisturbed :=
    fun index => Couples.construct markupMode known nonempty spelled index.1.2.1
      ⟨enough, index.2.2⟩
  have somePlace : Nonempty ({ place // Couples.IsSpanOf seam before piece place } ×
      { bound' // before.rest.length + seam.tail.length ≤ bound' }) :=
    ⟨⟨_, Seam.agrees_shifted _, rfl⟩, ⟨_, Nat.le_refl _⟩⟩
  have next : ∀ {other : State} {bound' : Nat} {post : Unit → State → Prop}
      {fail : Parse.Error → Prop}, seam.exact ∨ seam.Undisturbed before →
      seam.Corresponds before other →
      Meets (do construct bound' ⟨kind, other.spanOf piece⟩; markup bound') other post fail →
      Meets (markup (bound' + 1)) other post fail := by
    intro other bound' post fail needed corresponds meets
    have steady := needed.elim Couples.steady_of_exact (·.steady)
    exact Meets.bind_runs (peek_runs (Couples.next_of_steady corresponds steady known)) meets
  refine (Meets.all coupled).mono ?_ ?_
  · intro _ middle holds needed
    obtain ⟨neededBefore, -⟩ := (holds (Classical.arbitrary _)).2 needed
    refine ⟨neededBefore, fun shorter other bound' corresponds enough' post fail meets => ?_⟩
    obtain ⟨less, rfl⟩ := Nat.exists_eq_add_one.2 (show 0 < bound' by omega)
    have holdsThen := (holds ⟨⟨_, Couples.isSpanOf_spanOf corresponds piece⟩, ⟨less, by omega⟩⟩).2
      needed
    apply next neededBefore corresponds
    apply Meets.bind ((holdsThen.2 other corresponds).mono (fun _ _ => And.right) fun _ =>
      False.elim)
    exact fun _ middle' correspondsThen => meets middle' less correspondsThen (by omega)
  · intro error failed isExact other bound' corresponds enough'
    obtain ⟨less, rfl⟩ := Nat.exists_eq_add_one.2 (show 0 < bound' by omega)
    apply next (.inl isExact) corresponds
    apply Meets.bind
      (failed ⟨⟨_, Couples.isSpanOf_spanOf corresponds piece⟩, ⟨less, by omega⟩⟩ isExact other
        corresponds)
    exact fun _ _ impossible => impossible.elim

/-- The markup of a text in two readings. -/
theorem markup_leads (ordinary : IsOrdinary before.frames) (separated : IsSeparated before)
    (modesEq : before.modes = []) (enough : before.rest.length < bound) :
    Meets (markup bound) before
      (fun _ after => Steps before after ∧ after.rest = [] ∧ after.modes = [] ∧
        (seam.exact ∨ seam.Undisturbed after →
          (seam.exact ∨ seam.Undisturbed before) ∧ LeadsTo seam before after))
      (FailsWith seam before) := by
  induction bound generalizing before with
  | zero => contradiction
  | succ bound ih =>
      have modeEq : before.mode = .markup := congrArg (·.headD .markup) modesEq
      refine Meets.peek (fun kind piece known nonempty spelled => ?_) (fun ended => ?_) ?_
      · have steps := construct_meets ordinary separated known nonempty spelled
          (Nat.le_of_lt_succ enough)
        have leads : Meets _ before _ (FailsWith seam before) :=
          construct_leads modeEq known nonempty spelled (Nat.le_of_lt_succ enough)
        apply Meets.bind ((Meets.and steps leads).mono (fun _ _ holds => holds) fun _ => And.right)
        rintro _ middle ⟨advances, leads⟩
        have shorter := advances.shorter
        refine (ih advances.ordinary advances.separated (advances.modes.trans modesEq)
          (by omega)).mono ?_ ?_
        · rintro _ after ⟨stepsThen, ended, modesThen, leadsThen⟩
          refine ⟨advances.steps.trans stepsThen, ended, modesThen, fun needed => ?_⟩
          obtain ⟨neededMiddle, fromMiddle⟩ := leadsThen needed
          obtain ⟨neededBefore, toMiddle⟩ := leads neededMiddle
          exact ⟨neededBefore, (toMiddle shorter).trans fromMiddle⟩
        · exact fun error failed isExact =>
            ((leads (.inl isExact)).2 shorter).fails failed isExact
      · rw [modeEq] at ended
        exact Meets.pure ⟨.refl, Lex.eq_nil_of_scanMarkup ended, modesEq, fun needed =>
          ⟨needed, .refl⟩⟩
      · intro error failed isExact other bound' corresponds enough'
        obtain ⟨less, rfl⟩ := Nat.exists_eq_add_one.2 (show 0 < bound' by omega)
        exact Couples.peek_error isExact corresponds failed

section Ends

theorem frames_of_corresponds {other : State} (isExact : seam.exact)
    (corresponds : seam.Corresponds before other) :
    other.frames = before.frames.map fun frame =>
      (frame.1, frame.2.shifted seam.bytes seam.lines) := by
  have enclosing := corresponds.enclosing
  unfold State.frames
  generalize before.enclosing = opened, other.enclosing = others at enclosing
  induction enclosing with
  | nil => rfl
  | cons matched _ ih => simp [ih, matched.kind, matched.position isExact]

theorem unclosed?_of_corresponds {other : State} (isExact : seam.exact)
    (corresponds : seam.Corresponds before other) :
    other.unclosed?.map (fun construct => (construct.kind, construct.position)) =
      before.unclosed?.map fun construct =>
        (construct.kind, construct.position.shifted seam.bytes seam.lines) := by
  have shiftedEq : (before.unclosed?.map fun construct =>
      (construct.kind, construct.position.shifted seam.bytes seam.lines)) =
      (before.unclosed?.map fun construct => (construct.kind, construct.position)).map
        fun frame => (frame.1, frame.2.shifted seam.bytes seam.lines) := by
    rw [Option.map_map]
    rfl
  rw [shiftedEq, State.unclosed?_eq_frames, State.unclosed?_eq_frames,
    frames_of_corresponds isExact corresponds]
  generalize before.frames = frames
  rcases frames with _ | ⟨⟨kind, place⟩, _ | ⟨⟨outer, outerPlace⟩, others⟩⟩
  · rfl
  · cases kind <;> rfl
  · cases kind <;> cases outer <;> rfl

theorem Couples.expectNothingOpen {need : State → Prop} :
    Couples seam Parser.expectNothingOpen Parser.expectNothingOpen before Eq need need := by
  cases unclosedEq : before.unclosed? with
  | none =>
      have nothingOpen : before.enclosing = [] := by
        by_contra someOpen
        have someUnclosed := unclosed?_isSome someOpen
        rw [unclosedEq] at someUnclosed
        contradiction
      apply get_alike (fun _ => rfl) (fun _ => rfl)
      · intro other corresponds
        have otherEq : other.unclosed? = none := by
          rw [State.unclosed?, corresponds.enclosing_eq_nil nothingOpen]
        rw [unclosedEq, otherEq]
      · rw [unclosedEq]
        exact pure rfl
  | some construct =>
      have fails : Fails Parser.expectNothingOpen before := by
        apply Meets.get (fun _ => rfl)
        rw [unclosedEq]
        exact failAt_fails
      refine of_fails fails fun isExact => ?_
      have failed : Couples seam
          (Parser.failAt (.unclosed (describeOpen construct.kind)) construct.position : Parser Unit)
          (Parser.failAt (.unclosed (describeOpen construct.kind))
            (construct.position.shifted seam.bytes seam.lines)) before Eq (fun _ => True)
          fun _ => True := failAt (Seam.agrees_shifted _)
      refine get (fun _ => rfl) (fun _ => rfl) (fun other corresponds => ?_)
        (by rw [unclosedEq]; exact failed)
      · have reported := unclosed?_of_corresponds isExact corresponds
        rw [unclosedEq, Option.map_some] at reported
        obtain ⟨other, otherEq, same⟩ := Option.map_eq_some_iff.1 reported
        obtain ⟨kindEq, placeEq⟩ := Prod.mk.inj same
        rw [otherEq, ← kindEq, ← placeEq]

theorem expectNothingOpen_runs (nothingOpen : before.enclosing = []) :
    Runs expectNothingOpen before () before := by
  apply Meets.get (fun _ => rfl)
  rw [State.unclosed?, nothingOpen]
  exact Meets.pure ⟨rfl, rfl⟩

end Ends

section Templates

/-- The second reading of a text fails as the first one does, at the latest at
its end. -/
def EndsWith (seam : Seam) (before : State) (error : Parse.Error) : Prop :=
  seam.exact → ∀ other bound', seam.Corresponds before other →
    before.rest.length + seam.tail.length < bound' →
    Meets (do markup bound'; expectNothingOpen) other (fun _ _ => False)
      (· = error.shifted seam.bytes seam.lines)

/-- What the parser has come to at the end of a text. -/
structure AtEnd (before after : State) : Prop where
  steps : Steps before after
  rest : after.rest = []
  modes : after.modes = []
  enclosing : after.enclosing = []

/-- If nothing follows the text, the second reading ends where the first one
does. -/
theorem LeadsTo.atEnd {after other : State} {bound' : Nat} (leads : LeadsTo seam before after)
    (ended : after.rest = []) (modesEq : after.modes = []) (noTail : seam.tail = [])
    (corresponds : seam.Corresponds before other)
    (enough : before.rest.length + seam.tail.length < bound') (fail : Parse.Error → Prop) :
    Meets (markup bound') other (fun _ state => seam.Corresponds after state) fail := by
  refine leads other bound' corresponds enough _ fail fun state less correspondsThen _ => ?_
  refine Meets.of_runs (markup_runs_nil (correspondsThen.modes.trans modesEq) ?_) correspondsThen
  rw [correspondsThen.rest, ended, noTail, List.append_nil]

theorem template_leads (ordinary : IsOrdinary before.frames) (separated : IsSeparated before)
    (modesEq : before.modes = []) (enough : before.rest.length < bound) :
    Meets (do markup bound; expectNothingOpen) before
      (fun _ after => AtEnd before after ∧
        (seam.exact ∨ seam.Undisturbed after → LeadsTo seam before after))
      (EndsWith seam before) := by
  have coupledEnd : ∀ middle, Couples seam expectNothingOpen expectNothingOpen middle Eq
      (fun _ => True) fun _ => True := fun _ => Couples.expectNothingOpen
  apply Meets.bind
    ((markup_leads ordinary separated modesEq enough).mono (fun _ _ holds => holds) ?_)
  · rintro _ middle ⟨steps, ended, modesThen, leads⟩
    refine ((Meets.and expectNothingOpen_meets (coupledEnd middle))).mono ?_ ?_
    · rintro _ _ ⟨⟨rfl, nothingOpen⟩, -⟩
      exact ⟨⟨steps, ended, modesThen, nothingOpen⟩, fun needed => (leads needed).2⟩
    · rintro error ⟨-, failed⟩ isExact other bound' corresponds enough'
      have noTail := seam.tail_of_exact isExact
      apply Meets.bind
        ((leads (.inl isExact)).2.atEnd ended modesThen noTail corresponds enough' _)
      exact fun _ state correspondsThen => failed isExact state correspondsThen
  · intro error failed isExact other bound' corresponds enough'
    exact Meets.bind (failed isExact other bound' corresponds enough') fun _ _ impossible =>
      impossible.elim

section Outcomes

variable {text content : String} {length : Nat}
  (scanned : Lex.scanFrontMatter true text.toList = .ok (some ⟨.frontMatter content, length⟩))

include scanned

theorem parse_ok_of_meets {post : Unit → State → Prop}
    (meets : Meets (do markup (text.toList.length + 1); expectNothingOpen)
      (behindMatter text.toList content length) post fun _ => False) :
    ∃ after, Template.parse text = .ok after.template ∧ post () after := by
  have ran := parse_of_meets scanned meets
  cases parsed : Template.parse text with
  | ok template =>
      rw [parsed] at ran
      obtain ⟨after, holds, rfl⟩ := ran
      exact ⟨after, rfl, holds⟩
  | error error =>
      rw [parsed] at ran
      exact ran.elim

theorem parse_error_of_meets {fail : Parse.Error → Prop}
    (meets : Meets (do markup (text.toList.length + 1); expectNothingOpen)
      (behindMatter text.toList content length) (fun _ _ => False) fail) :
    ∃ error, Template.parse text = .error error ∧ fail error := by
  have ran := parse_of_meets scanned meets
  cases parsed : Template.parse text with
  | ok template =>
      rw [parsed] at ran
      obtain ⟨after, impossible, -⟩ := ran
      exact impossible.elim
  | error error =>
      rw [parsed] at ran
      exact ⟨error, rfl, ran⟩

end Outcomes

/-- The seams of all kinds at once: what is read of a text does not depend on
what follows. -/
theorem parse_leads {text content : String} {length : Nat}
    (scanned : Lex.scanFrontMatter true text.toList = .ok (some ⟨.frontMatter content, length⟩)) :
    match Template.parse text with
    | .ok template => ∃ after, template = after.template ∧
        AtEnd (behindMatter text.toList content length) after ∧
        ∀ seam : Seam, seam.exact ∨ seam.Undisturbed after →
          LeadsTo seam (behindMatter text.toList content length) after
    | .error error => ∀ seam, EndsWith seam (behindMatter text.toList content length) error := by
  have someSeam : Nonempty Seam := ⟨.behindBlock [] ""⟩
  have leads : ∀ seam : Seam, Meets _ (behindMatter text.toList content length) _
      (EndsWith seam (behindMatter text.toList content length)) := fun _ =>
    template_leads (isOrdinary_behindMatter text.toList content length) (isSeparated_of_empty rfl)
      rfl (length_rest_behindMatter_lt text.toList content length)
  have found := parse_of_meets scanned (Meets.all leads)
  cases parsed : Template.parse text with
  | ok template =>
      rw [parsed] at found
      obtain ⟨after, holds, templateEq⟩ := found
      exact ⟨after, templateEq, (holds (Classical.arbitrary _)).1, fun seam => (holds seam).2⟩
  | error error =>
      rw [parsed] at found
      exact found

/-- Whether two templates are read from the same text. -/
structure Alike (seam : Seam) (first second : Template) : Prop where
  doctype : second.document.doctype? = seam.doctype.or first.document.doctype?
  matter : second.document.frontMatter = seam.matter
  plain : first.document.frontMatter = ""
  children : ∃ nodes, List.Forall₂ seam.Matches first.children nodes ∧
    second.children = seam.base.reverse ++ nodes

theorem alike_of_corresponds {first second : State} (corresponds : seam.Corresponds first second) :
    Alike seam first.template second.template where
  doctype := corresponds.doctype
  matter := corresponds.matter
  plain := corresponds.plain
  children := by
    obtain ⟨nodes, matched, topEq⟩ := corresponds.top
    refine ⟨nodes.reverse, List.rel_reverse matched, ?_⟩
    rw [State.template, topEq, List.reverse_append]

end Templates

section FrontMatter

variable {block text : List Char}

theorem mark_behind (ended : block.getLast? = some '\n') :
    (Cursor.advanceBy block.length (Cursor.ofText (block ++ text))).mark =
      Mark.start.shifted (Text.byteLength block) (Text.lineBreaks block none) := by
  obtain ⟨lines, rfl⟩ : ∃ lines, block = lines ++ ['\n'] := List.getLast?_eq_some_iff.1 ended
  have breaksEq : ∀ next, Text.lineBreaks (lines ++ ['\n']) next =
      Text.lineBreaks (lines ++ ['\n']) none := fun next => by
    rw [Text.lineBreaks_append, Text.lineBreaks_append]
    rfl
  have starts : Text.StartsLine (lines ++ ['\n']) text := .inr ⟨lines, '\n', rfl, rfl⟩
  have columnEq := Cursor.advanceBy_column starts
  generalize lines ++ ['\n'] = block at breaksEq columnEq ⊢
  have offsetEq := Cursor.advanceBy_offset block.length (Cursor.ofText (block ++ text))
  have lineEq : (Cursor.advanceBy block.length (Cursor.ofText (block ++ text))).mark.line =
      1 + Text.lineBreaks block text.head? := Cursor.advanceBy_line rfl
  rw [show (Cursor.ofText (block ++ text)).rest.take block.length = block from List.take_left]
    at offsetEq
  rw [breaksEq] at lineEq
  generalize (Cursor.advanceBy block.length (Cursor.ofText (block ++ text))).mark = mark
    at offsetEq lineEq columnEq ⊢
  obtain ⟨offset, line, column⟩ := mark
  exact congr (congrArg₂ Mark.mk offsetEq lineEq) columnEq

/-- Behind front matter a text is read as it is by itself. -/
theorem corresponds_behindBlock {matter : String} (ended : block.getLast? = some '\n') :
    (Seam.behindBlock block matter).Corresponds (behindMatter text "" 0)
      (behindMatter (block ++ text) matter block.length) where
  modes := rfl
  rest := by
    rw [rest_behindMatter, rest_behindMatter, List.drop_left]
    exact (List.append_nil _).symm
  offset := congrArg Mark.offset (mark_behind ended)
  mark := fun _ => mark_behind ended
  doctype := rfl
  matter := rfl
  plain := rfl
  enclosing := .nil
  top := ⟨[], .nil, rfl⟩

theorem opensMatter_of_block {matter : String}
    (scanned : Lex.scanFrontMatter true block = .ok (some ⟨.frontMatter matter, block.length⟩))
    (ended : block.getLast? = some '\n') : Lex.opensMatter block = true := by
  by_contra noMatter
  rw [Lex.scanFrontMatter_none (Bool.eq_false_iff.2 noMatter)] at scanned
  have lengthEq : 0 = block.length :=
    congrArg Lex.Lexeme.length (Option.some.inj (Except.ok.inj scanned))
  rw [List.eq_nil_of_length_eq_zero lengthEq.symm] at ended
  contradiction

theorem parse_behindBlock {block text matter : String}
    (noMatter : Lex.opensMatter text.toList = false)
    (scanned : Lex.scanFrontMatter true block.toList =
      .ok (some ⟨.frontMatter matter, block.toList.length⟩))
    (ended : block.toList.getLast? = some '\n') :
    match Template.parse text with
    | .ok template => ∃ other, Template.parse (block ++ text) = .ok other ∧
        Alike (Seam.behindBlock block.toList matter) template other
    | .error error => Template.parse (block ++ text) = .error
        (error.shifted (Text.byteLength block.toList) (Text.lineBreaks block.toList none)) := by
  have leads := parse_leads (Lex.scanFrontMatter_none noMatter)
  have corresponds : (Seam.behindBlock block.toList matter).Corresponds
      (behindMatter text.toList "" 0) _ := corresponds_behindBlock ended
  have scannedThen : Lex.scanFrontMatter true (block ++ text).toList =
      .ok (some ⟨.frontMatter matter, block.toList.length⟩) := by
    rw [String.toList_append]
    exact Lex.scanFrontMatter_append (opensMatter_of_block scanned ended) ended scanned
  have enough : (behindMatter text.toList "" 0).rest.length +
      (Seam.behindBlock block.toList matter).tail.length < (block ++ text).toList.length + 1 := by
    have shorter := length_rest_behindMatter_lt text.toList "" 0
    rw [String.toList_append, List.length_append]
    exact Nat.lt_of_lt_of_le shorter (by omega)
  cases parsed : Template.parse text with
  | ok template =>
      rw [parsed] at leads
      obtain ⟨after, rfl, atEnd, leadsTo⟩ := leads
      have reads : Meets (do markup ((block ++ text).toList.length + 1); expectNothingOpen)
          (behindMatter (block ++ text).toList matter block.toList.length)
          (fun _ state => (Seam.behindBlock block.toList matter).Corresponds after state)
          fun _ => False := by
        rw [String.toList_append] at enough ⊢
        apply Meets.bind
          ((leadsTo _ (.inl trivial)).atEnd atEnd.rest atEnd.modes rfl corresponds enough _)
        intro _ state correspondsThen
        have enclosing := correspondsThen.enclosing_eq_nil atEnd.enclosing
        exact Meets.of_runs (expectNothingOpen_runs enclosing) correspondsThen
      obtain ⟨state, parsedThen, correspondsThen⟩ := parse_ok_of_meets scannedThen reads
      exact ⟨_, parsedThen, alike_of_corresponds correspondsThen⟩
  | error error =>
      rw [parsed] at leads
      have fails := leads (Seam.behindBlock block.toList matter) trivial _ _ corresponds enough
      rw [← String.toList_append] at fails
      obtain ⟨other, parsedThen, rfl⟩ := parse_error_of_meets scannedThen fails
      exact parsedThen

end FrontMatter

end Parser

end TemplateCompiler
