import TemplateCompiler.Proofs.Parse.RoundTrip

/-!
# How declarations are read

A declaration that stands before all nodes of a template is read as what was
written and leaves no node behind.
-/

namespace TemplateCompiler

open Parse Written

namespace Written

/-- The parameters of a declaration, each behind a blank. -/
def parametersSource (parameters : List TagName) : List Char :=
  parameters.flatMap fun parameter => [' '] ++ parameter.text.toList

def declarationSource (name : TagName) (parameters : List TagName) : List Char :=
  ['<'] ++ (['!'] ++ (name.text.toList ++ (parametersSource parameters ++ ['>'])))

end Written

/-- What begins as a declaration and is no comment begins a tag. -/
theorem Lex.scanMarkup_bang {text : List Char} (noComment : ¬['-', '-'] <+: text) :
    scanMarkup (['<', '!'] ++ text) = .mark .less := by
  unfold scanMarkup
  split <;> grind

namespace Parser

variable {before : State} {tail : List Char} {bound : Nat}

theorem stops_parametersSource (parameters : List TagName) (tail : List Char) :
    Lex.Stops CharClass.isNamePart (parametersSource parameters ++ ['>'] ++ tail) := by
  cases parameters <;> rintro _ ⟨⟩ <;> rfl

theorem declarationParameters_yields (parameters : List TagName)
    (enough : (parametersSource parameters ++ ['>']).length ≤ bound) :
    Yields (declarationParameters bound) .tag (parametersSource parameters ++ ['>']) tail
      fun result => result = parameters.map (·.text) := by
  induction parameters generalizing bound with
  | nil =>
      cases bound with
      | zero => simp at enough
      | succ bound =>
          have scanned : Lex.scanIn .tag (['>'] ++ tail) =
              .ok (some ⟨.punctuation .greater, 1⟩) := rfl
          apply Yields.no_spaces separates_tag (.of_scanned scanned rfl)
          exact Yields.peekKind scanned (Yields.skip_pure scanned rfl)
  | cons parameter parameters ih =>
      have sourceEq : parametersSource (parameter :: parameters) ++ ['>'] =
          [' '] ++ (parameter.text.toList ++ (parametersSource parameters ++ ['>'])) := by
        simp [parametersSource]
      rw [sourceEq] at enough ⊢
      simp only [List.length_append, List.length_singleton] at enough
      have scanned := scanIn_tagName parameter (stops_parametersSource parameters tail)
      cases bound with
      | zero => omega
      | succ bound =>
          have enoughThen : (parametersSource parameters ++ ['>']).length ≤ bound := by
            rw [List.length_append, List.length_singleton]
            omega
          apply Yields.spaces separates_tag isSpaces_blank
          · exact .of_scanned (by rwa [List.append_assoc]) rfl
          · rw [List.length_singleton]
            omega
          apply Yields.peekKind (by rwa [List.append_assoc])
          apply Yields.skip scanned
          exact Yields.map (ih enoughThen) fun _ sameThen => congrArg _ sameThen

/-- A declaration that has nothing but a blank behind its name has no parameters. -/
theorem declarationParameters_yields_nil (enough : [' ', '>'].length ≤ bound) :
    Yields (declarationParameters bound) .tag [' ', '>'] tail fun result => result = [] := by
  cases bound with
  | zero => contradiction
  | succ bound =>
      have scanned : Lex.scanIn .tag (['>'] ++ tail) =
          .ok (some ⟨.punctuation .greater, 1⟩) := rfl
      apply Yields.spaces separates_tag isSpaces_blank (.of_scanned scanned rfl)
      · exact Nat.le_of_succ_le_succ enough
      · exact Yields.peekKind scanned (Yields.skip_pure scanned rfl)

theorem scanMarkup_declaration (name : TagName) (text : List Char) :
    Lex.scanMarkup (['<'] ++ (['!'] ++ (name.text.toList ++ text))) =
      .ok (some ⟨.punctuation .less, 1⟩) := by
  obtain ⟨c, rest, nameEq, start, -⟩ := name.isName
  have noComment : ¬['-', '-'] <+: name.text.toList ++ text := by
    rw [nameEq]
    rintro ⟨tail, textEq⟩
    obtain ⟨rfl, -⟩ := List.cons.inj textEq
    exact absurd start (by decide)
  exact Lex.scanMarkup_bang noComment

section Declarations

variable {name : TagName} {behind : List Char} {parameters : List String}

theorem next_less_of_declaration
    (facing : Facing before (['<'] ++ (['!'] ++ (name.text.toList ++ behind))) tail) :
    before.Next (.punctuation .less) ['<'] := by
  apply facing.next
  rw [List.append_assoc, List.append_assoc]
  exact scanMarkup_declaration name _

theorem declaration_runs
    (facing : Facing before (['<'] ++ (['!'] ++ (name.text.toList ++ behind))) tail)
    (atStart : before.atStart = true) (stops : Lex.Stops CharClass.isNamePart (behind ++ tail))
    (yields : Yields (declarationParameters bound) .tag behind tail
      fun result => result = parameters) :
    Runs (tag bound) before ()
      ((before.after (['<'] ++ (['!'] ++ (name.text.toList ++ behind)))).declare
        ⟨name.text, parameters,
          before.spanOf (['<'] ++ (['!'] ++ (name.text.toList ++ behind)))⟩) := by
  have known := next_less_of_declaration facing
  have restEq : (inTag before).rest = ['!'] ++ (name.text.toList ++ (behind ++ tail)) := by
    simpa only [List.append_assoc] using rest_inTag facing
  have bang : (inTag before).Next (.punctuation .bang) ['!'] := next_of_rest rfl restEq rfl
  have atStartThen : (inTag before).atStart = true := atStart
  apply Meets.enter known (by decide)
  apply Meets.bind_runs (peekKind_runs bang.scanned)
  apply Meets.get (fun _ => rfl)
  simp only [atStartThen, Bool.not_true, Bool.false_eq_true, if_false]
  apply Meets.bind_runs (skip_runs bang)
  refine Meets.yielding rfl restEq (tagName_yields name stops) ?_
  rintro ⟨_, place⟩ rfl
  refine Meets.yielding rfl (by simpa only [List.append_assoc] using restEq) yields ?_
  rintro _ rfl
  have pieceEq : ['<'] ++ (['!'] ++ name.text.toList ++ behind) =
      ['<'] ++ (['!'] ++ (name.text.toList ++ behind)) := by rw [List.append_assoc]
  apply Meets.leave (by rw [pieceEq]; exact facing.ahead)
  rw [pieceEq]
  exact Meets.modify (State.declare_lexerFree _) ⟨trivial, rfl⟩

/-- A declaration before all nodes is read and leads to the same state with the
declaration in it, whatever stands behind its name as its parameters. -/
theorem leads_declaration_of
    (facing : Facing before (['<'] ++ (['!'] ++ (name.text.toList ++ behind))) tail)
    (atStart : before.atStart = true) (stops : Lex.Stops CharClass.isNamePart (behind ++ tail))
    (yields : ∀ bound, behind.length ≤ bound → Yields (declarationParameters bound) .tag
      behind tail fun result => result = parameters) :
    Leads before ((before.after (['<'] ++ (['!'] ++ (name.text.toList ++ behind)))).declare
      ⟨name.text, parameters,
        before.spanOf (['<'] ++ (['!'] ++ (name.text.toList ++ behind)))⟩) := by
  apply Leads.of_change (State.declare_lexerFree _) facing (List.cons_ne_nil _ _)
    (next_less_of_declaration facing)
  intro bound enough
  apply declaration_runs facing atStart stops
  apply yields
  simp only [List.length_append] at enough
  omega

end Declarations

theorem leads_declaration (name : TagName) (parameters : List TagName)
    (facing : Facing before (declarationSource name parameters) tail)
    (atStart : before.atStart = true) :
    Leads before ((before.after (declarationSource name parameters)).declare
      ⟨name.text, parameters.map (·.text), before.spanOf (declarationSource name parameters)⟩) :=
  leads_declaration_of facing atStart (stops_parametersSource parameters tail)
    fun _ enough => declarationParameters_yields parameters enough

/-- A declaration with a blank for its parameters. -/
theorem leads_declaration_blank (name : TagName)
    (facing : Facing before (['<'] ++ (['!'] ++ (name.text.toList ++ [' ', '>']))) tail)
    (atStart : before.atStart = true) :
    Leads before ((before.after (['<'] ++ (['!'] ++ (name.text.toList ++ [' ', '>'])))).declare
      ⟨name.text, [],
        before.spanOf (['<'] ++ (['!'] ++ (name.text.toList ++ [' ', '>'])))⟩) :=
  leads_declaration_of facing atStart (by rintro _ ⟨⟩; rfl)
    fun _ enough => declarationParameters_yields_nil enough

end Parser

end TemplateCompiler
