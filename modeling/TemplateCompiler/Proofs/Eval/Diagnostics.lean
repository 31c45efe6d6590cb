import TemplateCompiler.Proofs.Eval.ShapedTemplates
import TemplateCompiler.Proofs.Lex.LineBreaks
import TemplateCompiler.Proofs.Parse.Places

/-!
# Where diagnostics point

An evaluation fails at the position of some node.  So every position that a source
can be reported at was made while the source was read, and it is true to the text:
it lies between two characters, not inside a line break, and its line and column are
those that a line table finds there.
-/

namespace TemplateCompiler

namespace Eval

variable {environment : Environment} {position : Position} {error : Error}

theorem position_of_itemsIn {header : Loop}
    (failed : itemsIn environment position header = .error error) : error.position = position := by
  rcases error_of_itemsIn failed with rfl | ⟨found, rfl⟩
  · rfl
  · rfl

theorem position_of_roundsIn {header : Loop} {body : Environment → Expansion}
    {positions : List Position}
    (within : ∀ environment, body environment = .error error → error.position ∈ positions)
    (index : Nat) (items : List Json)
    (failed : roundsIn environment header body index items = .error error) :
    error.position ∈ positions := by
  induction items generalizing index with
  | nil => contradiction
  | cons item items ih =>
      rcases error_of_bind failed with failed | ⟨first, -, failed⟩
      · exact within _ failed
      · rcases error_of_bind failed with failed | ⟨others, -, failed⟩
        · exact ih (index + 1) failed
        · contradiction

mutual

/-- A node fails to expand at its own position or at that of a node below it. -/
theorem position_of_expansion (inStyle : Bool) :
    (node : Node) → (environment : Environment) →
      expansion inStyle node environment = .error error → error.position ∈ node.positions
  | .node _ kind position children, environment, failed => by
      rw [Node.positions]
      cases kind with
      | block =>
          exact List.mem_cons_of_mem _ (position_of_expansions false children environment failed)
      | element tag =>
          rcases error_of_bind failed with failed | ⟨content, -, failed⟩
          · exact List.mem_cons_of_mem _ (position_of_expansions _ children environment failed)
          · contradiction
      | text content | comment content | script code => contradiction
      | interpolation expression =>
          rcases error_of_bind failed with failed | ⟨shown, -, failed⟩
          · obtain ⟨path, rfl⟩ := error_of_shownIn failed
            exact List.mem_cons_self
          · contradiction
      | loop header =>
          simp only [expansion, kindIn] at failed
          split at failed
          · cases failed
            exact List.mem_cons_self
          · next body found =>
              rcases error_of_bind failed with failed | ⟨items, -, failed⟩
              · rw [position_of_itemsIn failed]
                exact List.mem_cons_self
              · exact List.mem_cons_of_mem _ (position_of_roundsIn
                  (position_of_bodyExpansion? children body found) 0 items failed)
      | document head =>
          cases failed
          exact List.mem_cons_self

theorem position_of_expansions (inStyle : Bool) :
    (nodes : List Node) → (environment : Environment) →
      expansions inStyle nodes environment = .error error →
      error.position ∈ Node.allPositions nodes
  | [], _, failed => nomatch failed
  | first :: others, environment, failed => by
      rw [Node.allPositions]
      rcases error_of_bind failed with failed | ⟨before, -, failed⟩
      · exact List.mem_append_left _ (position_of_expansion inStyle first environment failed)
      · rcases error_of_bind failed with failed | ⟨after, -, failed⟩
        · exact List.mem_append_right _
            (position_of_expansions inStyle others environment failed)
        · contradiction

theorem position_of_bodyExpansion? :
    (nodes : List Node) → ∀ body, bodyExpansion? nodes = some body →
      ∀ environment, body environment = .error error →
        error.position ∈ Node.allPositions nodes
  | [], _, found, _, _ => nomatch found
  | .node _ kind _ children :: others, body, found, environment, failed => by
      rw [Node.allPositions, Node.positions]
      rw [bodyExpansion?_cons] at found
      split at found
      · cases found
        exact List.mem_append_left _ (List.mem_cons_of_mem _
          (position_of_expansions false children environment failed))
      · exact List.mem_append_right _
          (position_of_bodyExpansion? others body found environment failed)

end

/-- A template fails to evaluate at the position of one of its nodes. -/
theorem position_of_evaluate {template : Template} {data : Json}
    (failed : template.evaluate data = .error error) :
    error.position ∈ Node.allPositions template.children := by
  rw [template.evaluate_eq] at failed
  rcases error_of_bind failed with failed | ⟨shown, -, failed⟩
  · exact position_of_expansions false template.children _ failed
  · contradiction

end Eval

/-- Whatever stage refuses a source, the diagnostic has a position, and that is true
to the text. -/
theorem Source.diagnostic_isTrue {source : Source} {data : Json} {settings : Html.Settings}
    {diagnostic : Diagnostic} (failed : source.compile data settings = .error diagnostic) :
    ∃ position, diagnostic.position = some position ∧
      position.offset ≤ source.byteLength ∧ position.IsTrue source.text.toList := by
  have points {position : Position} (found : diagnostic.position = some position)
      (isTrue : position.IsTrue source.text.toList) :
      ∃ position, diagnostic.position = some position ∧
        position.offset ≤ source.byteLength ∧ position.IsTrue source.text.toList := by
    have within := isTrue.offset_le
    rw [Text.byteLength_toList] at within
    exact ⟨position, found, within, isTrue⟩
  have read := Places.of_parse (Places.closed_trueTo source.text.toList) source.text
    (Cursor.located_ofText _)
  unfold Source.compile at failed
  rcases source.evaluate_cases data with ⟨error, parsed, refused⟩ | ⟨template, parsed, found⟩
  · rw [refused] at failed
    cases failed
    rw [parsed] at read
    cases error with
    | lexical error => exact points rfl read
    | grammatical cause position => exact points rfl read
  · rw [parsed] at read
    rw [found] at failed
    cases evaluated : template.evaluate data with
    | ok document =>
        rw [evaluated] at failed
        contradiction
    | error error =>
        rw [evaluated] at failed
        cases failed
        exact points rfl (read _ (Eval.position_of_evaluate evaluated))

/-- A text with all kinds of line breaks and characters of two bytes before an
interpolation that has no value. -/
def Source.valueBehindBreaks : Source :=
  ⟨"value", "é\n\r\n\rü\x7b\x7b x \x7d\x7d"⟩

theorem Source.diagnostic_isTrue_valueBehindBreaks :
    ∃ diagnostic, valueBehindBreaks.compile .null .standard = .error diagnostic ∧
      diagnostic.position = some ⟨4, 2, 8, some 7⟩ ∧
      ∃ position, diagnostic.position = some position ∧
        position.offset ≤ valueBehindBreaks.byteLength ∧
        position.IsTrue valueBehindBreaks.text.toList := by
  have found : (match valueBehindBreaks.compile .null .standard with
      | .ok _ => none
      | .error diagnostic => diagnostic.position) = some ⟨4, 2, 8, some 7⟩ := by
    decide +kernel
  cases failed : valueBehindBreaks.compile .null .standard with
  | ok compiled =>
      rw [failed] at found
      contradiction
  | error diagnostic =>
      rw [failed] at found
      exact ⟨diagnostic, rfl, found, Source.diagnostic_isTrue failed⟩

end TemplateCompiler
