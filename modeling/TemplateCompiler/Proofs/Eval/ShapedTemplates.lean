import TemplateCompiler.Compile
import TemplateCompiler.Proofs.Eval.Refinement
import TemplateCompiler.Proofs.Html.Passages
import TemplateCompiler.Proofs.Parse.Shape

/-!
# What the evaluator relies on

The evaluator has no value for a document inside of a tree and none for a loop
without a body, and it makes texts raw without looking where they end up.  In a
template of the right shape neither of the two errors can occur, and raw texts
end up directly in scripts and styles.
-/

namespace TemplateCompiler

namespace Html

namespace Node

mutual

/-- Whether every raw text at or below a node lies directly in a script or a
style.  The flag tells whether the node itself does. -/
def IsPlaced (embedded : Bool) : Node → Prop
  | .element name _ children => AllPlaced (embedsCode name) children
  | .text _ raw => raw = true → embedded = true
  | .comment _ => True

def AllPlaced (embedded : Bool) : List Node → Prop
  | [] => True
  | first :: others => IsPlaced embedded first ∧ AllPlaced embedded others

end

theorem allPlaced_append {embedded : Bool} {first second : List Node} :
    AllPlaced embedded (first ++ second) ↔
      AllPlaced embedded first ∧ AllPlaced embedded second := by
  induction first with
  | nil => simp [AllPlaced]
  | cons node first ih => simp [AllPlaced, ih, and_assoc]

end Node

end Html

namespace Eval

/-- Errors that are not about the data. -/
def Error.IsInternal (error : Error) : Prop :=
  error.cause.code = .noEvaluator ∨ error.cause.code = .emptyResult

/-- Whether an expansion has its raw texts in place, or fails because of the
data. -/
def IsSound (embedded : Bool) : Expansion → Prop
  | .ok shown => Html.Node.AllPlaced embedded shown
  | .error error => ¬ error.IsInternal

variable {embedded : Bool} {environment : Environment} {position : Position}

theorem IsSound.append {first second : Expansion} (firstSound : IsSound embedded first)
    (secondSound : IsSound embedded second) :
    IsSound embedded (do
      let before ← first
      let after ← second
      return before ++ after) := by
  cases first with
  | error error => exact firstSound
  | ok before =>
      cases second with
      | error error => exact secondSound
      | ok after => exact Html.Node.allPlaced_append.2 ⟨firstSound, secondSound⟩

theorem not_isInternal_shownIn {expression : Expr} {error : Error}
    (failed : shownIn environment position expression = .error error) : ¬ error.IsInternal := by
  obtain ⟨path, rfl⟩ := error_of_shownIn failed
  simp [Error.IsInternal, Cause.code]

theorem not_isInternal_itemsIn {header : Loop} {error : Error}
    (failed : itemsIn environment position header = .error error) : ¬ error.IsInternal := by
  rcases error_of_itemsIn failed with rfl | ⟨found, rfl⟩
  · simp [Error.IsInternal, Cause.code]
  · simp [Error.IsInternal, Cause.code]

theorem isSound_roundsIn {header : Loop} {body : Environment → Expansion}
    (isSound : ∀ environment, IsSound embedded (body environment)) (index : Nat)
    (items : List Json) : IsSound embedded (roundsIn environment header body index items) := by
  induction items generalizing index with
  | nil => trivial
  | cons item items ih => exact (isSound _).append (ih (index + 1))

/-- The children of an element that can be code or raw lie in an element that
embeds code. -/
theorem embedsCode_of_fits {tag : Element} {children : List Node}
    (fits : (NodeKind.element tag).Fits children) {child : Node} (member : child ∈ children)
    (isCode : child.kind.isCode = true) : Html.embedsCode tag.name = true := by
  change (tag.isNamed "script" || tag.isNamed "style") = true
  cases script : tag.isNamed "script" with
  | true => rfl
  | false =>
      cases style : tag.isNamed "style" with
      | true => rfl
      | false =>
          obtain ⟨-, content⟩ := fits
          simp only [script, style, Bool.false_eq_true, if_false] at content
          split at content
          · simp [content] at member
          · rw [content.noCode child member] at isCode
            cases isCode

/-- In a block nothing is code, and nothing lies directly in a style. -/
theorem not_isCode_of_block {children : List Node} (fits : NodeKind.block.Fits children)
    {child : Node} (member : child ∈ children) : child.kind.isCode = false :=
  Node.IsMarkup.noCode fits child member

mutual

/-- A node of the right shape expands soundly if it is placed right itself. -/
theorem isSound_expansion (embedded inStyle : Bool) :
    (node : Node) → (environment : Environment) → node.IsFit →
      (node.kind.isCode = true → embedded = true) → (inStyle = true → embedded = true) →
      IsSound embedded (expansion inStyle node environment)
  | .node _ kind position children, environment, fit, codePlaced, stylePlaced => by
      obtain ⟨fits, below⟩ := Node.isFit_iff.1 fit
      cases kind with
      | document head => exact fits.elim
      | element tag =>
          have stylePlaced : tag.isNamed "style" = true → Html.embedsCode tag.name = true := by
            intro style
            change (tag.isNamed "script" || tag.isNamed "style") = true
            rw [style, Bool.or_true]
          have content := isSound_expansions (Html.embedsCode tag.name) (tag.isNamed "style")
            children environment below (fun child member => embedsCode_of_fits fits member)
            stylePlaced
          rw [expansion_eq]
          simp only [kindIn, NodeKind.isStyle]
          cases expanded : expansions (tag.isNamed "style") children environment with
          | error error =>
              rw [expanded] at content
              exact content
          | ok shown =>
              rw [expanded] at content
              exact ⟨content, trivial⟩
      | text content => exact ⟨stylePlaced, trivial⟩
      | comment content => exact ⟨trivial, trivial⟩
      | script code => exact ⟨fun _ => codePlaced rfl, trivial⟩
      | interpolation expression =>
          simp only [expansion, kindIn]
          cases shown : shownIn environment position expression with
          | error error => exact not_isInternal_shownIn shown
          | ok text => exact ⟨nofun, trivial⟩
      | block =>
          apply isSound_expansions embedded false children environment below
          · intro child member isCode
            rw [not_isCode_of_block fits member] at isCode
            cases isCode
          · exact nofun
      | loop header =>
          have body := isSound_bodyExpansion? embedded children below
          obtain ⟨⟨bodyId, bodyKind, bodyPosition, content⟩, rfl, isBlock⟩ := fits
          obtain rfl : bodyKind = .block := isBlock
          simp only [expansion, kindIn, bodyExpansion?, if_true] at body ⊢
          cases found : itemsIn environment position header with
          | error error => exact not_isInternal_itemsIn found
          | ok items => exact isSound_roundsIn (fun environment => body _ rfl environment) 0 items

theorem isSound_expansions (embedded inStyle : Bool) :
    (nodes : List Node) → (environment : Environment) → Node.AllFit nodes →
      (∀ node ∈ nodes, node.kind.isCode = true → embedded = true) →
      (inStyle = true → embedded = true) →
      IsSound embedded (expansions inStyle nodes environment)
  | [], _, _, _, _ => trivial
  | first :: others, environment, fit, codePlaced, stylePlaced =>
      (isSound_expansion embedded inStyle first environment fit.1
        (codePlaced first List.mem_cons_self) stylePlaced).append
        (isSound_expansions embedded inStyle others environment fit.2
          (fun node member => codePlaced node (List.mem_cons_of_mem first member)) stylePlaced)

theorem isSound_bodyExpansion? (embedded : Bool) :
    (nodes : List Node) → Node.AllFit nodes → ∀ body, bodyExpansion? nodes = some body →
      ∀ environment, IsSound embedded (body environment)
  | [], _, _, found, _ => nomatch found
  | .node _ kind _ children :: others, fit, body, found, environment => by
      rw [bodyExpansion?_cons] at found
      cases isBlock : kind.isBlock with
      | true =>
          rw [isBlock, if_pos rfl, Option.some.injEq] at found
          obtain ⟨fits, below⟩ := Node.isFit_iff.1 fit.1
          rw [← found]
          cases kind with
          | block =>
              apply isSound_expansions embedded false children environment below
              · intro child member isCode
                rw [not_isCode_of_block fits member] at isCode
                cases isCode
              · exact nofun
          | _ => cases isBlock
      | false =>
          rw [isBlock, if_neg Bool.false_ne_true] at found
          exact isSound_bodyExpansion? embedded others fit.2 body found environment

end

/-- Evaluating a shaped template fails because of the data only, and places raw
texts right. -/
theorem isSound_of_shaped {template : Template} (shaped : template.Shaped) (data : Json) :
    match template.evaluate data with
    | .ok document => Html.Node.AllPlaced false document.children
    | .error error => ¬ error.IsInternal := by
  have sound := isSound_expansions false false template.children (.ofData data) shaped.below
    (fun node member isCode => by
      rw [shaped.markup.noCode node member] at isCode
      cases isCode)
    nofun
  rw [template.evaluate_eq, Template.expansion]
  cases expanded : expansions false template.children (.ofData data) with
  | ok shown =>
      rw [expanded] at sound
      exact sound
  | error error =>
      rw [expanded] at sound
      exact sound

end Eval

section Sources

theorem Parse.Error.diagnostic_code (error : Parse.Error) :
    error.diagnostic.code ≠ .noEvaluator ∧ error.diagnostic.code ≠ .emptyResult := by
  cases error with
  | lexical error =>
      obtain ⟨cause, position⟩ := error
      cases cause <;> exact ⟨nofun, nofun⟩
  | grammatical cause position => cases cause <;> exact ⟨nofun, nofun⟩

theorem Eval.Error.diagnostic_code {error : Eval.Error} (notInternal : ¬ error.IsInternal) :
    error.diagnostic.code ≠ .noEvaluator ∧ error.diagnostic.code ≠ .emptyResult :=
  not_or.1 notInternal

/-- A source that does not evaluate is refused by the parser or fails because of
the data. -/
theorem Source.evaluate_cases (source : Source) (data : Json) :
    (∃ error, Template.parse source.text = .error error ∧
        source.evaluate data = .error error.diagnostic) ∨
      ∃ template, Template.parse source.text = .ok template ∧
        source.evaluate data =
          match template.evaluate data with
          | .ok document => .ok ⟨document, template.document.frontMatter⟩
          | .error error => .error error.diagnostic := by
  unfold Source.evaluate Source.parse
  cases parsed : Template.parse source.text with
  | error error => exact .inl ⟨error, rfl, rfl⟩
  | ok template =>
      refine .inr ⟨template, rfl, ?_⟩
      cases evaluated : template.evaluate data with
      | ok document =>
          simp [Except.mapError, evaluated, Bind.bind, Except.bind, Pure.pure, Except.pure]
      | error error => simp [Except.mapError, evaluated, Bind.bind, Except.bind]

/-- What a source compiles to is what its template evaluates to, rendered. -/
theorem Source.exists_document_of_compile {source : Source} {data : Json} {settings : Html.Settings}
    {compiled : Compiled} (compiles : source.compile data settings = .ok compiled) :
    ∃ template document, Template.parse source.text = .ok template ∧
      template.evaluate data = .ok document ∧
      compiled = ⟨document.render settings, template.document.frontMatter⟩ := by
  unfold Source.compile at compiles
  rcases source.evaluate_cases data with ⟨error, -, refused⟩ | ⟨template, parsed, found⟩
  · rw [refused] at compiles
    contradiction
  · rw [found] at compiles
    cases evaluated : template.evaluate data with
    | error error =>
        rw [evaluated] at compiles
        contradiction
    | ok document =>
        rw [evaluated] at compiles
        cases compiles
        exact ⟨template, document, parsed, evaluated, rfl⟩

/-- Whatever a source is, its template has the shape of one if there is one;
compiling it never comes upon a node without a value or a loop without a body;
and raw texts of its document lie directly in scripts and styles. -/
theorem Source.shaped_and_sound (source : Source) :
    (∀ template, source.parse = .ok template → template.Shaped) ∧
      (∀ data settings diagnostic, source.compile data settings = .error diagnostic →
        diagnostic.code ≠ .noEvaluator ∧ diagnostic.code ≠ .emptyResult) ∧
      ∀ data evaluated, source.evaluate data = .ok evaluated →
        Html.Node.AllPlaced false evaluated.document.children := by
  refine ⟨fun template parsed => ?_, fun data settings diagnostic failed => ?_,
    fun data evaluated succeeded => ?_⟩
  · unfold Source.parse at parsed
    cases read : Template.parse source.text with
    | error error =>
        rw [read] at parsed
        cases parsed
    | ok found =>
        rw [read] at parsed
        cases parsed
        exact Parser.shaped_of_parse read
  · unfold Source.compile at failed
    rcases source.evaluate_cases data with ⟨error, parsed, refused⟩ | ⟨template, parsed, found⟩
    · rw [refused] at failed
      cases failed
      exact error.diagnostic_code
    · have sound := Eval.isSound_of_shaped (Parser.shaped_of_parse parsed) data
      rw [found] at failed
      cases evaluated : template.evaluate data with
      | ok document =>
          rw [evaluated] at failed
          cases failed
      | error error =>
          rw [evaluated] at failed sound
          cases failed
          exact Eval.Error.diagnostic_code sound
  · rcases source.evaluate_cases data with ⟨error, parsed, refused⟩ | ⟨template, parsed, found⟩
    · rw [refused] at succeeded
      cases succeeded
    · have sound := Eval.isSound_of_shaped (Parser.shaped_of_parse parsed) data
      rw [found] at succeeded
      cases evaluation : template.evaluate data with
      | ok document =>
          rw [evaluation] at succeeded sound
          cases succeeded
          exact sound
      | error error =>
          rw [evaluation] at succeeded
          cases succeeded

end Sources

end TemplateCompiler
