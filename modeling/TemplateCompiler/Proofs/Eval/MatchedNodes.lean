import TemplateCompiler.Proofs.Eval.Environment
import TemplateCompiler.Proofs.Parse.CoupledTemplates

/-!
# Nodes that are read from the same text

What a node expands to depends on where it stands only if it fails to expand: the
error is at its place.  So nodes that are read from the same text expand to the
same, and if places are compared, they fail alike.
-/

namespace TemplateCompiler

open Parse

namespace Eval

/-- The same error in a text that follows some bytes and some whole lines. -/
def Error.shifted (bytes lines : Nat) (error : Error) : Error :=
  ⟨error.cause, error.position.shifted bytes lines⟩

variable {α β : Type} {seam : Seam} {environment : Environment} {place other : Position}

/-- Whether an outcome is that of the second reading, if the other one is that of
the first. -/
def Echoes (seam : Seam) (first second : Except Error α) : Prop :=
  match first with
  | .ok result => second = .ok result
  | .error error => seam.exact → second = .error (error.shifted seam.bytes seam.lines)

namespace Echoes

theorem ok (result : α) : Echoes seam (.ok result) (.ok result) :=
  rfl

theorem error {cause : Cause} (agrees : seam.Agrees place other) :
    Echoes seam (.error ⟨cause, place⟩ : Except Error α) (.error ⟨cause, other⟩) :=
  fun isExact => by rw [agrees isExact]; rfl

theorem bind {first second : Except Error α} {next next' : α → Except Error β}
    (echoes : Echoes seam first second)
    (echoesThen : ∀ result, Echoes seam (next result) (next' result)) :
    Echoes seam (first >>= next) (second >>= next') := by
  cases first with
  | ok result =>
      obtain rfl : second = .ok result := echoes
      exact echoesThen result
  | error error => exact fun isExact => by rw [echoes isExact]; rfl

theorem valueIn (agrees : seam.Agrees place other) (path : Path) :
    Echoes seam (valueIn environment place path) (valueIn environment other path) := by
  unfold Eval.valueIn
  cases environment.follow? path with
  | some value => exact ok value
  | none => exact error agrees

theorem shownIn (agrees : seam.Agrees place other) (expression : Expr) :
    Echoes seam (shownIn environment place expression) (shownIn environment other expression) := by
  cases expression with
  | path path => exact (valueIn agrees path).bind (fun value => ok value.shown)
  | _ => exact ok _

theorem itemsIn (agrees : seam.Agrees place other) (header : Loop) :
    Echoes seam (itemsIn environment place header) (itemsIn environment other header) := by
  apply (valueIn agrees header.collection).bind
  intro collection
  cases collection with
  | array items => exact ok items
  | object fields => exact ok (fields.map fun field => field.2)
  | null | bool value | number value | string value => exact error agrees

theorem roundsIn {body body' : Environment → Expansion}
    (echoes : ∀ environment, Echoes seam (body environment) (body' environment)) (header : Loop)
    (index : Nat) (items : List Json) :
    Echoes seam (roundsIn environment header body index items)
      (roundsIn environment header body' index items) := by
  induction items generalizing index with
  | nil => exact ok []
  | cons item items ih =>
      exact (echoes _).bind fun first => (ih (index + 1)).bind fun others => ok (first ++ others)

/-- Whether the bodies of two loops, if there are any, expand to the same. -/
inductive EchoBodies (seam : Seam) : (first second : Option (Environment → Expansion)) → Prop
  | none : EchoBodies seam none none
  | some {body body' : Environment → Expansion}
      (echoes : ∀ environment, Echoes seam (body environment) (body' environment)) :
      EchoBodies seam (some body) (some body')

theorem kindIn {kind : NodeKind} {content content' : Environment → Expansion}
    {body? body?' : Option (Environment → Expansion)}
    (agrees : kind.isCode = false → seam.Agrees place other)
    (echoes : ∀ environment, Echoes seam (content environment) (content' environment))
    (echoBodies : EchoBodies seam body? body?') (inStyle : Bool) (environment : Environment) :
    Echoes seam (kindIn place inStyle content body? environment kind)
      (kindIn other inStyle content' body?' environment kind) := by
  cases kind with
  | block => exact echoes environment
  | element tag => exact (echoes environment).bind fun _ => ok _
  | text text | comment text | script text => exact ok _
  | interpolation expression => exact (shownIn (agrees rfl) expression).bind fun _ => ok _
  | loop header =>
      cases echoBodies with
      | none => exact error (agrees rfl)
      | some echoes =>
          exact (itemsIn (agrees rfl) header).bind fun items => roundsIn echoes header 0 items
  | document head => exact error (agrees rfl)

mutual

theorem expansion (inStyle : Bool) :
    (node other : Node) → seam.Matches node other → (environment : Environment) →
      Echoes seam (expansion inStyle node environment) (expansion inStyle other environment)
  | .node _ kind place children, .node _ _ otherPlace others, matched, environment => by
      obtain ⟨rfl, agrees, matchedBelow⟩ := matched
      exact kindIn agrees (expansions _ children others matchedBelow)
        (bodyExpansion? children others matchedBelow) inStyle environment

theorem expansions (inStyle : Bool) :
    (nodes others : List Node) → seam.AllMatch nodes others → (environment : Environment) →
      Echoes seam (expansions inStyle nodes environment) (expansions inStyle others environment)
  | [], [], _, _ => ok []
  | first :: nodes, other :: others, matched, environment =>
      (expansion inStyle first other matched.1 environment).bind fun before =>
        (expansions inStyle nodes others matched.2 environment).bind fun after =>
          ok (before ++ after)

theorem bodyExpansion? :
    (nodes others : List Node) → seam.AllMatch nodes others →
      EchoBodies seam (bodyExpansion? nodes) (bodyExpansion? others)
  | [], [], _ => .none
  | .node _ kind _ children :: nodes, .node _ _ _ below :: others, matched => by
      obtain ⟨⟨rfl, -, matchedBelow⟩, matchedThen⟩ := matched
      rw [bodyExpansion?_cons, bodyExpansion?_cons]
      split
      · exact .some (expansions false children below matchedBelow)
      · exact bodyExpansion? nodes others matchedThen

end

end Echoes

theorem Echoes.template {first second : Template} (alike : Parser.Alike seam first second)
    (noBase : seam.base = []) (noDoctype : seam.doctype = none) (environment : Environment) :
    Echoes seam (first.expansion environment) (second.expansion environment) := by
  obtain ⟨nodes, matched, childrenEq⟩ := alike.children
  have doctypeEq := alike.doctype
  rw [noBase, List.reverse_nil, List.nil_append] at childrenEq
  rw [noDoctype, Option.none_or] at doctypeEq
  unfold Template.expansion
  rw [childrenEq, Document.declaredType?_eq, Document.declaredType?_eq, doctypeEq]
  have echoes := Echoes.expansions false first.children nodes (seam.allMatch_iff.2 matched)
  exact (echoes environment).bind fun children =>
    .ok (⟨first.document.doctype?, children⟩ : Html.Document)

end Eval

end TemplateCompiler
