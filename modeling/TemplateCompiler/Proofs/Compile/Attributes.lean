import TemplateCompiler.Proofs.Eval.StartTags
import TemplateCompiler.Proofs.Html.ReadBack
import TemplateCompiler.Proofs.Parse.BareValues

/-!
# Attributes in the output

An element is written with the attributes that it has in its template, their values
between double quotes and as they are.  A value without double quotes and backslashes is
read back the same; nothing is escaped for the others.
-/

namespace TemplateCompiler

open Parse Written

namespace Element

/-- Whether no attribute of an element has a value that needs escapes. -/
def Unescaped (tag : Element) : Prop :=
  ∀ item ∈ tag.attributes, item.Unescaped

/-- Whether an element that is read stands for another one.  Empty values are not written,
and neither are bindings and directives. -/
structure Restores (tag read : Element) : Prop where
  name : read.name = tag.name
  attributes : read.attributes = tag.attributes.map Attribute.normal
  bindings : read.bindings = []
  directives : read.directives = []

/-- Whether a text is a start tag that stands for an element, whatever is written behind
it. -/
def ReadsBack (tag : Element) (written : List Char) : Prop :=
  ∃ inside, written = '<' :: inside ∧ ∀ bound tail, inside.length < bound →
    Parser.Yields (Parser.startTag bound) .tag inside tail tag.Restores

end Element

namespace Html

/-- The end of a start tag is that of a tag of an author. -/
theorem StartTag.exists_closing {ending : String} (isEnding : ending ∈ endings) :
    ∃ (trailing : Spaces) (selfClosing : Bool),
      ending.toList = trailing.text ++ closing selfClosing := by
  let noSpaces : Spaces := ⟨[], Text.isSpaces_nil⟩
  simp only [endings, List.mem_cons, List.not_mem_nil, or_false] at isEnding
  rcases isEnding with rfl | rfl | rfl
  · exact ⟨noSpaces, false, rfl⟩
  · exact ⟨noSpaces, true, rfl⟩
  · exact ⟨⟨[' '], Parser.isSpaces_blank⟩, true, rfl⟩

theorem StartTag.stops_ending {ending : String} (isEnding : ending ∈ endings) :
    Lex.Stops CharClass.isNamePart ending.toList := by
  simp only [endings, List.mem_cons, List.not_mem_nil, or_false] at isEnding
  rcases isEnding with rfl | rfl | rfl <;>
    · rintro _ ⟨⟩
      rfl

theorem characters_attributeEmissions (item : Attribute) :
    characters (attributeEmissions item) = item.bareSource := by
  obtain ⟨name, value?⟩ := item
  cases value? with
  | none => simp [Attribute.bareSource, Attribute.normal, attributeEmissions, Emission.written]
  | some value =>
      by_cases empty : value = ""
      · subst empty
        simp [Attribute.bareSource, Attribute.normal, Option.filter, attributeEmissions,
          Emission.written]
      · simp [Attribute.bareSource, Attribute.normal, Option.filter, attributeEmissions,
          Emission.written, bareValue, empty]

end Html

/-- What is written for a start tag, whatever its values are. -/
theorem Element.characters_startTag (tag : Element) (ending : String) :
    Html.characters (tag.startTag.emissions ending) =
      '<' :: (tag.name.toList ++ (bareAttributes tag.attributes ++ ending.toList)) := by
  have attributesEq : Html.characters (tag.attributes.flatMap Html.attributeEmissions) =
      bareAttributes tag.attributes := by
    induction tag.attributes with
    | nil => rfl
    | cons item others ih =>
        rw [List.flatMap_cons, Html.characters_append, Html.characters_attributeEmissions, ih]
        rfl
  simp [Html.StartTag.emissions, startTag, Html.tagEmissions, Html.Emission.written, attributesEq]

/-- The start tag of an element of which no value needs escapes is read back. -/
theorem Element.readsBack_startTag {tag : Element} (named : tag.IsNamed)
    (unescaped : tag.Unescaped) {ending : String} (isEnding : ending ∈ Html.StartTag.endings) :
    tag.ReadsBack (Html.characters (tag.startTag.emissions ending)) := by
  obtain ⟨trailing, selfClosing, endingEq⟩ := Html.StartTag.exists_closing isEnding
  have plain : ∀ item ∈ tag.attributes, item.IsPlain IsPlainName := fun item member =>
    ⟨named.attributes item member, unescaped item member⟩
  obtain ⟨items, sourceEq, elementEq⟩ := Html.exists_items plain trailing
  let name : TagName := ⟨tag.name, named.name.1, named.name.2⟩
  refine ⟨name.text.toList ++ (items.source ++ closing selfClosing), ?_,
    fun bound tail enough => ?_⟩
  · simp [Html.StartTag.emissions, Element.startTag, Html.tagEmissions, Html.Emission.written,
      endingEq, sourceEq, name]
  · rw [List.length_append] at enough
    refine (Parser.startTag_yields name items (by omega)).mono ?_
    rintro _ rfl
    rw [elementEq, Parser.finished]
    split <;> exact ⟨rfl, rfl, rfl, rfl⟩

/-- If a value needs escapes, then the start tag is not read back. -/
theorem Element.unescaped_of_readsBack {tag : Element} (named : tag.IsNamed) {ending : String}
    (isEnding : ending ∈ Html.StartTag.endings)
    (reads : tag.ReadsBack (Html.characters (tag.startTag.emissions ending))) :
    tag.Unescaped := by
  obtain ⟨inside, writtenEq, yields⟩ := reads
  rw [tag.characters_startTag] at writtenEq
  obtain rfl := (List.cons.inj writtenEq).2
  by_contra escaped
  simp only [Unescaped, not_forall, exists_prop] at escaped
  let inside := tag.name.toList ++ (bareAttributes tag.attributes ++ ending.toList)
  let before : State := (State.ofText inside).entered .tag
  have unmattered : LexMode.frontMatter ∉ [LexMode.tag] := by decide
  have ready : before.lexer.Ready := ⟨unmattered, rfl⟩
  have restEq : before.rest = inside := rfl
  have enough : before.rest.length < inside.length + 1 := Nat.lt_succ_self _
  have restores := yields (inside.length + 1) [] enough before rfl
    (restEq.trans (List.append_nil _).symm) before ready rfl
  have differs := Parser.startTag_differs named.name named.attributes escaped
    (Html.StartTag.stops_ending isEnding) (Eq.refl before.mode) restEq enough before ready rfl
  cases ran : Parser.startTag (inside.length + 1) before with
  | ok read after =>
      rw [ran] at restores differs
      exact differs.2 restores.2.1.attributes
  | error error after =>
      rw [ran] at restores
      exact restores

/-- Every output of a source has the start tags of the elements that are reached in its
template, in order and each as often as it is reached.  A start tag is read back just if no
value in it needs escapes. -/
theorem Source.compile_startTags {source : Source} {data : Json} {settings : Html.Settings}
    {compiled : Compiled} (compiles : source.compile data settings = .ok compiled) :
    ∃ template emissions, source.parse = .ok template ∧
      compiled.output = Html.write emissions ∧
      Html.Tagged ((Eval.reachedAll template.children (.ofData data)).map Element.startTag)
        emissions ∧
      ∀ tag ∈ Eval.reachedAll template.children (.ofData data),
        ∀ ending ∈ Html.StartTag.endings,
          tag.ReadsBack (Html.characters (tag.startTag.emissions ending)) ↔ tag.Unescaped := by
  obtain ⟨template, document, parsed, evaluated, rfl⟩ := Source.exists_document_of_compile compiles
  refine ⟨template, document.layOut settings, ?_, rfl, ?_, ?_⟩
  · rw [Source.parse, parsed]
    rfl
  · rw [template.evaluate_eq, Template.expansion] at evaluated
    obtain ⟨shown, expanded, evaluated⟩ := Eval.ok_of_bind evaluated
    cases evaluated
    rw [← Eval.startTags_expansions template.children expanded]
    exact Html.Document.tagged_layOut ⟨_, shown⟩ settings
  · intro tag member ending isEnding
    have named : tag.IsNamed := Eval.holds_of_reachedAll (Parser.allHold_of_parse parsed) member
    exact ⟨tag.unescaped_of_readsBack named isEnding,
      fun unescaped => tag.readsBack_startTag named unescaped isEnding⟩

/-- A link in a loop, with single quotes and angle brackets in its values. -/
def Source.linkInLoop : Source :=
  ⟨"link", "@for (x of xs) \x7b<a href=\"?a>b\" title='<it\\'s>' id=\"\">\x7b\x7bx\x7d\x7d</a>\x7d"⟩

theorem Source.compile_startTags_linkInLoop :
    let data : Json := .object [("xs", .array [.string "p", .string "q"])]
    ∃ compiled, linkInLoop.compile data .standard = .ok compiled ∧
      ∃ template emissions, linkInLoop.parse = .ok template ∧
        compiled.output = Html.write emissions ∧
        Html.Tagged ((Eval.reachedAll template.children (.ofData data)).map Element.startTag)
          emissions ∧
        ∀ tag ∈ Eval.reachedAll template.children (.ofData data),
          ∀ ending ∈ Html.StartTag.endings,
            tag.ReadsBack (Html.characters (tag.startTag.emissions ending)) ↔
              tag.Unescaped := by
  intro data
  have succeeds : (linkInLoop.compile data .standard).toBool = true := by decide +kernel
  cases compiles : linkInLoop.compile data .standard with
  | error diagnostic =>
      rw [compiles] at succeeds
      contradiction
  | ok compiled => exact ⟨compiled, rfl, Source.compile_startTags compiles⟩

/-- An element with double quotes in a value. -/
def Source.quotesInValue : Source :=
  ⟨"quotes", "<a b='x\" c=\"y'/>"⟩

/-- An element with a backslash for its value. -/
def Source.backslashAsValue : Source :=
  ⟨"backslash", "<a b='\\\\'/>"⟩

theorem exists_ok_of_toOption {ε α β : Type} {result : Except ε α} {view : α → β} {seen : β}
    (found : result.toOption.map view = some seen) :
    ∃ value, result = .ok value ∧ view value = seen := by
  cases result with
  | error error => cases found
  | ok value => exact ⟨value, rfl, Option.some.inj found⟩

/-- The attributes of the elements that are reached in a template without data. -/
def Template.reachedAttributes (template : Template) : List (List Attribute) :=
  (Eval.reachedAll template.children (.ofData .null)).map (·.attributes)

/-- From what is written for these elements, the first is read with one attribute more, and
the string of the second does not end. -/
theorem Source.values_not_read_back :
    (∃ template compiled again, quotesInValue.parse = .ok template ∧
      quotesInValue.compile .null ⟨.minify, 2, false⟩ = .ok compiled ∧
      Template.parse compiled.output = .ok again ∧
      template.reachedAttributes = [[⟨"b", some "x\" c=\"y"⟩]] ∧
      again.reachedAttributes = [[⟨"b", some "x"⟩, ⟨"c", some "y"⟩]]) ∧
    ∃ template compiled, backslashAsValue.parse = .ok template ∧
      backslashAsValue.compile .null ⟨.minify, 2, false⟩ = .ok compiled ∧
      template.reachedAttributes = [[⟨"b", some "\\"⟩]] ∧
      ∀ again, Template.parse compiled.output ≠ .ok again := by
  constructor
  · obtain ⟨template, parsed, attributesEq⟩ := exists_ok_of_toOption (show
      quotesInValue.parse.toOption.map Template.reachedAttributes =
        some [[⟨"b", some "x\" c=\"y"⟩]] by decide +kernel)
    obtain ⟨compiled, compiles, outputEq⟩ := exists_ok_of_toOption (show
      (quotesInValue.compile .null ⟨.minify, 2, false⟩).toOption.map Compiled.output =
        some "<a b=\"x\" c=\"y\"/>" by decide +kernel)
    obtain ⟨again, parsedAgain, attributesAgainEq⟩ := exists_ok_of_toOption (show
      (Template.parse "<a b=\"x\" c=\"y\"/>").toOption.map Template.reachedAttributes =
        some [[⟨"b", some "x"⟩, ⟨"c", some "y"⟩]] by decide +kernel)
    exact ⟨template, compiled, again, parsed, compiles, outputEq ▸ parsedAgain, attributesEq,
      attributesAgainEq⟩
  · obtain ⟨template, parsed, attributesEq⟩ := exists_ok_of_toOption (show
      backslashAsValue.parse.toOption.map Template.reachedAttributes =
        some [[⟨"b", some "\\"⟩]] by decide +kernel)
    obtain ⟨compiled, compiles, outputEq⟩ := exists_ok_of_toOption (show
      (backslashAsValue.compile .null ⟨.minify, 2, false⟩).toOption.map Compiled.output =
        some "<a b=\"\\\"/>" by decide +kernel)
    have fails : (Template.parse "<a b=\"\\\"/>").toBool = false := by decide +kernel
    refine ⟨template, compiled, parsed, compiles, attributesEq, fun again parsedAgain => ?_⟩
    rw [← outputEq, parsedAgain] at fails
    cases fails

end TemplateCompiler
