import TemplateCompiler.Proofs.Parse.Running
import TemplateCompiler.Proofs.Template.Written

/-!
# How tags are read

The productions for the inside of tags give back what was written there, however
its parts are separated.  An attribute without a value takes the white space
behind it, so what follows the name of a tag is divided in two: the white space
that comes next, of which some may be gone already, and all that stands behind
it.
-/

namespace TemplateCompiler

open Written

namespace Parser

variable {tail : List Char} {bound : Nat}

section Names

theorem scanIn_tagName (name : TagName) (stops : Lex.Stops CharClass.isNamePart tail) :
    Lex.scanIn .tag (name.text.toList ++ tail) =
      .ok (some ⟨.identifier name.text, name.text.toList.length⟩) := by
  have found : Lex.scanIn .tag _ = _ := Lex.scanTag_name name.isName stops
  rwa [Lex.wordKind_of_not_boolean name.notBoolean, String.ofList_toList] at found

theorem tagName_yields {what : String} (name : TagName)
    (stops : Lex.Stops CharClass.isNamePart tail) :
    Yields (expectIdentifier what) .tag name.text.toList tail fun named =>
      named.1 = name.text :=
  expectIdentifier_yields (scanIn_tagName name stops)

theorem isNamePart_of_isMarkupSpace {c : Char} (space : CharClass.isMarkupSpace c = true) :
    CharClass.isNamePart c = false := by
  simp only [CharClass.isMarkupSpace, Bool.or_eq_true, beq_iff_eq] at space
  rcases space with (((rfl | rfl) | rfl) | rfl) | rfl <;> rfl

end Names

section Values

theorem scanIn_tag_quote (value : String) (tail : List Char) :
    Lex.scanIn .tag (Lex.quote value ++ tail) =
      .ok (some ⟨.string value, (Lex.quote value).length⟩) :=
  Lex.scanTag_quote value tail

theorem stringValue_yields (value : String) :
    Yields (stringValue bound) .tag (Lex.quote value) tail fun result => result = value := by
  have scanned := scanIn_tag_quote value tail
  apply Yields.no_spaces separates_tag (.of_scanned scanned rfl)
  exact Yields.peekKind scanned (Yields.skip_pure scanned rfl)

theorem optionalValue_yields_some (value : String) :
    Yields (optionalValue bound) .tag ('=' :: Lex.quote value) tail fun result =>
      result = some value := by
  have scanned : Lex.scanIn .tag (['='] ++ (Lex.quote value ++ tail)) =
      .ok (some ⟨.punctuation .equals, 1⟩) := rfl
  refine Yields.no_spaces separates_tag (.of_scanned scanned rfl) ?_
  refine nextIs_yields_true scanned rfl ?_
  exact Yields.skip scanned (Yields.map (stringValue_yields value) (by simp))

theorem optionalValue_yields_none {spaces : List Char} (isSpaces : Text.IsSpaces spaces)
    (solid : Refuses .tag TokenKind.isWhitespace tail)
    (noEquals : Refuses .tag (· == .punctuation .equals) tail)
    (enough : spaces.length ≤ bound) :
    Yields (optionalValue bound) .tag spaces tail fun result => result = none := by
  have taken : Yields (optionalValue bound) .tag (spaces ++ []) tail fun result =>
      result = none := by
    refine Yields.spaces separates_tag isSpaces solid enough ?_
    exact nextIs_yields_false noEquals (Yields.pure rfl)
  rwa [List.append_nil] at taken

theorem bindingValue_yields (name value : String) (direction : BindingDirection) :
    Yields (bindingValue bound name direction) .tag ('=' :: Lex.quote value) tail fun result =>
      result = ⟨name, value, direction⟩ := by
  have scanned : Lex.scanIn .tag (['='] ++ (Lex.quote value ++ tail)) =
      .ok (some ⟨.punctuation .equals, 1⟩) := rfl
  refine Yields.no_spaces separates_tag (.of_scanned scanned rfl) ?_
  apply Yields.discard (expectMark_yields scanned)
  exact Yields.map (stringValue_yields value) (by simp)

end Values

section Bindings

variable (name : TagName) (expression : String)

theorem roundBinding_yields :
    Yields (roundBinding bound) .tag (name.text.toList ++ ([')'] ++ ('=' :: Lex.quote expression)))
      tail fun result => result = ⟨name.text, expression, .outward⟩ := by
  apply Yields.bind (tagName_yields name (by rintro _ ⟨⟩; rfl))
  rintro ⟨_, place⟩ rfl
  apply Yields.discard (expectMark_yields rfl)
  exact bindingValue_yields name.text expression .outward

theorem squareBinding_yields_inward :
    Yields (squareBinding bound) .tag
      (name.text.toList ++ ([']'] ++ ('=' :: Lex.quote expression))) tail fun result =>
        result = ⟨name.text, expression, .inward⟩ := by
  have scanned : Lex.scanIn .tag (name.text.toList ++ (']' :: '=' :: Lex.quote expression ++ tail))
      = _ := scanIn_tagName name (by rintro _ ⟨⟩; rfl)
  apply nextIs_yields_false (.of_scanned (by simpa using scanned) rfl)
  apply Yields.bind (tagName_yields name (by rintro _ ⟨⟩; rfl))
  rintro ⟨_, place⟩ rfl
  apply Yields.discard (expectMark_yields rfl)
  exact bindingValue_yields name.text expression .inward

theorem squareBinding_yields_both :
    Yields (squareBinding bound) .tag
      (['('] ++ (name.text.toList ++ ([')'] ++ ([']'] ++ ('=' :: Lex.quote expression))))) tail
      fun result => result = ⟨name.text, expression, .both⟩ := by
  have scanned : ∀ text, Lex.scanIn .tag (['('] ++ text) =
      .ok (some ⟨.punctuation .leftParen, 1⟩) := fun _ => rfl
  apply nextIs_yields_true (by rw [List.append_assoc]; exact scanned _) rfl
  apply Yields.skip (scanned _)
  apply Yields.bind (tagName_yields name (by rintro _ ⟨⟩; rfl))
  rintro ⟨_, place⟩ rfl
  apply Yields.discard (expectMark_yields rfl)
  apply Yields.discard (expectMark_yields rfl)
  exact bindingValue_yields name.text expression .both

end Bindings

section Items

/-- The white space before the first of some items, or before the end of the
tag. -/
def leadOf (trailing : Spaces) : List (Gap × Item) → List Char
  | [] => trailing.text
  | (gap, _) :: _ => gap.text

/-- What follows that white space, up to the end of the tag. -/
def behindLead (trailing : Spaces) (ending : List Char) : List (Gap × Item) → List Char
  | [] => ending
  | (_, item) :: more => item.source ++ (leadOf trailing more ++ behindLead trailing ending more)

variable {trailing : Spaces} {selfClosing : Bool}

theorem isSpaces_leadOf (entries : List (Gap × Item)) :
    Text.IsSpaces (leadOf trailing entries) := by
  cases entries with
  | nil => exact trailing.isSpaces
  | cons entry more => exact entry.1.isSpaces

theorem leadOf_append_behindLead (ending : List Char) (entries : List (Gap × Item)) :
    leadOf trailing entries ++ behindLead trailing ending entries =
      entriesSource entries ++ (trailing.text ++ ending) := by
  induction entries with
  | nil => rfl
  | cons entry more ih =>
      obtain ⟨gap, item⟩ := entry
      rw [behindLead, ih]
      simp [leadOf, entriesSource]

theorem stops_leadOf (trailing : Spaces) (selfClosing : Bool) (entries : List (Gap × Item))
    (tail : List Char) :
    Lex.Stops CharClass.isNamePart
      (leadOf trailing entries ++
        (behindLead trailing (closing selfClosing) entries ++ tail)) := by
  cases entries with
  | nil =>
      refine stops_spaces (fun _ => isNamePart_of_isMarkupSpace) trailing.isSpaces fun _ => ?_
      cases selfClosing <;> rintro _ ⟨⟩ <;> rfl
  | cons entry more =>
      exact stops_spaces (fun _ => isNamePart_of_isMarkupSpace) entry.1.isSpaces
        fun nothing => absurd nothing entry.1.nonempty

theorem stops_valueSource (value : Option String) {text : List Char}
    (stops : Lex.Stops CharClass.isNamePart text) :
    Lex.Stops CharClass.isNamePart (valueSource value ++ text) := by
  cases value with
  | none => exact stops
  | some value =>
      rintro _ ⟨⟩
      rfl

/-- What follows the white space begins with a token that is neither white space
nor an equals sign. -/
theorem scanIn_behindLead (trailing : Spaces) (selfClosing : Bool) (entries : List (Gap × Item))
    (tail : List Char) :
    ∃ lexeme, Lex.scanIn .tag (behindLead trailing (closing selfClosing) entries ++ tail) =
        .ok (some lexeme) ∧
      lexeme.kind.isWhitespace = false ∧ (lexeme.kind == .punctuation .equals) = false := by
  cases entries with
  | nil => cases selfClosing <;> exact ⟨_, rfl, rfl, rfl⟩
  | cons entry more =>
      obtain ⟨gap, item⟩ := entry
      cases item with
      | «attribute» name value =>
          refine ⟨⟨.identifier name.text, name.text.toList.length⟩, ?_, rfl, rfl⟩
          simp only [behindLead, Item.source, List.append_assoc]
          exact scanIn_tagName name
            (stops_valueSource value (stops_leadOf trailing selfClosing more tail))
      | binding direction name expression => cases direction <;> exact ⟨_, rfl, rfl, rfl⟩
      | directive name expression => exact ⟨_, rfl, rfl, rfl⟩

theorem solid_behindLead (trailing : Spaces) (selfClosing : Bool) (entries : List (Gap × Item))
    (tail : List Char) :
    Refuses .tag TokenKind.isWhitespace
      (behindLead trailing (closing selfClosing) entries ++ tail) := by
  obtain ⟨lexeme, scanned, solid, -⟩ := scanIn_behindLead trailing selfClosing entries tail
  exact .of_scanned scanned solid

/-- A value, if there is one, and the white space that is taken when there is
none. -/
theorem optionalValue_yields (selfClosing : Bool) (value : Option String)
    (entries : List (Gap × Item)) (tail : List Char)
    (enough : (leadOf trailing entries).length ≤ bound) :
    ∃ taken lead, Text.IsSpaces lead ∧
      valueSource value ++ leadOf trailing entries = taken ++ lead ∧
      lead.length ≤ (leadOf trailing entries).length ∧
      Yields (optionalValue bound) .tag taken
        (lead ++ (behindLead trailing (closing selfClosing) entries ++ tail))
        fun result => result = value := by
  cases value with
  | none =>
      obtain ⟨lexeme, scanned, solid, noEquals⟩ :=
        scanIn_behindLead trailing selfClosing entries tail
      refine ⟨leadOf trailing entries, [], Text.isSpaces_nil,
        (List.append_nil _).symm, Nat.zero_le _, ?_⟩
      exact optionalValue_yields_none (isSpaces_leadOf entries) (.of_scanned scanned solid)
        (.of_scanned scanned noEquals) enough
  | some value =>
      exact ⟨_, leadOf trailing entries, isSpaces_leadOf entries, rfl, Nat.le_refl _,
        optionalValue_yields_some value⟩

/-- An element as its start tag leaves it. -/
def finished (selfClosing : Bool) (element : Element) : Element :=
  if selfClosing then { element with selfClosing := true } else element

theorem named_yields {next : Option String → Parser Element} {good : Element → Prop}
    (value : Option String) (entries : List (Gap × Item))
    (enough : (leadOf trailing entries).length ≤ bound)
    (yields : ∀ lead, Text.IsSpaces lead → lead.length ≤ (leadOf trailing entries).length →
      Yields (next value) .tag (lead ++ behindLead trailing (closing selfClosing) entries) tail
        good) :
    Yields (optionalValue bound >>= next) .tag
      (valueSource value ++ (leadOf trailing entries ++
        behindLead trailing (closing selfClosing) entries)) tail good := by
  obtain ⟨taken, lead, isSpaces, sourceEq, shorter, takes⟩ :=
    optionalValue_yields selfClosing value entries tail enough
  rw [← List.append_assoc, sourceEq, List.append_assoc]
  apply Yields.bind (by rwa [List.append_assoc])
  rintro _ rfl
  exact yields lead isSpaces shorter

theorem length_source_pos (item : Item) : 0 < item.source.length := by
  cases item with
  | «attribute» name value =>
      obtain ⟨c, rest, nameEq, -⟩ := name.isName
      simp [Item.source, nameEq]
  | binding direction name expression => cases direction <;> simp [Item.source]
  | directive name expression => simp [Item.source]

theorem tagEnd_yields {lead : List Char} {element : Element} (isSpaces : Text.IsSpaces lead)
    (enough : lead.length ≤ bound) :
    Yields (startTagItems (bound + 1) element) .tag (lead ++ closing selfClosing) tail
      fun result => result = finished selfClosing element := by
  refine Yields.spaces separates_tag isSpaces
    (solid_behindLead ⟨lead, isSpaces⟩ selfClosing [] tail)
    enough ?_
  cases selfClosing with
  | true =>
      have scanned : Lex.scanIn .tag (['/'] ++ (['>'] ++ tail)) =
          .ok (some ⟨.punctuation .slash, 1⟩) := rfl
      refine Yields.peekKind scanned (Yields.skip scanned ?_)
      rw [discard_bind]
      exact Yields.map (expectMark_yields rfl) fun _ _ => rfl
  | false =>
      have scanned : Lex.scanIn .tag (['>'] ++ tail) =
          .ok (some ⟨.punctuation .greater, 1⟩) := rfl
      exact Yields.peekKind scanned (Yields.skip_pure scanned rfl)

theorem startTagItem_yields {lead : List Char} {element : Element} {good : Element → Prop}
    (gap : Gap) (item : Item) (more : List (Gap × Item)) (isSpaces : Text.IsSpaces lead)
    (enough : lead.length ≤ bound) (enoughThen : (leadOf trailing more).length ≤ bound)
    (later : ∀ lead, Text.IsSpaces lead → lead.length ≤ (leadOf trailing more).length →
      Yields (startTagItems bound (item.addTo element)) .tag
        (lead ++ behindLead trailing (closing selfClosing) more) tail good) :
    Yields (startTagItems (bound + 1) element) .tag
      (lead ++ behindLead trailing (closing selfClosing) ((gap, item) :: more)) tail good := by
  apply Yields.spaces separates_tag isSpaces (solid_behindLead trailing selfClosing _ tail) enough
  have stops := stops_leadOf trailing selfClosing more tail
  have laterAll := later _ (isSpaces_leadOf more) (Nat.le_refl _)
  rw [behindLead]
  cases item with
  | «attribute» name value =>
      have scanned := scanIn_tagName name (stops_valueSource value stops)
      rw [Item.source, List.append_assoc]
      apply Yields.peekKind (by simpa only [List.append_assoc] using scanned)
      apply Yields.skip (by simpa only [List.append_assoc] using scanned)
      exact named_yields value more enoughThen later
  | binding direction name expression =>
      have square : ∀ text, Lex.scanIn .tag (['['] ++ text) =
          .ok (some ⟨.punctuation .leftBracket, 1⟩) := fun _ => rfl
      have round : ∀ text, Lex.scanIn .tag (['('] ++ text) =
          .ok (some ⟨.punctuation .leftParen, 1⟩) := fun _ => rfl
      cases direction with
      | inward =>
          rw [Item.source, List.append_assoc]
          refine Yields.peekKind (square _) (Yields.skip (square _) ?_)
          apply Yields.bind (squareBinding_yields_inward name expression)
          rintro _ rfl
          exact laterAll
      | outward =>
          rw [Item.source, List.append_assoc]
          refine Yields.peekKind (round _) (Yields.skip (round _) ?_)
          apply Yields.bind (roundBinding_yields name expression)
          rintro _ rfl
          exact laterAll
      | both =>
          rw [Item.source, List.append_assoc]
          refine Yields.peekKind (square _) (Yields.skip (square _) ?_)
          apply Yields.bind (squareBinding_yields_both name expression)
          rintro _ rfl
          exact laterAll
  | directive name expression =>
      have scanned : ∀ text, Lex.scanIn .tag (['*'] ++ text) =
          .ok (some ⟨.punctuation .star, 1⟩) := fun _ => rfl
      rw [Item.source, List.append_assoc, List.append_assoc]
      refine Yields.peekKind (scanned _) (Yields.skip (scanned _) ?_)
      refine Yields.bind (tagName_yields name ?_) ?_
      · simpa only [List.append_assoc] using stops_valueSource expression stops
      rintro ⟨_, place⟩ rfl
      exact named_yields expression more enoughThen later

theorem startTagItems_yields {lead : List Char} {element : Element}
    (entries : List (Gap × Item)) (isSpaces : Text.IsSpaces lead)
    (enough : (lead ++ behindLead trailing (closing selfClosing) entries).length ≤ bound) :
    Yields (startTagItems bound element) .tag
      (lead ++ behindLead trailing (closing selfClosing) entries) tail fun result =>
        result = finished selfClosing (addEntries element entries) := by
  induction entries generalizing lead element bound with
  | nil =>
      have positive : 0 < (closing selfClosing).length := by cases selfClosing <;> simp [closing]
      simp only [behindLead, List.length_append] at enough
      cases bound with
      | zero => omega
      | succ bound => exact tagEnd_yields isSpaces (by omega)
  | cons entry more ih =>
      obtain ⟨gap, item⟩ := entry
      have positive := length_source_pos item
      simp only [behindLead, List.length_append] at enough
      cases bound with
      | zero => omega
      | succ bound =>
          apply startTagItem_yields gap item more isSpaces (by omega) (by omega)
          intro lead isSpaces shorter
          exact ih isSpaces (by rw [List.length_append]; omega)

end Items

section Tags

variable {selfClosing : Bool}

theorem addEntries_keeps (element : Element) (entries : List (Gap × Item)) :
    (addEntries element entries).name = element.name ∧
      (addEntries element entries).selfClosing = element.selfClosing := by
  induction entries generalizing element with
  | nil => exact ⟨rfl, rfl⟩
  | cons entry more ih =>
      rw [addEntries, List.foldl_cons, ← addEntries, (ih _).1, (ih _).2]
      cases entry.2 <;> exact ⟨rfl, rfl⟩

theorem finished_void {element : Element} (isOpen : element.selfClosing = false) :
    { finished selfClosing element with
      selfClosing := (finished selfClosing element).selfClosing ||
        isVoid (finished selfClosing element).name } =
      finished (selfClosing || isVoid element.name) element := by
  obtain ⟨name, attributes, bindings, directives, closed⟩ := element
  obtain rfl : closed = false := isOpen
  cases selfClosing with
  | true => rfl
  | false => cases void : isVoid name <;> simp [finished, void]

theorem startTag_yields (name : TagName) (items : Items)
    (enough : (items.source ++ closing selfClosing).length ≤ bound) :
    Yields (startTag bound) .tag (name.text.toList ++ (items.source ++ closing selfClosing)) tail
      fun result =>
        result = finished (selfClosing || isVoid name.text) (items.element name) := by
  have sourceEq : items.source ++ closing selfClosing =
      leadOf items.trailing items.entries ++
        behindLead items.trailing (closing selfClosing) items.entries := by
    rw [leadOf_append_behindLead, Items.source, List.append_assoc]
  have nameEq : (items.element name).name = name.text := (addEntries_keeps _ _).1
  rw [sourceEq] at enough ⊢
  refine Yields.bind (tagName_yields name ?_) ?_
  · rw [List.append_assoc]
    exact stops_leadOf _ _ items.entries tail
  rintro ⟨_, place⟩ rfl
  apply Yields.map (startTagItems_yields items.entries (isSpaces_leadOf _) enough)
  rintro _ rfl
  have isOpen : (items.element name).selfClosing = false := (addEntries_keeps _ _).2
  exact (finished_void isOpen).trans (by rw [nameEq])

theorem endTag_yields (name : TagName) :
    Yields (endTag bound) .tag (['/'] ++ (name.text.toList ++ ['>'])) tail
      fun result => result = name.text := by
  have scanned : Lex.scanIn .tag (name.text.toList ++ ('>' :: tail)) = _ :=
    scanIn_tagName name (by rintro _ ⟨⟩; rfl)
  apply Yields.skip rfl
  apply Yields.no_spaces separates_tag (.of_scanned (by simpa using scanned) rfl)
  apply Yields.bind (tagName_yields name (by rintro _ ⟨⟩; rfl))
  rintro ⟨_, place⟩ rfl
  have closed : Lex.scanIn .tag (['>'] ++ tail) = .ok (some ⟨.punctuation .greater, 1⟩) := rfl
  apply Yields.no_spaces separates_tag (.of_scanned closed rfl)
  rw [discard_bind]
  exact Yields.map (expectMark_yields closed) fun _ _ => rfl

end Tags

end Parser

end TemplateCompiler
