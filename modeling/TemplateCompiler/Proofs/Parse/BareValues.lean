import TemplateCompiler.Proofs.Html.Normal
import TemplateCompiler.Proofs.Parse.Reading
import TemplateCompiler.Proofs.Parse.WrittenExpressions
import TemplateCompiler.Proofs.Parse.WrittenTags

/-!
# Values between double quotes as they are

A value that is written between double quotes without escapes is not read back if there
is a double quote or a backslash in it: a double quote ends it before its end, and what is
read for a backslash is another character, or the same one for two.
-/

namespace TemplateCompiler

namespace Lex

theorem QuotedBody.exists_of_prepend {body : QuotedBody} {part value : List Char}
    {count length : Nat} (closed : body.prepend part count = .closed value length) :
    ∃ rest restLength, body = .closed rest restLength ∧ part ++ rest = value := by
  cases body with
  | closed rest restLength => exact ⟨rest, restLength, rfl, (QuotedBody.closed.inj closed).1⟩
  | badEscape escape before => cases closed
  | unclosed => cases closed

theorem eq_backslash_of_resolveEscape? {escape : Char}
    (resolved : resolveEscape? escape = some '\\') : escape = '\\' := by
  unfold resolveEscape? at resolved
  split at resolved <;> simp_all

/-- What is read for a value is the value with backslashes before it only if there are
none, and the value has neither double quotes nor backslashes.  A backslash in the value
stands for one in what is read together with the next character, so it would leave one
more to be read before the rest. -/
theorem unescaped_of_readQuoted : ∀ (value : List Char) {tail : List Char} {count length : Nat},
    readQuoted '"' (value ++ '"' :: tail) = .closed (List.replicate count '\\' ++ value) length →
      count = 0 ∧ '"' ∉ value ∧ '\\' ∉ value
  | [], tail, count, length, read => by
      rw [List.nil_append, readQuoted_closed] at read
      have nothing := (QuotedBody.closed.inj read).1
      rw [List.append_nil, eq_comm, List.replicate_eq_nil_iff] at nothing
      exact ⟨nothing, by simp, by simp⟩
  | c :: value, tail, count, length, read => by
      by_cases isQuote : c = '"'
      · subst isQuote
        rw [List.cons_append, readQuoted_closed] at read
        have nothing := (QuotedBody.closed.inj read).1
        simp at nothing
      by_cases isBackslash : c = '\\'
      · subst isBackslash
        have rotate (text : List Char) : List.replicate count '\\' ++ '\\' :: text =
            '\\' :: (List.replicate count '\\' ++ text) := by
          rw [List.append_cons, ← List.replicate_succ', List.replicate_succ, List.cons_append]
        rw [rotate, List.cons_append] at read
        obtain ⟨escape, others, othersEq⟩ :
            ∃ escape others, value ++ '"' :: tail = escape :: others :=
          List.exists_cons_of_ne_nil (by simp)
        rw [othersEq] at read
        cases resolved : resolveEscape? escape with
        | none => simp [readQuoted, resolved] at read
        | some found =>
            rw [readQuoted_escape others (by decide) resolved] at read
            obtain ⟨rest, restLength, body, valueEq⟩ := QuotedBody.exists_of_prepend read
            obtain ⟨rfl, rfl⟩ := List.cons.inj valueEq
            obtain rfl := eq_backslash_of_resolveEscape? resolved
            cases value with
            | nil => exact absurd (List.cons.inj othersEq).1 (by decide)
            | cons escape value =>
                obtain ⟨rfl, rfl⟩ := List.cons.inj othersEq
                rw [rotate, ← List.cons_append, ← List.replicate_succ] at body
                exact absurd (unescaped_of_readQuoted value body).1 (Nat.succ_ne_zero count)
      · rw [List.cons_append, readQuoted_plain _ isQuote isBackslash] at read
        obtain ⟨rest, restLength, body, valueEq⟩ := QuotedBody.exists_of_prepend read
        cases count with
        | succ count => exact absurd (List.cons.inj valueEq).1 isBackslash
        | zero =>
            have body : readQuoted '"' (value ++ '"' :: tail) =
                .closed (List.replicate 0 '\\' ++ value) restLength := by
              rw [body, ← (List.cons.inj valueEq).2]
              rfl
            obtain ⟨-, noQuote, noBackslash⟩ := unescaped_of_readQuoted value body
            exact ⟨rfl, by simp [noQuote, Ne.symm isQuote],
              by simp [noBackslash, Ne.symm isBackslash]⟩

theorem scanTag_doubleQuote (text : List Char) :
    scanTag ('"' :: text) =
      (readQuoted '"' text).scan .string .unterminatedString ('"' :: text) :=
  rfl

/-- The string that is scanned where a value stands between double quotes is another one
if the value needs escapes. -/
theorem ne_of_scanTag_bare {value : String} {tail : List Char} {read : String} {length : Nat}
    (escaped : '"' ∈ value.toList ∨ '\\' ∈ value.toList)
    (scanned : scanTag ('"' :: (value.toList ++ '"' :: tail)) =
      .ok (some ⟨.string read, length⟩)) : read ≠ value := by
  rintro rfl
  rw [scanTag_doubleQuote] at scanned
  cases body : readQuoted '"' (read.toList ++ '"' :: tail) with
  | closed found count =>
      rw [body] at scanned
      have foundEq : String.ofList found = read :=
        TokenKind.string.inj (congrArg Lexeme.kind (Option.some.inj (Except.ok.inj scanned)))
      rw [← foundEq, String.toList_ofList] at body escaped
      have body : readQuoted '"' (found ++ '"' :: tail) =
          .closed (List.replicate 0 '\\' ++ found) count := body
      have unescaped := unescaped_of_readQuoted found body
      exact escaped.elim unescaped.2.1 unescaped.2.2
  | badEscape escape before =>
      rw [body] at scanned
      cases scanned
  | unclosed =>
      rw [body] at scanned
      cases scanned

end Lex

/-- Whether the value of an attribute needs no escapes between double quotes. -/
def Attribute.Unescaped (item : Attribute) : Prop :=
  ∀ value ∈ item.value, '"' ∉ value.toList ∧ '\\' ∉ value.toList

/-- A value as it is between double quotes, behind an equals sign. -/
def bareValue (value : List Char) : List Char :=
  '=' :: '"' :: (value ++ ['"'])

/-- An attribute as it stands in a tag without escapes, behind a blank. -/
def Attribute.bareSource (item : Attribute) : List Char :=
  ' ' :: (item.name.toList ++ (item.normal.value.map (bareValue ·.toList)).getD [])

/-- Attributes as they stand in a tag without escapes. -/
def bareAttributes (attributes : List Attribute) : List Char :=
  attributes.flatMap Attribute.bareSource

namespace Parser

open Parse Written

variable {before : State} {bound : Nat} {tail : List Char}

theorem scanIn_bareValue (value : List Char) (tail : List Char) :
    Lex.scanIn .tag (bareValue value ++ tail) = .ok (some ⟨.punctuation .equals, 1⟩) :=
  rfl

/-- A value that needs escapes is not what is read for it. -/
theorem stringValue_differs {value : String} (escaped : '"' ∈ value.toList ∨ '\\' ∈ value.toList)
    (mode : before.mode = .tag) (restEq : before.rest = '"' :: (value.toList ++ '"' :: tail)) :
    Meets (stringValue bound) before
      (fun read after => read ≠ value ∧ ∃ piece, after = before.after piece) fun _ => True := by
  apply Meets.bind (skipWhitespace_takes bound)
  rintro _ _ ⟨spaces, ahead, isSpaces, rfl⟩
  obtain rfl : spaces = [] := by
    cases spaces with
    | nil => rfl
    | cons c spaces =>
        rw [restEq] at ahead
        obtain rfl := (List.cons_prefix_cons.1 ahead).1
        exact absurd (isSpaces '"' List.mem_cons_self) (by decide)
  rw [peekKind_bind]
  refine Meets.peek (fun kind piece known _ _ => ?_) (fun _ => (failAtNext_fails _).meets)
    fun _ _ => trivial
  cases kind with
  | string read =>
      have scanned := known.scanned
      rw [State.rest_after, restEq, show (before.after []).mode = .tag from mode] at scanned
      refine Meets.bind_runs (skip_runs known) (Meets.pure ⟨?_, piece, State.after_after _ _ _⟩)
      exact Lex.ne_of_scanTag_bare escaped scanned
  | _ => exact (failAtNext_fails _).meets

theorem optionalValue_differs {value : String}
    (escaped : '"' ∈ value.toList ∨ '\\' ∈ value.toList) (mode : before.mode = .tag)
    (restEq : before.rest = bareValue value.toList ++ tail) :
    Meets (optionalValue bound) before
      (fun read after => read ≠ some value ∧ ∃ piece, after = before.after piece)
      fun _ => True := by
  have solid : Refuses .tag TokenKind.isWhitespace (bareValue value.toList ++ tail) :=
    .of_scanned (scanIn_bareValue _ tail) rfl
  apply Meets.bind_yields (skipWhitespace_yields separates_tag Text.isSpaces_nil solid
    (Nat.zero_le bound)) mode restEq
  rintro _ -
  have textEq : (before.after []).rest = ['='] ++ ('"' :: (value.toList ++ '"' :: tail)) := by
    rw [State.rest_after, restEq]
    simp [bareValue]
  have known : (before.after []).Next (.punctuation .equals) ['='] :=
    next_of_rest mode textEq rfl
  apply Meets.bind_runs (nextIs_runs known.scanned _)
  apply Meets.bind_runs (skip_runs known)
  have restThen : ((before.after []).after ['=']).rest = '"' :: (value.toList ++ '"' :: tail) := by
    rw [State.rest_after, textEq, List.drop_left]
  have modeThen : ((before.after []).after ['=']).mode = .tag := mode
  apply Meets.bind (stringValue_differs escaped modeThen restThen)
  rintro read _ ⟨differs, piece, rfl⟩
  refine Meets.pure ⟨fun same => differs (Option.some.inj same), ['='] ++ piece, ?_⟩
  rw [State.after_after, State.after_after, List.nil_append]

/-- The first name is read behind the blank before it. -/
theorem scanIn_bareAttributes {item : Attribute} {others : List Attribute} {text : List Char}
    (named : IsPlainName item.name) (stops : Lex.Stops CharClass.isNamePart tail)
    (textEq : ' ' :: text = bareAttributes (item :: others) ++ tail) :
    Lex.scanIn .tag text = .ok (some ⟨.identifier item.name, item.name.toList.length⟩) := by
  let name : TagName := ⟨item.name, named.1, named.2⟩
  have textEq : text = name.text.toList ++
      ((item.normal.value.map (bareValue ·.toList)).getD [] ++
        (bareAttributes others ++ tail)) := by
    simpa [bareAttributes, Attribute.bareSource, name] using textEq
  rw [textEq]
  refine scanIn_tagName name ?_
  cases item.normal.value with
  | some value =>
      rintro _ ⟨⟩
      rfl
  | none =>
      cases others with
      | nil => exact stops
      | cons other others =>
          rintro _ ⟨⟩
          rfl

section Attributes

variable {post : Element → State → Prop} {fail : Parse.Error → Prop} {element : Element}
  {lead text : List Char}

/-- The name of an attribute is read first. -/
theorem attributeName_meets {name : String} {rest : List Char} (isSpaces : Text.IsSpaces lead)
    (scanned : Lex.scanIn .tag text = .ok (some ⟨.identifier name, name.toList.length⟩))
    (textEq : text = name.toList ++ rest) (mode : before.mode = .tag)
    (restEq : before.rest = lead ++ text) (enough : lead.length ≤ bound)
    (behind : Meets (optionalValue bound >>= fun value => startTagItems bound
        { element with attributes := element.attributes ++ [⟨name, value⟩] })
      ((before.after lead).after name.toList) post fail) :
    Meets (startTagItems (bound + 1) element) before post fail := by
  apply Meets.bind_yields (skipWhitespace_yields separates_tag isSpaces (.of_scanned scanned rfl)
    enough) mode restEq
  rintro _ -
  have restThen : (before.after lead).rest = text := by
    rw [State.rest_after, restEq, List.drop_left]
  have modeThen : (before.after lead).mode = .tag := mode
  have known : (before.after lead).Next (.identifier name) name.toList :=
    ⟨by rw [modeThen, restThen, scanned], restThen ▸ textEq ▸ List.prefix_append _ _⟩
  apply Meets.bind_runs (peekKind_runs known.scanned)
  exact Meets.bind_runs (skip_runs known) behind

/-- A value that needs no escapes is read, and so is the blank before the next name where
there is no value. -/
theorem attributeValue_meets {item : Attribute} (unescaped : item.Unescaped)
    {next : Option String → Parser Element}
    (solid : Refuses .tag TokenKind.isWhitespace text)
    (noEquals : Refuses .tag (· == .punctuation .equals) text) (mode : before.mode = .tag)
    (restEq : before.rest =
      (item.normal.value.map (bareValue ·.toList)).getD [] ++ ' ' :: text)
    (enough : before.rest.length ≤ bound)
    (later : ∀ lead piece, Text.IsSpaces lead → (before.after piece).rest = lead ++ text →
      Meets (next item.normal.value) (before.after piece) post fail) :
    Meets (optionalValue bound >>= next) before post fail := by
  cases valueEq : item.normal.value with
  | none =>
      have restEq : before.rest = [' '] ++ text := by
        rw [restEq, valueEq]
        rfl
      have enoughBlank : [' '].length ≤ bound := by
        rw [restEq, List.length_append] at enough
        omega
      apply Meets.bind_yields (optionalValue_yields_none isSpaces_blank solid noEquals enoughBlank)
        mode restEq
      rintro _ rfl
      rw [← valueEq]
      exact later [] [' '] Text.isSpaces_nil (by rw [State.rest_after, restEq, List.drop_left]; rfl)
  | some value =>
      obtain ⟨noQuote, noBackslash⟩ := unescaped value (Option.mem_filter_iff.1 valueEq).1
      have restEq : before.rest = ('=' :: Lex.quote value) ++ ([' '] ++ text) := by
        rw [restEq, valueEq, Lex.quote, Lex.protect_unescaped noQuote noBackslash]
        rfl
      apply Meets.bind_yields (optionalValue_yields_some value) mode restEq
      rintro _ rfl
      rw [← valueEq]
      exact later [' '] _ isSpaces_blank (by
        rw [State.rest_after, restEq, List.drop_left])

/-- Behind the name of an attribute another value is read than one that needs escapes. -/
theorem attributeValue_differs {name value : String} (others : List Attribute)
    (namedElement : element.ItemsNamed) (named : IsPlainName name)
    (escaped : '"' ∈ value.toList ∨ '\\' ∈ value.toList) (mode : before.mode = .tag)
    (restEq : before.rest = bareValue value.toList ++ tail)
    (enough : before.rest.length < bound) :
    Meets (optionalValue bound >>= fun value => startTagItems bound
        { element with attributes := element.attributes ++ [⟨name, value⟩] }) before
      (fun read _ => read.attributes ≠ element.attributes ++ ⟨name, some value⟩ :: others)
      fun _ => True := by
  apply Meets.bind (optionalValue_differs escaped mode restEq)
  rintro read _ ⟨differs, piece, rfl⟩
  have modeThen : (before.after piece).mode = .tag := mode
  have enoughThen := Nat.lt_of_le_of_lt (before.length_rest_after_le piece) enough
  have takes := startTagItems_takes
    { element with attributes := element.attributes ++ [⟨name, read⟩] } modeThen
    (namedElement.addAttribute named) enoughThen
  refine Meets.mono takes ?_ fun _ _ => trivial
  rintro tag _ ⟨_, -, completes, -⟩ same
  have kept := completes.attributes
  rw [same, List.prefix_append_right_inj, List.cons_prefix_cons] at kept
  exact differs (congrArg Attribute.value kept.1)

/-- Attributes one of which has a value that needs escapes are not read back: up to that
one they are, and then a value is another one. -/
theorem startTagItems_differs {attributes : List Attribute}
    (named : ∀ item ∈ attributes, IsPlainName item.name)
    (escaped : ∃ item ∈ attributes, ¬item.Unescaped)
    (stops : Lex.Stops CharClass.isNamePart tail) (element : Element)
    (namedElement : element.ItemsNamed)
    (isSpaces : Text.IsSpaces lead) (textEq : ' ' :: text = bareAttributes attributes ++ tail)
    (mode : before.mode = .tag) (restEq : before.rest = lead ++ text)
    (enough : before.rest.length < bound) :
    Meets (startTagItems bound element) before
      (fun read _ => read.attributes ≠ element.attributes ++ attributes.map Attribute.normal)
      fun _ => True := by
  induction attributes generalizing before element bound lead text with
  | nil =>
      obtain ⟨_, member, _⟩ := escaped
      cases member
  | cons item others ih =>
      obtain ⟨namedItem, namedOthers⟩ := List.forall_mem_cons.1 named
      have scanned := scanIn_bareAttributes namedItem stops textEq
      have textEq : text = item.name.toList ++
          ((item.normal.value.map (bareValue ·.toList)).getD [] ++
            (bareAttributes others ++ tail)) := by
        simpa [bareAttributes, Attribute.bareSource] using textEq
      have restBehind : ((before.after lead).after item.name.toList).rest =
          (item.normal.value.map (bareValue ·.toList)).getD [] ++
            (bareAttributes others ++ tail) := by
        rw [State.rest_after, State.rest_after, restEq, List.drop_left, textEq, List.drop_left]
      have modeBehind : ((before.after lead).after item.name.toList).mode = .tag := mode
      cases bound with
      | zero => omega
      | succ bound =>
          have shorter : ((before.after lead).after item.name.toList).rest.length < bound := by
            obtain ⟨c, part, nameEq, -⟩ := namedItem.1
            rw [restEq, textEq, ← restBehind, nameEq] at enough
            simp only [List.length_append, List.length_cons] at enough
            rw [nameEq]
            omega
          have enoughLead : lead.length ≤ bound := by
            rw [restEq, List.length_append] at enough
            omega
          apply attributeName_meets isSpaces scanned textEq mode restEq enoughLead
          by_cases unescaped : item.Unescaped
          · have escapedOthers : ∃ other ∈ others, ¬other.Unescaped := by
              simpa [unescaped] using escaped
            obtain ⟨other, more, rfl⟩ : ∃ other more, others = other :: more := by
              obtain ⟨other, member, -⟩ := escapedOthers
              exact List.exists_cons_of_ne_nil (List.ne_nil_of_mem member)
            obtain ⟨later, laterEq⟩ : ∃ later,
                ' ' :: later = bareAttributes (other :: more) ++ tail := ⟨_, rfl⟩
            have scannedLater := scanIn_bareAttributes (List.forall_mem_cons.1 namedOthers).1 stops
              laterEq
            rw [← laterEq] at restBehind
            apply attributeValue_meets unescaped (.of_scanned scannedLater rfl)
              (.of_scanned scannedLater rfl) modeBehind restBehind (Nat.le_of_lt shorter)
            intro blank piece isSpacesThen restThen
            have modeThen : (((before.after lead).after item.name.toList).after piece).mode =
                .tag := mode
            have differs := ih namedOthers escapedOthers
              { element with attributes := element.attributes ++ [item.normal] }
              (namedElement.addAttribute namedItem) isSpacesThen laterEq modeThen restThen
              (Nat.lt_of_le_of_lt (State.length_rest_after_le _ piece) shorter)
            rw [List.append_assoc] at differs
            exact differs
          · obtain ⟨name, value?⟩ := item
            simp only [Attribute.Unescaped, not_forall, not_and_or, not_not] at unescaped
            obtain ⟨value, rfl, unescaped⟩ := unescaped
            have nonempty : value.isEmpty = false := by
              rw [Bool.eq_false_iff, Ne, String.isEmpty_iff]
              rintro rfl
              simp at unescaped
            have valueEq : (⟨name, some value⟩ : Attribute).normal = ⟨name, some value⟩ := by
              simp [Attribute.normal, nonempty]
            rw [valueEq] at restBehind
            rw [List.map_cons, valueEq]
            exact attributeValue_differs _ namedElement namedItem unescaped modeBehind restBehind
              shorter

/-- A start tag is not read back when one of its values needs escapes. -/
theorem startTag_differs {name : String} {attributes : List Attribute} (isName : IsPlainName name)
    (named : ∀ item ∈ attributes, IsPlainName item.name)
    (escaped : ∃ item ∈ attributes, ¬item.Unescaped)
    (stops : Lex.Stops CharClass.isNamePart tail) (mode : before.mode = .tag)
    (restEq : before.rest = name.toList ++ (bareAttributes attributes ++ tail))
    (enough : before.rest.length < bound) :
    Meets (startTag bound) before
      (fun read _ => read.attributes ≠ attributes.map Attribute.normal) fun _ => True := by
  obtain ⟨text, textEq⟩ : ∃ text, ' ' :: text = bareAttributes attributes ++ tail := by
    obtain ⟨item, member, -⟩ := escaped
    obtain ⟨first, others, rfl⟩ := List.exists_cons_of_ne_nil (List.ne_nil_of_mem member)
    exact ⟨_, rfl⟩
  rw [← textEq] at restEq
  let tagName : TagName := ⟨name, isName.1, isName.2⟩
  apply Meets.bind_yields (tagName_yields tagName (by rintro _ ⟨⟩; rfl)) mode restEq
  rintro ⟨found, position⟩ foundEq
  obtain rfl : name = found := foundEq.symm
  have modeThen : (before.after name.toList).mode = .tag := mode
  have restThen : (before.after name.toList).rest = [' '] ++ text := by
    rw [State.rest_after, restEq, List.drop_left]
    rfl
  have enoughThen := Nat.lt_of_le_of_lt (before.length_rest_after_le name.toList) enough
  apply Meets.bind (startTagItems_differs named escaped stops (.named name)
    (.ofName name) isSpaces_blank textEq modeThen restThen enoughThen)
  exact fun read _ differs => Meets.pure differs

end Attributes

end Parser

end TemplateCompiler
