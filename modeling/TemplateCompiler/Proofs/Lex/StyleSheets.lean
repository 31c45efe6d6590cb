import TemplateCompiler.Proofs.Lex.Continuation
import TemplateCompiler.Proofs.Lex.LineBreaks
import TemplateCompiler.Proofs.Lex.ScriptCode
import TemplateCompiler.Proofs.Lex.StringLiterals
import TemplateCompiler.Proofs.Source.Moves

/-!
# Where a style sheet ends

A style sheet is read token by token for the sake of its end tag.  Here the end is told from
the characters alone: a text is divided into plain characters, strings that are closed and
comments that are closed, and the sheet ends at the first place between them where the end
tag stands.

A token passes from one such place to another, and there is no end on its way: numbers, names,
colors and white space have neither brackets nor quotes nor slashes in them, and a string and
a comment are taken whole.
-/

namespace TemplateCompiler

namespace Lex

/-- Whether a text begins with the end tag of a style, in any ASCII case. -/
def BeginsWithStyleEnd (text : List Char) : Prop :=
  ∃ closing, closing <+: text ∧ closing.map Char.toLower = "</style>".toList

/-- Reading a style sheet up to a place outside of its strings and comments. -/
inductive InSheet : (text read rest : List Char) → Prop
  | here (text : List Char) : InSheet text [] text
  | plain {c : Char} {text read rest : List Char} (notQuote : c ∉ quotes)
      (notComment : ¬['/', '*'] <+: c :: text) (later : InSheet text read rest) :
      InSheet (c :: text) (c :: read) rest
  | string {quote : Char} {body text read rest : List Char} (isQuote : quote ∈ quotes)
      (shielded : Shielded quote body) (later : InSheet text read rest) :
      InSheet (literal quote body ++ text) (literal quote body ++ read) rest
  | comment {body text read rest : List Char} (within : ¬['*', '/'] <:+: body)
      (later : InSheet text read rest) :
      InSheet (['/', '*'] ++ (body ++ (['*', '/'] ++ text)))
        (['/', '*'] ++ (body ++ (['*', '/'] ++ read))) rest

/-- Whether an end tag stands outside of the strings and comments of a style sheet. -/
def HasStyleEnd (text : List Char) : Prop :=
  ∃ read rest, InSheet text read rest ∧ BeginsWithStyleEnd rest

/-- Whether a part of a text is the style sheet at its head: it goes up to the first end tag
outside of strings and comments. -/
structure IsSheetOf (text read rest : List Char) : Prop where
  inSheet : InSheet text read rest
  ends : BeginsWithStyleEnd rest
  first : ∀ earlier behind, InSheet text earlier behind → BeginsWithStyleEnd behind →
    read.length ≤ earlier.length

variable {c quote : Char} {text body read piece rest : List Char}

theorem equalIgnoreCase_styleEnd_iff {closing : List Char} :
    Text.equalIgnoreCase "</style>".toList closing = true ↔
      closing.map Char.toLower = "</style>".toList := by
  have lower : "</style>".toList.map Char.toLower = "</style>".toList := by decide
  rw [Text.equalIgnoreCase_iff, lower, eq_comm]

theorem beginsWithStyleEnd_iff :
    BeginsWithStyleEnd text ↔ Text.startsWithIgnoreCase "</style>".toList text = true := by
  constructor
  · rintro ⟨closing, ⟨tail, rfl⟩, closes⟩
    exact Text.startsWithIgnoreCase_of_equal (equalIgnoreCase_styleEnd_iff.2 closes)
  · intro starts
    obtain ⟨-, equal⟩ := equalIgnoreCase_take starts
    exact ⟨_, List.take_prefix _ _, equalIgnoreCase_styleEnd_iff.1 equal⟩

theorem BeginsWithStyleEnd.head?_eq (ends : BeginsWithStyleEnd text) : text.head? = some '<' := by
  have starts := beginsWithStyleEnd_iff.1 ends
  cases text with
  | nil => contradiction
  | cons c text =>
      have same : (('<' : Char).toLower == c.toLower) = true := (Bool.and_eq_true_iff.1 starts).1
      rw [eq_less_of_toLower (beq_iff_eq.1 same).symm, List.head?_cons]

section Uniqueness

/-- The body of a string is as long as it can be, so there is just one. -/
theorem string_unique {other otherText : List Char} (isQuote : quote ∈ quotes)
    (shielded : Shielded quote body) (otherShielded : Shielded quote other)
    (textEq : body ++ quote :: text = other ++ quote :: otherText) :
    body = other ∧ text = otherText := by
  have notBackslash := ne_backslash_of_mem_quotes isQuote
  have read := shielded.readProtected_closed notBackslash text
  rw [textEq, otherShielded.readProtected_closed notBackslash, QuotedBody.closed.injEq] at read
  obtain ⟨rfl, -⟩ := read
  exact ⟨rfl, (List.cons.inj (List.append_cancel_left textEq)).2⟩

theorem splitAtFirst?_styleComment (within : ¬['*', '/'] <:+: body) (text : List Char) :
    Text.splitAtFirst? ['*', '/'] (body ++ (['*', '/'] ++ text)) =
      some (body, ['*', '/'] ++ text) := by
  induction body with
  | nil => rfl
  | cons c body ih =>
      have notHere : ¬['*', '/'] <+: c :: (body ++ (['*', '/'] ++ text)) :=
        ScriptComment.block.not_closing_prefix within (by simp)
      have notStarts : Text.startsWith ['*', '/'] (c :: (body ++ (['*', '/'] ++ text))) = false :=
        Bool.eq_false_iff.2 fun starts => notHere (List.isPrefixOf_iff_prefix.1 starts)
      rw [List.cons_append, Text.splitAtFirst?, notStarts,
        ih fun inside => within (List.infix_cons inside)]
      rfl

theorem styleComment_unique {other otherText : List Char} (within : ¬['*', '/'] <:+: body)
    (otherWithin : ¬['*', '/'] <:+: other)
    (textEq : body ++ (['*', '/'] ++ text) = other ++ (['*', '/'] ++ otherText)) :
    body = other ∧ text = otherText := by
  have split := splitAtFirst?_styleComment within text
  rw [textEq, splitAtFirst?_styleComment otherWithin] at split
  obtain ⟨rfl, behindEq⟩ := Prod.mk.inj (Option.some.inj split)
  exact ⟨rfl, (List.append_cancel_left behindEq).symm⟩

end Uniqueness

namespace InSheet

theorem text_eq (inSheet : InSheet text read rest) : text = read ++ rest := by
  induction inSheet with
  | here => rfl
  | plain _ _ _ ih => rw [ih, List.cons_append]
  | string _ _ _ ih | comment _ _ ih => rw [ih]; simp only [List.append_assoc]

theorem trans {middle more : List Char} (first : InSheet text read middle)
    (second : InSheet middle more rest) : InSheet text (read ++ more) rest := by
  induction first with
  | here => exact second
  | plain notQuote notComment _ ih => exact .plain notQuote notComment (ih second)
  | string isQuote shielded _ ih =>
      rw [List.append_assoc]
      exact .string isQuote shielded (ih second)
  | comment within _ ih => simpa using InSheet.comment within (ih second)

end InSheet

/-- There is just one style sheet at the head of a text. -/
theorem IsSheetOf.unique {other otherRest : List Char} (isSheet : IsSheetOf text read rest)
    (otherSheet : IsSheetOf text other otherRest) : read = other ∧ rest = otherRest := by
  have lengthEq := Nat.le_antisymm
    (isSheet.first other otherRest otherSheet.inSheet otherSheet.ends)
    (otherSheet.first read rest isSheet.inSheet isSheet.ends)
  exact List.append_inj (isSheet.inSheet.text_eq.symm.trans otherSheet.inSheet.text_eq) lengthEq

/-- A part of a text leads from one place outside of strings and comments to another, and
there is no end tag at the places before that. -/
structure PassesSheet (text piece rest : List Char) : Prop where
  inSheet : InSheet text piece rest
  through : ∀ earlier behind, InSheet text earlier behind → BeginsWithStyleEnd behind →
    ∃ more, earlier = piece ++ more ∧ InSheet rest more behind

namespace PassesSheet

theorem refl (text : List Char) : PassesSheet text [] text :=
  ⟨.here text, fun earlier _ inSheet _ => ⟨earlier, rfl, inSheet⟩⟩

theorem trans {middle more : List Char} (first : PassesSheet text piece middle)
    (second : PassesSheet middle more rest) : PassesSheet text (piece ++ more) rest where
  inSheet := first.inSheet.trans second.inSheet
  through earlier behind inSheet ends := by
    obtain ⟨later, rfl, inSheetThen⟩ := first.through earlier behind inSheet ends
    obtain ⟨last, rfl, inSheetLast⟩ := second.through later behind inSheetThen ends
    exact ⟨last, (List.append_assoc ..).symm, inSheetLast⟩

theorem single (notQuote : c ∉ quotes) (notComment : ¬['/', '*'] <+: c :: text)
    (notEnd : ¬BeginsWithStyleEnd (c :: text)) : PassesSheet (c :: text) [c] text where
  inSheet := .plain notQuote notComment (.here text)
  through earlier behind inSheet ends := by
    generalize textEq : c :: text = whole at inSheet
    cases inSheet with
    | here => exact absurd (textEq ▸ ends) notEnd
    | plain _ _ later =>
        obtain ⟨rfl, rfl⟩ := List.cons.inj textEq
        exact ⟨_, rfl, later⟩
    | string isQuote _ _ => exact absurd ((List.cons.inj textEq).1 ▸ isQuote) notQuote
    | comment _ _ => exact absurd ⟨_, textEq.symm⟩ notComment

/-- Characters that are neither brackets nor quotes nor slashes. -/
theorem run (inert : ∀ c ∈ piece, c ∉ '<' :: '/' :: quotes) :
    PassesSheet (piece ++ rest) piece rest := by
  induction piece with
  | nil => exact refl rest
  | cons c piece ih =>
      obtain ⟨inertHead, inertThen⟩ := List.forall_mem_cons.1 inert
      simp only [List.mem_cons, not_or] at inertHead
      obtain ⟨notLess, notSlash, notQuote⟩ := inertHead
      refine (single notQuote ?_ ?_).trans (ih inertThen)
      · rintro ⟨tail, textEq⟩
        exact notSlash (List.cons.inj textEq).1.symm
      · exact fun ends => notLess (Option.some.inj ends.head?_eq)

theorem string (isQuote : quote ∈ quotes) (shielded : Shielded quote body) :
    PassesSheet (literal quote body ++ text) (literal quote body) text where
  inSheet := by simpa using InSheet.string isQuote shielded (.here text)
  through earlier behind inSheet ends := by
    generalize textEq : literal quote body ++ text = whole at inSheet
    cases inSheet with
    | here =>
        subst textEq
        have head : some quote = some '<' := ends.head?_eq
        obtain rfl := Option.some.inj head
        exact absurd isQuote (by decide)
    | plain notQuote _ _ => exact absurd ((List.cons.inj textEq).1 ▸ isQuote) notQuote
    | string _ otherShielded later =>
        simp only [literal, List.cons_append, List.append_assoc, List.nil_append,
          List.cons.injEq] at textEq
        obtain ⟨rfl, bodyEq⟩ := textEq
        obtain ⟨rfl, rfl⟩ := string_unique isQuote shielded otherShielded bodyEq
        exact ⟨_, rfl, later⟩
    | comment _ _ =>
        obtain rfl : quote = '/' := (List.cons.inj textEq).1
        exact absurd isQuote (by decide)

theorem comment (within : ¬['*', '/'] <:+: body) :
    PassesSheet (['/', '*'] ++ (body ++ (['*', '/'] ++ text)))
      (['/', '*'] ++ (body ++ ['*', '/'])) text where
  inSheet := by simpa using InSheet.comment within (.here text)
  through earlier behind inSheet ends := by
    generalize textEq : ['/', '*'] ++ (body ++ (['*', '/'] ++ text)) = whole at inSheet
    cases inSheet with
    | here =>
        subst textEq
        cases ends.head?_eq
    | plain _ notComment _ => exact absurd ⟨_, textEq⟩ notComment
    | string isQuote _ _ =>
        obtain rfl := (List.cons.inj textEq).1
        exact absurd isQuote (by decide)
    | comment otherWithin later =>
        obtain ⟨rfl, rfl⟩ :=
          styleComment_unique within otherWithin (List.append_cancel_left textEq)
        exact ⟨_, by simp, later⟩

theorem text_eq (passes : PassesSheet text piece rest) : text = piece ++ rest :=
  passes.inSheet.text_eq

theorem isSheetOf (passes : PassesSheet text piece rest) (ends : BeginsWithStyleEnd rest) :
    IsSheetOf text piece rest where
  inSheet := passes.inSheet
  ends := ends
  first earlier behind inSheet endsThen := by
    obtain ⟨more, rfl, -⟩ := passes.through earlier behind inSheet endsThen
    exact (List.prefix_append _ _).length_le

/-- Where all of a text is passed over, there is no end tag in it. -/
theorem not_hasStyleEnd (passes : PassesSheet text piece []) : ¬HasStyleEnd text := by
  rintro ⟨earlier, behind, inSheet, ends⟩
  obtain ⟨more, -, inSheetThen⟩ := passes.through earlier behind inSheet ends
  obtain ⟨-, rfl⟩ := List.append_eq_nil_iff.1 inSheetThen.text_eq.symm
  cases ends.head?_eq

end PassesSheet

section Tokens

/-- Characters of a class that has neither brackets nor quotes nor slashes. -/
theorem PassesSheet.run_of_class {member : Char → Bool}
    (apart : ('<' :: '/' :: quotes).all fun c => !member c)
    (inside : ∀ c ∈ piece, member c = true) : PassesSheet (piece ++ rest) piece rest :=
  .run fun c mem => not_mem_of_class apart (inside c mem)

theorem PassesSheet.of_takeWhile {member : Char → Bool}
    (apart : ('<' :: '/' :: quotes).all fun c => !member c) (text : List Char) :
    PassesSheet text (text.takeWhile member) (text.dropWhile member) := by
  have passes : PassesSheet (text.takeWhile member ++ text.dropWhile member) _ _ :=
    .run_of_class apart fun _ => List.mem_takeWhile_imp
  rwa [List.takeWhile_append_dropWhile] at passes

/-- A lexeme passes over the characters that it takes. -/
def Lexeme.Passes (text : List Char) (lexeme : Lexeme) : Prop :=
  ∃ piece rest, lexeme.length = piece.length ∧ PassesSheet text piece rest

variable {lexeme : Lexeme}

theorem passes_of_found {kind : TokenKind} {length : Nat}
    (found : Scan.found kind length = .ok (some lexeme)) (lengthEq : length = piece.length)
    (passes : PassesSheet text piece rest) : lexeme.Passes text := by
  simp only [Scan.found, Except.ok.injEq, Option.some.injEq] at found
  exact ⟨piece, rest, by rw [← found, lengthEq], passes⟩

theorem passes_number {value : Float} {length : Nat}
    (read : readNumber? text = some (value, length)) :
    ∃ spelling rest, length = spelling.length ∧ PassesSheet text spelling rest := by
  simp only [readNumber?, Option.bind_eq_bind, Option.bind_eq_some_iff, Option.pure_def,
    Option.some.injEq, Prod.mk.injEq] at read
  obtain ⟨spelling, spellingEq, _, -, -, rfl⟩ := read
  obtain ⟨-, tail, rfl⟩ := numberSpelling?_prefix spellingEq
  have apart : ('<' :: '/' :: quotes).all fun c => !isNumeric c := by decide
  exact ⟨spelling, tail, rfl, .run_of_class apart fun _ => isNumeric_numberSpelling? spellingEq⟩

theorem passes_unit {unit : String} (isUnit : unit? text = some unit) :
    ∃ rest, PassesSheet text unit.toList rest := by
  have plain : ('<' :: '/' :: quotes).all fun c =>
      units.all fun unit => !unit.toList.contains c := by decide
  have member := List.mem_of_find?_eq_some isUnit
  have begins := List.find?_some isUnit
  obtain ⟨tail, rfl⟩ := startsWith_iff.1 (Bool.and_eq_true_iff.1 begins).1
  refine ⟨tail, .run fun c inside special => ?_⟩
  have absent := List.all_eq_true.1 (List.all_eq_true.1 plain c special) unit member
  simp [inside] at absent

theorem passes_scanDimension {value : Float} {length : Nat}
    (read : readNumber? text = some (value, length))
    (found : scanDimension value length (text.drop length) = .ok (some lexeme)) :
    lexeme.Passes text := by
  obtain ⟨spelling, rest, rfl, passes⟩ := passes_number read
  rw [passes.text_eq, List.drop_left] at found
  unfold scanDimension at found
  split at found
  · next unit isUnit =>
      obtain ⟨tail, passesUnit⟩ := passes_unit isUnit
      refine passes_of_found found ?_ (passes.trans passesUnit)
      rw [List.length_append, String.length_toList]
  · exact passes_of_found found rfl passes

theorem passes_name {word : List Char}
    (isName : name? CharClass.isStyleNameStart CharClass.isStyleNamePart text = some word) :
    ∃ rest, PassesSheet text word rest := by
  cases text with
  | nil => contradiction
  | cons c text =>
      simp only [name?, Option.ite_none_right_eq_some, Option.some.injEq] at isName
      obtain ⟨start, rfl⟩ := isName
      have first : PassesSheet ([c] ++ text) [c] text :=
        .run_of_class (by decide : ('<' :: '/' :: quotes).all (!CharClass.isStyleNameStart ·))
          (by simpa using start)
      exact ⟨_, first.trans (.of_takeWhile (by decide) text)⟩

theorem passes_scanStyleWord (notQuote : c ∉ quotes) (notComment : ¬['/', '*'] <+: c :: text)
    (notEnd : ¬BeginsWithStyleEnd (c :: text))
    (found : scanStyleWord c text = .ok (some lexeme)) : lexeme.Passes (c :: text) := by
  unfold scanStyleWord at found
  split at found
  · next value length read => exact passes_scanDimension read found
  · split at found
    · next word isName =>
        obtain ⟨rest, passes⟩ := passes_name isName
        exact passes_of_found found rfl passes
    · split at found
      · next mark isMark =>
          have lengthEq : mark.spelling.length = [c].length := by
            rw [← ofChar?_spelling isMark, String.length_toList]
          exact passes_of_found found lengthEq (.single notQuote notComment notEnd)
      · contradiction

theorem passes_color {digits : List Char} (isColor : colorDigits? text = some digits) :
    ∃ rest, PassesSheet ('#' :: text) ('#' :: digits) rest := by
  simp only [colorDigits?, Option.ite_none_right_eq_some, Option.some.injEq] at isColor
  obtain ⟨-, rfl⟩ := isColor
  have hash : PassesSheet (['#'] ++ text) ['#'] text :=
    .run (List.forall_mem_singleton.2 (by decide))
  exact ⟨_, hash.trans (.of_takeWhile (by decide) text)⟩

theorem not_infix_of_splitAtFirst? {pattern before after : List Char} (nonempty : pattern ≠ [])
    (split : Text.splitAtFirst? pattern text = some (before, after)) : ¬pattern <:+: before := by
  rintro ⟨first, last, rfl⟩
  have earlier : first.length < (first ++ pattern ++ last).length := by
    have := List.length_pos_iff.2 nonempty
    simp only [List.length_append]
    omega
  apply Text.first_of_splitAtFirst? split first.length earlier
  rw [← Text.append_of_splitAtFirst? split, List.append_assoc, List.append_assoc, List.drop_left]
  exact ⟨last ++ after, rfl⟩

theorem passes_scanStyleComment (found : scanStyleComment text = .ok (some lexeme)) :
    lexeme.Passes ('/' :: '*' :: text) := by
  unfold scanStyleComment at found
  split at found
  · next body after split =>
      obtain ⟨tail, rfl⟩ := splitAtFirst?_append split
      have within : ¬['*', '/'] <:+: body := not_infix_of_splitAtFirst? (by decide) split
      refine passes_of_found found ?_ (.comment within)
      simp only [List.length_append, List.length_cons, List.length_nil]
      omega
  · contradiction

theorem passes_scanProtectedString? {scan : Scan} (tried : scanProtectedString? text = some scan)
    (found : scan = .ok (some lexeme)) : lexeme.Passes text := by
  cases text with
  | nil => contradiction
  | cons quote text =>
      simp only [scanProtectedString?, Option.ite_none_right_eq_some, Option.some.injEq] at tried
      obtain ⟨isQuote, rfl⟩ := tried
      rw [isQuote_iff] at isQuote
      obtain ⟨body, after, shielded, rfl⟩ | unclosed := readProtected_division quote text
      · have closed := shielded.readProtected_closed (ne_backslash_of_mem_quotes isQuote) after
        rw [closed, QuotedBody.scan] at found
        have passes : PassesSheet (literal quote body ++ after) (literal quote body) after :=
          .string isQuote shielded
        rw [literal, List.cons_append, List.append_assoc] at passes
        exact passes_of_found found (by simp) passes
      · rw [unclosed] at found
        contradiction

/-- A token of a style sheet passes over what it takes, unless it is the end tag. -/
theorem passes_scanStyle (found : scanStyle text = .ok (some lexeme))
    (notEnd : lexeme.kind ≠ .styleEnd) : lexeme.Passes text := by
  cases text with
  | nil => simp [scanStyle] at found
  | cons c text =>
      rw [scanStyle] at found
      by_cases space : CharClass.isMarkupSpace c = true
      · rw [if_pos space] at found
        exact passes_of_found found rfl (.of_takeWhile (by decide) _)
      rw [if_neg space] at found
      by_cases ends : Text.startsWithIgnoreCase "</style>".toList (c :: text) = true
      · rw [if_pos ends, Scan.found, Except.ok.injEq, Option.some.injEq] at found
        exact absurd (congrArg Lexeme.kind found.symm) notEnd
      rw [if_neg ends] at found
      by_cases opens : Text.startsWith ['/', '*'] (c :: text) = true
      · rw [if_pos opens] at found
        obtain ⟨tail, textEq⟩ := startsWith_iff.1 opens
        obtain ⟨rfl, rfl⟩ := List.cons.inj textEq
        exact passes_scanStyleComment found
      rw [if_neg opens] at found
      cases tried : scanProtectedString? (c :: text) with
      | some scan =>
          simp only [tried] at found
          exact passes_scanProtectedString? tried found
      | none =>
          simp only [tried] at found
          have notQuote : c ∉ quotes := fun isQuote => by
            simp [scanProtectedString?_of_isQuote isQuote] at tried
          have word : scanStyleWord c text = .ok (some lexeme) → lexeme.Passes (c :: text) :=
            passes_scanStyleWord notQuote (opens ∘ List.isPrefixOf_iff_prefix.2)
              (ends ∘ beginsWithStyleEnd_iff.1)
          by_cases isHash : c = '#'
          · subst isHash
            cases isColor : colorDigits? text with
            | some digits =>
                simp only [isColor, if_true] at found
                obtain ⟨rest, passes⟩ := passes_color isColor
                exact passes_of_found found rfl passes
            | none =>
                simp only [isColor, if_true] at found
                exact word found
          · rw [if_neg isHash] at found
            exact word found

end Tokens

end Lex

end TemplateCompiler
