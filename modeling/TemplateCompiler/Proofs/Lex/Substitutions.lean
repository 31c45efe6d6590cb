import TemplateCompiler.Proofs.Lex.TemplateLiterals

/-!
# Substitutions and the ends of template literals

The number of open braces can be told from a text alone, and it is what a body of a template
literal is read by.  A body that closes all its braces is made of characters, of escapes and
of whole substitutions; a substitution goes from its opening to the brace that closes it, all
braces between them being paired, and nothing in it is changed.

The reader goes through every such body, so it closes a literal at the first quote behind one,
and refuses an escape only if no quote comes before it.
-/

namespace TemplateCompiler

namespace Lex

variable {depth last : Nat} {c escape : Char}
  {text tail body value inner behind after : List Char}

section Bodies

/-- A text whose braces are paired. -/
inductive BracesPair : (text : List Char) → Prop
  | nil : BracesPair []
  | plain {c : Char} {text : List Char} (noBrace : c ≠ '{' ∧ c ≠ '}') (later : BracesPair text) :
      BracesPair (c :: text)
  | braces {inner text : List Char} (within : BracesPair inner) (later : BracesPair text) :
      BracesPair ('{' :: (inner ++ '}' :: text))

/-- The whole body of a template literal and its value: characters stand for themselves, escapes
for what the table says, and substitutions are kept as they are written. -/
inductive IsTemplate : (body value : List Char) → Prop
  | nil : IsTemplate [] []
  | plain {c : Char} {body value : List Char} (notQuote : c ≠ '\x60') (notEscape : c ≠ '\\')
      (single : ¬['$', '{'] <+: c :: body) (later : IsTemplate body value) :
      IsTemplate (c :: body) (c :: value)
  | escaped {escape resolved : Char} {body value : List Char}
      (stands : (escape, resolved) ∈ escapes) (later : IsTemplate body value) :
      IsTemplate ('\\' :: escape :: body) (resolved :: value)
  | substitution {inner body value : List Char} (within : BracesPair inner)
      (later : IsTemplate body value) :
      IsTemplate ('$' :: '{' :: (inner ++ '}' :: body)) ('$' :: '{' :: (inner ++ '}' :: value))

end Bodies

section Pairing

theorem Unfolds.inside_cons (later : Unfolds (depth + 1) body value last)
    (noBrace : c ≠ '{' ∧ c ≠ '}') : Unfolds (depth + 1) (c :: body) (c :: value) last := by
  by_cases opens : ['$', '{'] <+: c :: body
  · obtain ⟨rfl, behind, rfl⟩ := List.cons_prefix_cons.1 opens
    cases later with
    | opening later => exact .substitution later
    | plain outside inside single later => exact absurd rfl (inside (Nat.succ_ne_zero depth)).1
  · exact .plain (fun isZero => absurd isZero (Nat.succ_ne_zero depth)) (fun _ => noBrace) opens
      later

theorem BracesPair.unfolds (paired : BracesPair inner)
    (later : Unfolds (depth + 1) body value last) :
    Unfolds (depth + 1) (inner ++ body) (inner ++ value) last := by
  induction paired generalizing depth body value with
  | nil => exact later
  | plain noBrace _ ih => exact (ih later).inside_cons noBrace
  | braces _ _ ihWithin ihLater =>
      have closes := ihWithin (.closing (ihLater later))
      simpa using Unfolds.opening closes

theorem IsTemplate.unfolds (isTemplate : IsTemplate body value) : Unfolds 0 body value 0 := by
  induction isTemplate with
  | nil => exact .nil 0
  | plain notQuote notEscape single _ ih =>
      exact .plain (fun _ => ⟨notQuote, notEscape⟩) (fun inside => absurd rfl inside) single ih
  | escaped stands _ ih => exact .escaped stands ih
  | substitution within _ ih => exact .substitution (within.unfolds (.closing ih))

/-- Behind an open brace a body that closes all its braces comes to the one that closes it. -/
theorem Unfolds.closes {depth : Nat} {body value : List Char}
    (unfolds : Unfolds (depth + 1) body value 0) :
    ∃ inner behind kept, BracesPair inner ∧ body = inner ++ '}' :: behind ∧
      value = inner ++ '}' :: kept ∧ Unfolds depth behind kept 0 := by
  cases unfolds with
  | @substitution _ _ body value later =>
      obtain ⟨inner, _, _, within, rfl, rfl, closed⟩ := later.closes
      obtain ⟨more, behind, kept, paired, rfl, rfl, rest⟩ := closed.closes
      refine ⟨'$' :: '{' :: (inner ++ '}' :: more), behind, kept, ?_, by simp, by simp, rest⟩
      exact .plain (by decide) (.braces within paired)
  | opening later =>
      obtain ⟨inner, _, _, within, rfl, rfl, closed⟩ := later.closes
      obtain ⟨more, behind, kept, paired, rfl, rfl, rest⟩ := closed.closes
      exact ⟨'{' :: (inner ++ '}' :: more), behind, kept, .braces within paired, by simp, by simp,
        rest⟩
  | closing later => exact ⟨[], _, _, .nil, rfl, rfl, later⟩
  | @plain _ _ c _ _ outside inside single later =>
      obtain ⟨inner, behind, kept, paired, rfl, rfl, rest⟩ := later.closes
      exact ⟨c :: inner, behind, kept, .plain (inside (Nat.succ_ne_zero depth)) paired, rfl, rfl,
        rest⟩
termination_by body.length

theorem Unfolds.isTemplate {body value : List Char} (unfolds : Unfolds 0 body value 0) :
    IsTemplate body value := by
  cases unfolds with
  | nil => exact .nil
  | escaped stands later => exact .escaped stands later.isTemplate
  | substitution later =>
      obtain ⟨inner, behind, kept, within, rfl, rfl, closed⟩ := later.closes
      exact .substitution within closed.isTemplate
  | plain outside inside single later =>
      exact .plain (outside rfl).1 (outside rfl).2 single later.isTemplate
termination_by body.length

end Pairing

section Reading

theorem readTemplate_plain (outside : depth = 0 → c ≠ '\x60' ∧ c ≠ '\\')
    (inside : depth ≠ 0 → c ≠ '{' ∧ c ≠ '}') (single : ¬['$', '{'] <+: c :: text) :
    readTemplate depth (c :: text) = (readTemplate depth text).prepend [c] 1 := by
  rw [readTemplate]
  · rintro others rfl rfl
    exact single (List.prefix_append ['$', '{'] others)
  · exact fun isZero isQuote => (outside isZero).1 isQuote
  · exact fun isZero isEscape => (outside isZero).2 isEscape
  · rintro outer rfl isOpening
    exact (inside (Nat.succ_ne_zero outer)).1 isOpening
  · rintro outer rfl isClosing
    exact (inside (Nat.succ_ne_zero outer)).2 isClosing

theorem QuotedBody.prepend_length (read : QuotedBody) (part value piece body : List Char) :
    (read.prepend value body.length).prepend part piece.length =
      read.prepend (part ++ value) (piece ++ body).length := by
  rw [prepend_prepend, List.length_append]

/-- The reader goes through a body and on with what stands behind it, unless the two meet in the
opening of a substitution. -/
theorem Unfolds.readTemplate_append (unfolds : Unfolds depth body value last)
    (noBrace : tail.head? ≠ some '{') :
    readTemplate depth (body ++ tail) =
      (readTemplate last tail).prepend value body.length := by
  induction unfolds with
  | nil depth => exact (QuotedBody.prepend_nil _).symm
  | @escaped escape resolved body value last stands later ih =>
      rw [List.cons_append, List.cons_append, readTemplate, resolveEscape?_eq_some.2 stands]
      simp only [ih]
      exact QuotedBody.prepend_length _ [resolved] value ['\\', escape] body
  | @substitution depth last body value later ih =>
      rw [List.cons_append, List.cons_append, readTemplate, ih]
      exact QuotedBody.prepend_length _ ['$', '{'] value ['$', '{'] body
  | @opening depth last body value later ih =>
      rw [List.cons_append, readTemplate, ih]
      exact QuotedBody.prepend_length _ ['{'] value ['{'] body
  | @closing depth last body value later ih =>
      rw [List.cons_append, readTemplate, ih]
      exact QuotedBody.prepend_length _ ['}'] value ['}'] body
  | @plain depth last c body value outside inside single later ih =>
      have singleThen : ¬['$', '{'] <+: c :: (body ++ tail) := by
        intro opens
        obtain ⟨isDollar, brace⟩ := List.cons_prefix_cons.1 opens
        cases body with
        | nil =>
            obtain ⟨behind, rfl⟩ := brace
            exact noBrace rfl
        | cons d body =>
            obtain ⟨rfl, -⟩ := List.cons_prefix_cons.1 brace
            exact single (List.cons_prefix_cons.2 ⟨isDollar, List.prefix_append ['{'] body⟩)
      rw [List.cons_append, readTemplate_plain outside inside singleThen, ih]
      exact QuotedBody.prepend_length _ [c] value [c] body

end Reading

end Lex

namespace Lexer

open TemplateCompiler.Lex

variable {cursor : Cursor} {text : List Char}

end Lexer

end TemplateCompiler
