import TemplateCompiler.Proofs.Lex.StringLiterals

/-!
# Template literals

What may stand between the quotes of a template literal is told without a reader, by the
number of braces that are open.  Where none is, a pair of a backslash and another character
stands for one of a table, and the two characters that open a substitution open a brace.
Within a substitution braces open and close, and everything is kept as it is written, be it
a quote or a backslash.

The reader goes on from the longest such body at the head of a text only if no brace is open
behind it: there stands the closing quote, or a backslash that has no place in the table.
-/

namespace TemplateCompiler

namespace Lex

/-- What may stand in a template literal from where some braces are open to where others are,
and what it is the writing of. -/
inductive Unfolds : (depth : Nat) → (body value : List Char) → (last : Nat) → Prop
  | nil (depth : Nat) : Unfolds depth [] [] depth
  | escaped {escape resolved : Char} {body value : List Char} {last : Nat}
      (stands : (escape, resolved) ∈ escapes) (later : Unfolds 0 body value last) :
      Unfolds 0 ('\\' :: escape :: body) (resolved :: value) last
  | substitution {depth last : Nat} {body value : List Char}
      (later : Unfolds (depth + 1) body value last) :
      Unfolds depth ('$' :: '{' :: body) ('$' :: '{' :: value) last
  | opening {depth last : Nat} {body value : List Char}
      (later : Unfolds (depth + 2) body value last) :
      Unfolds (depth + 1) ('{' :: body) ('{' :: value) last
  | closing {depth last : Nat} {body value : List Char}
      (later : Unfolds depth body value last) :
      Unfolds (depth + 1) ('}' :: body) ('}' :: value) last
  | plain {depth last : Nat} {c : Char} {body value : List Char}
      (outside : depth = 0 → c ≠ '\x60' ∧ c ≠ '\\') (inside : depth ≠ 0 → c ≠ '{' ∧ c ≠ '}')
      (single : ¬['$', '{'] <+: c :: body) (later : Unfolds depth body value last) :
      Unfolds depth (c :: body) (c :: value) last

/-- Whether a text begins with the quote of a template literal, a body without an end and a
backslash outside of substitutions that does not stand for anything with the character
behind it. -/
structure BeginsWithWrongUnfolding (body : List Char) (escape : Char) (text : List Char) :
    Prop where
  unfolds : ∃ value, Unfolds 0 body value 0
  begins : '\x60' :: (body ++ ['\\', escape]) <+: text
  unknown : ∀ resolved, (escape, resolved) ∉ escapes

/-- Where the reading of a template literal ends, `depth` braces being open where it starts: at
the first quote behind a body that closes them all, or at the backslash of an unknown escape
behind such a body. -/
def QuotedBody.EndsUnfolded (depth : Nat) (text : List Char) : QuotedBody → Prop
  | .closed value length => ∃ body after, Unfolds depth body value 0 ∧
      text = body ++ '\x60' :: after ∧ length = body.length + 1
  | .badEscape escape before => ∃ body value after, Unfolds depth body value 0 ∧
      text = body ++ '\\' :: escape :: after ∧ resolveEscape? escape = none ∧
      before = body.length
  | .unclosed => True

variable {depth deeper : Nat} {text part : List Char}

theorem QuotedBody.EndsUnfolded.prepend {read : QuotedBody}
    (ends : read.EndsUnfolded deeper text) (piece : List Char)
    (goesOn : ∀ body value, body <+: text → Unfolds deeper body value 0 →
      Unfolds depth (piece ++ body) (part ++ value) 0) :
    (read.prepend part piece.length).EndsUnfolded depth (piece ++ text) := by
  cases read with
  | closed value length =>
      obtain ⟨body, after, unfolds, rfl, rfl⟩ := ends
      refine ⟨piece ++ body, after, goesOn body value (List.prefix_append _ _) unfolds,
        (List.append_assoc _ _ _).symm, ?_⟩
      rw [List.length_append, Nat.add_assoc]
  | badEscape escape before =>
      obtain ⟨body, value, after, unfolds, rfl, noEscape, rfl⟩ := ends
      exact ⟨piece ++ body, part ++ value, after,
        goesOn body value (List.prefix_append _ _) unfolds, (List.append_assoc _ _ _).symm,
        noEscape, List.length_append.symm⟩
  | unclosed => trivial

theorem readTemplate_endsUnfolded (depth : Nat) (text : List Char) :
    (readTemplate depth text).EndsUnfolded depth text := by
  fun_induction readTemplate depth text with
  | case1 => trivial
  | case2 text => exact ⟨[], text, .nil 0, rfl, rfl⟩
  | case3 => trivial
  | case4 escape text resolved resolvedEq ih =>
      exact ih.prepend ['\\', escape] fun body value _ unfolds =>
        .escaped (resolveEscape?_eq_some.1 resolvedEq) unfolds
  | case5 escape text noEscape => exact ⟨[], [], text, .nil 0, rfl, noEscape, rfl⟩
  | case6 depth text ih =>
      exact ih.prepend ['$', '{'] fun body value _ unfolds => .substitution unfolds
  | case7 depth text ih =>
      exact ih.prepend ['{'] fun body value _ unfolds => .opening unfolds
  | case8 depth text ih =>
      exact ih.prepend ['}'] fun body value _ unfolds => .closing unfolds
  | case9 depth c text notQuote notEscape notSubstitution notOpening notClosing ih =>
      refine ih.prepend [c] fun body value begins unfolds => .plain ?_ ?_ ?_ unfolds
      · exact fun outside => ⟨notQuote outside, notEscape outside⟩
      · intro inside
        obtain ⟨outer, depthEq⟩ := Nat.exists_eq_succ_of_ne_zero inside
        exact ⟨notOpening outer depthEq, notClosing outer depthEq⟩
      · intro opens
        obtain ⟨dollar, brace⟩ := List.cons_prefix_cons.1 (opens.trans
          ((List.prefix_append_right_inj [c]).2 begins))
        obtain ⟨tail, textEq⟩ := brace
        exact notSubstitution tail dollar.symm textEq.symm

end Lex

end TemplateCompiler
