import TemplateCompiler.Proofs.Parse.WrittenPaths

/-!
# How expressions are read

The productions for the inside of interpolations and of the headers of loops
give back what was written there.
-/

namespace TemplateCompiler

open Written

namespace Parser

theorem isSpaces_blank : Text.IsSpaces [' '] := by
  simp [Text.IsSpaces, CharClass.isMarkupSpace]

end Parser

namespace Written

/-- A lookup as a path, in which there are no positions. -/
def Lookup.dotted (lookup : Lookup) : Dotted :=
  ⟨lookup.root, lookup.rest.map .property⟩

theorem Lookup.source_dotted (lookup : Lookup) : lookup.dotted.source = lookup.source := by
  rw [Dotted.source_eq, dotted, segmentsSource, List.flatMap_map]
  rfl

theorem Lookup.path_dotted (lookup : Lookup) : lookup.dotted.path = lookup.path := by
  rw [Dotted.path, dotted, List.map_map]
  rfl

/-- The header of a loop with one blank where white space is needed or looks well. -/
def LoopHead.header (head : LoopHead) : Header :=
  let nothing : Spaces := ⟨[], Text.isSpaces_nil⟩
  let blank : Spaces := ⟨[' '], Parser.isSpaces_blank⟩
  let gap : Gap := ⟨[' '], List.cons_ne_nil _ _, Parser.isSpaces_blank⟩
  { behindAt := nothing
    behindKeyword := blank
    behindOpening := nothing
    item := head.item
    behindItem := gap
    preposition := head.preposition
    behindPreposition := gap
    collection := head.collection.dotted
    behindCollection := nothing
    behindClosing := blank }

theorem LoopHead.source_header (head : LoopHead) : head.header.source = head.source := by
  simp [header, Header.source, Header.rest, source, behindKeyword, inside,
    Lookup.source_dotted]

theorem LoopHead.loop_header (head : LoopHead) : head.header.loop = head.loop := by
  simp [header, Header.loop, loop, Lookup.path_dotted]

end Written

namespace Parser

variable {tail : List Char} {bound : Nat}

theorem endsPath_blank {text : List Char} (stops : Lex.Stops CharClass.isMarkupSpace text) :
    EndsPath ([' '] ++ text) where
  stops := by
    rintro _ ⟨⟩
    rfl
  noPoint :=
    .of_scanned (separates_expression [' '] text (by simp) isSpaces_blank stops) rfl

theorem scanIn_word_true (ends : Lex.Stops CharClass.isVariablePart tail) :
    Lex.scanIn .expression ("true".toList ++ tail) = .ok (some ⟨.boolean true, 4⟩) :=
  Lex.scanExpression_name ⟨'t', "rue".toList, rfl, rfl, by decide⟩ ends

theorem scanIn_word_false (ends : Lex.Stops CharClass.isVariablePart tail) :
    Lex.scanIn .expression ("false".toList ++ tail) = .ok (some ⟨.boolean false, 5⟩) :=
  Lex.scanExpression_name ⟨'f', "alse".toList, rfl, rfl, by decide⟩ ends

theorem expression_yields (value : Value) (ends : EndsPath tail)
    (enough : value.source.length ≤ bound) :
    Yields (expression bound) .expression value.source tail
      fun result => result = value.expression := by
  cases value with
  | path lookup =>
      rw [Value.source, ← lookup.source_dotted] at enough ⊢
      rw [Value.expression, ← lookup.path_dotted]
      exact expression_yields_path lookup.dotted ends enough
  | string content =>
      have scanned : Lex.scanIn .expression (Lex.quote content ++ tail) = _ :=
        Lex.scanExpression_quote content tail
      exact Yields.peekKind scanned (Yields.skip_pure scanned rfl)
  | boolean truth =>
      cases truth with
      | true =>
          have scanned := scanIn_word_true ends.stops
          exact Yields.peekKind scanned (Yields.skip_pure scanned rfl)
      | false =>
          have scanned := scanIn_word_false ends.stops
          exact Yields.peekKind scanned (Yields.skip_pure scanned rfl)

theorem scanIn_value (value : Value) (ends : EndsPath tail) :
    ∃ lexeme, Lex.scanIn .expression (value.source ++ tail) = .ok (some lexeme) ∧
      lexeme.kind.isWhitespace = false := by
  cases value with
  | path lookup =>
      obtain ⟨length, scanned⟩ := scanIn_dotted lookup.dotted ends
      rw [lookup.source_dotted] at scanned
      exact ⟨_, scanned, rfl⟩
  | string content => exact ⟨_, Lex.scanExpression_quote content tail, rfl⟩
  | boolean truth =>
      cases truth with
      | true => exact ⟨_, scanIn_word_true ends.stops, rfl⟩
      | false => exact ⟨_, scanIn_word_false ends.stops, rfl⟩

end Parser

end TemplateCompiler
