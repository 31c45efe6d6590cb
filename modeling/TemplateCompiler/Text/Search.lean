/-!
# Searching and dividing a text

Literal patterns at the head of a text and their first occurrence in it, and the pieces of a
text between the occurrences of a separator.
-/

namespace TemplateCompiler

namespace Text

/-- Whether a text begins with a pattern. -/
def startsWith (pattern text : List Char) : Bool :=
  pattern.isPrefixOf text

/-- Whether a text begins with a pattern when the case of ASCII letters is
ignored. -/
def startsWithIgnoreCase : (pattern text : List Char) → Bool
  | [], _ => true
  | _ :: _, [] => false
  | p :: pattern, c :: text =>
      p.toLower == c.toLower && startsWithIgnoreCase pattern text

/-- Whether two texts are equal when the case of ASCII letters is ignored. -/
def equalIgnoreCase : (first second : List Char) → Bool
  | [], [] => true
  | a :: first, b :: second => a.toLower == b.toLower && equalIgnoreCase first second
  | _, _ => false

/-- A text divided at the first occurrence of a pattern: what comes before it,
and the rest, which begins with it. -/
def splitAtFirst? (pattern : List Char) :
    List Char → Option (List Char × List Char)
  | [] => if pattern.isEmpty then some ([], []) else none
  | c :: text =>
      if startsWith pattern (c :: text) then some ([], c :: text)
      else
        (splitAtFirst? pattern text).map fun (before, after) => (c :: before, after)

/-- The pieces of a text between the occurrences of a separator.  There is
always one piece more than there are separators. -/
def pieces (separator : Char) : List Char → List (List Char)
  | [] => [[]]
  | c :: text =>
      if c = separator then [] :: pieces separator text
      else
        match pieces separator text with
        | [] => [[c]]
        | piece :: others => (c :: piece) :: others

theorem append_of_splitAtFirst? {pattern text before after : List Char}
    (split : splitAtFirst? pattern text = some (before, after)) :
    before ++ after = text := by
  induction text generalizing before with
  | nil =>
      rw [splitAtFirst?] at split
      split at split <;> simp_all
  | cons c text ih =>
      rw [splitAtFirst?] at split
      split at split
      · simp_all
      · obtain ⟨⟨first, second⟩, found, pairEq⟩ := Option.map_eq_some_iff.1 split
        simp only [Prod.mk.injEq] at pairEq
        obtain ⟨rfl, rfl⟩ := pairEq
        simp [ih found]

theorem equalIgnoreCase_comm (first second : List Char) :
    equalIgnoreCase first second = equalIgnoreCase second first := by
  fun_induction equalIgnoreCase first second with
  | case1 => rfl
  | case2 a first b second ih => rw [equalIgnoreCase, ih, Bool.beq_comm]
  | case3 first second noneEmpty noneFull =>
      cases first <;> cases second <;> simp_all [equalIgnoreCase]

theorem equalIgnoreCase_iff {first second : List Char} :
    equalIgnoreCase first second = true ↔
      first.map Char.toLower = second.map Char.toLower := by
  induction first generalizing second with
  | nil => cases second <;> simp [equalIgnoreCase]
  | cons a first ih =>
      cases second with
      | nil => simp [equalIgnoreCase]
      | cons b second => simp [equalIgnoreCase, ih]

end Text

end TemplateCompiler
