import TemplateCompiler.Proofs.Parse.Kinds
import TemplateCompiler.Proofs.Parse.Leads

/-!
# Paths are read as they are written

A path that is written in an interpolation or as the collection of a loop is read as the
segments that are written there.  It is shown as it was written, and read back from what is
shown.  In the other direction, every path that the parser accepts stands in the source as
segments with points between them and nothing else.
-/

namespace TemplateCompiler

open Parse Written

namespace Parser

section Sources

/-- The parser before a source that has no front matter. -/
def atSource (source : List Char) : State :=
  behindMatter (String.ofList source).toList "" 0

theorem facing_atSource {source piece tail : List Char} (sourceEq : source = piece ++ tail) :
    Facing (atSource source) piece tail :=
  ⟨rfl, by rw [atSource, rest_behindMatter, String.toList_ofList, List.drop_zero, sourceEq]⟩

theorem scanFrontMatter_of_noMatter {source : List Char}
    (noMatter : Lex.opensMatter source = false) :
    Lex.scanFrontMatter true (String.ofList source).toList = .ok (some ⟨.frontMatter "", 0⟩) := by
  rw [String.toList_ofList]
  exact Lex.scanFrontMatter_none noMatter

/-- The template of a source that is one interpolation. -/
theorem parse_shown (shown : Shown) :
    Template.parse (String.ofList shown.source) =
      .ok ⟨⟨"", []⟩, [.leaf 1 (.interpolation (.path shown.dotted.path))
        (Position.start.withLength (Text.byteLength shown.source))], [], 2⟩ := by
  have facing : Facing (atSource shown.source) shown.source [] :=
    facing_atSource (List.append_nil _).symm
  have free := State.addLeaf_lexerFree (.interpolation (.path shown.dotted.path))
    ((atSource shown.source).spanOf shown.source)
  have restEq := (free.rest_eq _).trans facing.rest_after
  exact parse_eq_ok (scanFrontMatter_of_noMatter rfl) (leads_shown shown facing) rfl restEq rfl

/-- The template of a source that is one loop with nothing in it. -/
theorem parse_header (header : Header) :
    ∃ place, Template.parse (String.ofList (header.source ++ ['{'] ++ ['}'])) =
      .ok ⟨⟨"", []⟩, [.node 1 (.loop header.loop)
        (Position.start.withLength (Text.byteLength (header.source ++ ['{'])))
        [.node 2 .block place []]], [], 3⟩ := by
  let start := atSource (header.source ++ ['{'] ++ ['}'])
  have facing : Facing start (header.source ++ ['{']) ['}'] := facing_atSource rfl
  have behind : Facing (start.after (header.source ++ ['{'])) ['}'] [] :=
    Facing.after (facing_atSource (List.append_nil _).symm)
  have behindOpened := behind.change (State.openLoop_lexerFree
    (start.spanOf (header.source ++ ['{'])) header.loop ((start.after header.source).spanOf ['{']))
  have leads := (leads_header header facing).trans (leads_blockEnd behindOpened rfl)
  have restEq := (State.closeBlock_lexerFree.rest_eq _).trans behindOpened.rest_after
  exact ⟨_, parse_eq_ok (scanFrontMatter_of_noMatter rfl) leads rfl restEq rfl⟩

end Sources

/-- An interpolation of a path is read as it is written, wherever the parser comes to its
braces and in a source that is nothing else. -/
structure ReadsShown (shown : Shown) : Prop where
  anywhere : ∀ (before : State) (tail : List Char) (bound : Nat),
    before.Next .interpolationStart ['{', '{'] → before.rest = shown.source ++ tail →
      shown.source.length ≤ bound →
        Runs (interpolation bound) before ()
          ((before.after shown.source).addLeaf (.interpolation (.path shown.dotted.path))
            (before.spanOf shown.source))
  alone : Template.parse (String.ofList shown.source) =
    .ok ⟨⟨"", []⟩, [.leaf 1 (.interpolation (.path shown.dotted.path))
      (Position.start.withLength (Text.byteLength shown.source))], [], 2⟩

/-- The header of a loop is read as it is written, wherever the parser comes to it and in a
source that is a loop with nothing in it. -/
structure ReadsHeader (header : Header) : Prop where
  anywhere : ∀ (before : State) (tail : List Char) (bound : Nat),
    before.Next (.punctuation .at) ['@'] → before.rest = header.source ++ (['{'] ++ tail) →
      header.source.length ≤ bound →
        Runs (statement bound) before ()
          ((before.after (header.source ++ ['{'])).openLoop header.loop
            (before.spanOf (header.source ++ ['{']))
            ((before.after header.source).spanOf ['{']))
  alone : ∃ place, Template.parse (String.ofList (header.source ++ ['{'] ++ ['}'])) =
    .ok ⟨⟨"", []⟩, [.node 1 (.loop header.loop)
      (Position.start.withLength (Text.byteLength (header.source ++ ['{'])))
      [.node 2 .block place []]], [], 3⟩

end Parser

/-- A variable and any segments make a path.  It is read wherever it is written and is what
its text stands for, and the parser accepts no path that is written in another way. -/
theorem Template.paths_as_written :
    (∀ (root : VariableName) (rest : List String), (∀ text ∈ rest, IsSegment text) →
      ∃ dotted : Dotted, dotted.segments = root.text :: rest) ∧
    (∀ dotted : Dotted, dotted.path.segments = dotted.segments ∧
      dotted.path.text = String.ofList dotted.source ∧
      Path.parse? dotted.path.text = some dotted.path) ∧
    (∀ shown : Shown, Parser.ReadsShown shown) ∧ (∀ header : Header, Parser.ReadsHeader header) ∧
    (∀ (bound : Nat) (before : State), before.mode = .expression →
      Parser.Takes (Parser.path bound) before fun path piece =>
        ∃ dotted : Dotted, dotted.path = path ∧ dotted.source = piece) ∧
    ∀ (text : String) (template : Template), Template.parse text = .ok template →
      Node.AllHoldAt (NodeKind.PathStands text.toList) template.children := by
  refine ⟨exists_dotted, fun dotted => ⟨rfl, dotted.text_path, dotted.parse?_text⟩,
    fun shown => ⟨?_, Parser.parse_shown shown⟩, fun header => ⟨?_, Parser.parse_header header⟩,
    fun bound before mode => ?_, fun text template => Parser.pathsStand_of_parse⟩
  · exact fun before tail bound => Parser.interpolation_runs_shown shown
  · exact fun before tail bound => Parser.statement_runs_header header
  · exact (Parser.path_takes bound).mono fun path piece takes => takes mode

/-- A source with paths through lists of lists and to names that begin like exponents. -/
def Template.listsSource : String :=
  "\x7b\x7b rows.0.10.e5.007 \x7d\x7d@for (cell of rows.1.2.3) \x7b\x7d"

theorem Template.paths_as_written_listsSource :
    (∃ dotted : Dotted, dotted.segments = ["rows", "0", "10", "e5", "007"] ∧
      dotted.path.text = "rows.0.10.e5.007" ∧
      Path.parse? dotted.path.text = some dotted.path) ∧
    ∃ template, Template.parse listsSource = .ok template ∧
      Node.AllHoldAt (NodeKind.PathStands listsSource.toList) template.children := by
  obtain ⟨makes, shows, -, -, -, stands⟩ := Template.paths_as_written
  constructor
  · have position : ∀ text : String, text.toList ≠ [] → text.toList.all Char.isDigit = true →
        IsSegment text := fun _ nonempty digits => .inr ⟨nonempty, List.all_eq_true.1 digits⟩
    have isSegments : ∀ text ∈ ["0", "10", "e5", "007"], IsSegment text := by
      simp only [List.forall_mem_cons]
      exact ⟨position _ (by decide) (by decide), position _ (by decide) (by decide),
        .inl ⟨⟨'e', ['5'], rfl, rfl, by decide⟩, by decide⟩,
        position _ (by decide) (by decide), nofun⟩
    obtain ⟨dotted, segmentsEq⟩ := makes
      ⟨"rows", ⟨'r', "ows".toList, rfl, rfl, by decide⟩, by decide⟩ _ isSegments
    obtain ⟨pathEq, -, parsed⟩ := shows dotted
    refine ⟨dotted, segmentsEq, ?_, parsed⟩
    rw [Path.text, pathEq, segmentsEq]
    rfl
  · have accepted : (Template.parse listsSource).isOk = true := by decide +kernel
    obtain ⟨template, parsed⟩ := exists_eq_ok accepted
    exact ⟨template, parsed, stands _ template parsed⟩

end TemplateCompiler
