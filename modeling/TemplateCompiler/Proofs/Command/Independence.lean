import TemplateCompiler.Command.FileTree
import TemplateCompiler.Command.Run
import TemplateCompiler.Proofs.Actions
import TemplateCompiler.Proofs.Diagnostic.Colors
import Mathlib.Data.List.Basic
import Mathlib.Tactic.Common

/-!
# Templates of one run

The render command reads all of its templates, then prints what could be rendered, then
reports what could not.  Nothing passes from one template to another on the way: what a run
prints, reports and counts is put together, in the order of the arguments, from a share of
each template, which depends on the name and the text of that template and on the data
alone.  So a file that is overwritten changes the shares of the arguments that lead to it
and no others.
-/

namespace TemplateCompiler

namespace Command

section Trees

variable {tree : FileTree} {place : TreePlace} {text : String}

/-- What a path leads to when the file at a place has a new text. -/
def Target.overwrite (place : TreePlace) (text : String) : Target → Target
  | .file found content => .file found (if found = place then some text else content)
  | other => other

namespace FileTree

/-- Whether a path leads to the file at a place. -/
def leadsTo (tree : FileTree) (path : String) (place : TreePlace) : Bool :=
  match tree.target path with
  | .ok (.file found _) => found == place
  | _ => false

/-- The template at a path that can be read. -/
def source (tree : FileTree) (path : String) : Source :=
  ⟨path, (tree.read path).toOption.getD ""⟩

/-- The data at a path that can be read and holds valid data, or an empty object without a
path. -/
def data? (tree : FileTree) : Option String → Option Json
  | none => some (.object [])
  | some path => (tree.read path).toOption.bind fun text => (Json.read Json.dataDepth text).toOption

/-- The tree with a new text in the file at a place. -/
def overwrite (tree : FileTree) (place : TreePlace) (text : String) : FileTree :=
  { tree with
    files := tree.files.map fun file => if file.1 = place then (place, some text) else file }

theorem lookup_overwrite (tree : FileTree) (place other : TreePlace) (text : String) :
    (tree.overwrite place text).files.lookup other =
      (tree.files.lookup other).map fun content =>
        if other = place then some text else content := by
  obtain ⟨files, directories⟩ := tree
  change (files.map _).lookup other = _
  induction files with
  | nil => rfl
  | cons file files ih =>
      obtain ⟨name, content⟩ := file
      rw [List.map_cons, List.lookup_cons]
      by_cases same : other = name
      · subst same
        by_cases isPlace : other = place <;> simp [isPlace]
      · have headName :
            (if name = place then (place, some text) else (name, content)).1 = name := by
          split <;> simp_all
        rw [List.lookup_cons, headName, beq_false_of_ne same]
        exact ih

theorem follow_overwrite (tree : FileTree) (place : TreePlace) (text : String)
    (start : TreePlace) (names : List (List Char)) :
    (tree.overwrite place text).follow start names =
      (tree.follow start names).map (Target.overwrite place text) := by
  have sameDirectories (other : TreePlace) :
      (tree.overwrite place text).hasDirectory other = tree.hasDirectory other := rfl
  induction names generalizing start with
  | nil => rfl
  | cons name names ih =>
      simp only [follow, lookup_overwrite, sameDirectories]
      split
      · exact ih _
      · split
        · exact ih _
        · split
          · rfl
          · cases tree.files.lookup (start ++ [name]) with
            | some content =>
                simp only [Option.map_some]
                split <;> rfl
            | none =>
                simp only [Option.map_none]
                split
                · exact ih _
                · split <;> rfl

theorem target_overwrite (tree : FileTree) (place : TreePlace) (text path : String) :
    (tree.overwrite place text).target path =
      (tree.target path).map (Target.overwrite place text) := by
  unfold target
  split
  · exact follow_overwrite _ _ _ _ _
  · rfl

/-- A file that is overwritten reads as its new text, and every other one as before. -/
theorem read_overwrite (tree : FileTree) (place : TreePlace) (text path : String) :
    (tree.overwrite place text).read path =
      if tree.leadsTo path place then .ok text else tree.read path := by
  rw [read, target_overwrite, leadsTo, read]
  cases tree.target path with
  | error error => rfl
  | ok target =>
      cases target with
      | directory found => rfl
      | missing found => rfl
      | file found content =>
          by_cases same : found = place <;> cases content <;>
            simp [Except.map, Target.overwrite, same]

theorem isOk_read_overwrite {path : String} (readable : (tree.read path).isOk = true)
    (place : TreePlace) (text : String) :
    ((tree.overwrite place text).read path).isOk = true := by
  rw [read_overwrite]
  split
  · rfl
  · exact readable

theorem source_overwrite (tree : FileTree) (place : TreePlace) (text path : String) :
    (tree.overwrite place text).source path =
      if tree.leadsTo path place then ⟨path, text⟩ else tree.source path := by
  rw [source, read_overwrite]
  split <;> rfl

theorem data?_overwrite {path? : Option String}
    (apart : ∀ path ∈ path?, tree.leadsTo path place = false) (text : String) :
    (tree.overwrite place text).data? path? = tree.data? path? := by
  cases path? with
  | none => rfl
  | some path =>
      rw [data?, read_overwrite, apart path rfl]
      rfl

theorem exists_target_of_leadsTo {path : String} (leads : tree.leadsTo path place = true) :
    ∃ content, tree.target path = .ok (.file place content) := by
  unfold leadsTo at leads
  split at leads
  · next found content targetEq => exact ⟨content, eq_of_beq leads ▸ targetEq⟩
  · contradiction

/-- Writing to a path that leads to a file overwrites the file. -/
theorem write_of_leadsTo {path : String} (leads : tree.leadsTo path place = true) :
    tree.write path text = .ok (tree.overwrite place text) := by
  obtain ⟨content, targetEq⟩ := exists_target_of_leadsTo leads
  rw [write, targetEq]
  rfl

end FileTree

end Trees

section Passing

namespace Program

/-- Whether a program run against a tree comes to go on as another one without printing or
writing anything on the way. -/
inductive Passes : Program → FileTree → Program → FileTree → Prop
  | refl {program : Program} {tree : FileTree} : Passes program tree program tree
  | readFile {path : String} {next : Except FileError String → Program} {tree after : FileTree}
      {last : Program} (passes : Passes (next (tree.read path)) tree last after) :
      Passes (.readFile path next) tree last after
  | makeDirectory {path : String} {next : Except FileError Unit → Program}
      {tree larger after : FileTree} {last : Program} (made : tree.makeDirectory path = .ok larger)
      (passes : Passes (next (.ok ())) larger last after) :
      Passes (.makeDirectory path next) tree last after
  | makeNoDirectory {path : String} {next : Except FileError Unit → Program}
      {tree after : FileTree} {last : Program} {failure : FileError}
      (unmade : tree.makeDirectory path = .error failure)
      (passes : Passes (next (.error failure)) tree last after) :
      Passes (.makeDirectory path next) tree last after
  | isDirectory {path : String} {next : Bool → Program} {tree after : FileTree} {last : Program}
      (passes : Passes (next (tree.isDirectory path)) tree last after) :
      Passes (.isDirectory path next) tree last after

variable {first second third : Program} {tree between after : FileTree}

theorem Passes.trans (passes : Passes first tree second between)
    (onward : Passes second between third after) : Passes first tree third after := by
  induction passes with
  | refl => exact onward
  | readFile _ ih => exact .readFile (ih onward)
  | makeDirectory made _ ih => exact .makeDirectory made (ih onward)
  | makeNoDirectory unmade _ ih => exact .makeNoDirectory unmade (ih onward)
  | isDirectory _ ih => exact .isDirectory (ih onward)

theorem Passes.run_eq (passes : Passes first tree second after) :
    first.run tree = second.run after := by
  induction passes with
  | refl => rfl
  | readFile _ ih => rw [run, ih]
  | makeDirectory made _ ih => simp only [run, made, ih]
  | makeNoDirectory unmade _ ih => simp only [run, unmade, ih]
  | isDirectory _ ih => rw [run, ih]

end Program

end Passing

section Shares

/-- What one template adds to a run of the render command. -/
structure Share where
  /-- What is printed. -/
  printed : String
  /-- What is reported. -/
  reported : String
  /-- How many templates are counted as failed. -/
  failures : Nat
deriving DecidableEq

/-- The share of a template.  If it can be rendered that is its output, with a line break
at its end, and if not the report of its diagnostic, with an excerpt of its own text. -/
def shareOf (colors : Bool) (options : RenderOptions) (data : Json) (source : Source) : Share :=
  match renderSource options data source with
  | .ok output =>
      ⟨if output.toList.getLast? = some '\n' then output else output ++ "\n", "", 0⟩
  | .error diagnostic =>
      ⟨"", Terminal.write colors (Terminal.report .standard (some source) diagnostic), 1⟩

/-- The number of templates that failed. -/
def failureCount : List Share → Nat
  | [] => 0
  | share :: shares => share.failures + failureCount shares

/-- The line that closes a run, with the number of templates that failed, and nothing if none
did.  Colors make its first word bold and red. -/
def closingLine (colors : Bool) (failures : Nat) : String :=
  let error := if colors then "\x1b[1;31merror\x1b[0m" else "error"
  match failures with
  | 0 => ""
  | 1 => error ++ ": aborting due to previous error\n"
  | failures => error ++ ": aborting due to " ++ toString failures ++ " previous errors\n"

/-- The outcome that some shares make: what is printed of each, what is reported of each
and, if any failed, one closing line with the number of those. -/
def outcomeOf (colors : Bool) (shares : List Share) (tree : FileTree) : Outcome where
  exitCode := if failureCount shares = 0 then 0 else 1
  stdout := String.join (shares.map (·.printed))
  stderr := String.join (shares.map (·.reported)) ++ closingLine colors (failureCount shares)
  tree := tree

variable {colors : Bool} {options : RenderOptions} {data : Json} {tree : FileTree}

/-- The templates with what became of them. -/
def unitsOf (options : RenderOptions) (data : Json) (sources : List Source) : List Rendered :=
  sources.map fun source => ⟨source, renderSource options data source⟩

theorem problems_cons (source : Source) (sources : List Source) :
    problems (unitsOf options data (source :: sources)) =
      match renderSource options data source with
      | .ok _ => problems (unitsOf options data sources)
      | .error diagnostic => (source, diagnostic) :: problems (unitsOf options data sources) := by
  simp only [problems, unitsOf, List.map_cons, List.filterMap_cons]
  cases renderSource options data source <;> rfl

theorem failureCount_share (sources : List Source) :
    failureCount (sources.map (shareOf colors options data)) =
      (problems (unitsOf options data sources)).length := by
  induction sources with
  | nil => rfl
  | cons source sources ih =>
      rw [List.map_cons, failureCount, ih, shareOf, problems_cons]
      cases renderSource options data source with
      | ok output => exact Nat.zero_add _
      | error diagnostic => exact Nat.add_comm _ _

theorem reported_share (sources : List Source) :
    String.join ((sources.map (shareOf colors options data)).map (·.reported)) =
      Terminal.write colors ((problems (unitsOf options data sources)).flatMap
        fun (source, diagnostic) => Terminal.report .standard (some source) diagnostic) := by
  induction sources with
  | nil => rfl
  | cons source sources ih =>
      rw [List.map_cons, List.map_cons, String.join_cons, ih, shareOf, problems_cons]
      cases renderSource options data source with
      | ok output => exact String.empty_append
      | error diagnostic => exact (Terminal.write_append colors _ _).symm

theorem write_summary (colors : Bool) (failures : Nat) :
    Terminal.write colors (Terminal.summary failures 0) = closingLine colors failures := by
  match failures with
  | 0 => rfl
  | 1 => cases colors <;> decide
  | failures + 2 =>
      apply String.toList_injective
      cases colors <;>
        simp [closingLine, Terminal.summary, Terminal.write_cons, Terminal.styled,
          Terminal.plain, Terminal.Segment.written, Terminal.Style.escape,
          Terminal.resetEscape, toString]

namespace Program

theorem passes_readingSources {paths : List String}
    (readable : ∀ path ∈ paths, (tree.read path).isOk = true) (next : List Source → Program) :
    Passes (readingSources paths next) tree (next (paths.map tree.source)) tree := by
  induction paths generalizing next with
  | nil => exact .refl
  | cons path paths ih =>
      obtain ⟨isRead, others⟩ := List.forall_mem_cons.1 readable
      obtain ⟨text, found⟩ := exists_eq_ok isRead
      refine .readFile ?_
      rw [List.map_cons, FileTree.source, found]
      exact ih others _

theorem passes_readingData {path? : Option String} (given : tree.data? path? = some data)
    (next : Json → Program) : Passes (readingData path? next) tree (next data) tree := by
  cases path? with
  | none =>
      obtain rfl := Option.some.inj given
      exact .refl
  | some path =>
      refine .readFile ?_
      cases found : tree.read path with
      | error failure => simp [FileTree.data?, found, Except.toOption] at given
      | ok text =>
          cases valid : Json.read Json.dataDepth text with
          | error error => simp [FileTree.data?, found, valid, Except.toOption] at given
          | ok value =>
              obtain rfl : value = data := by
                simpa [FileTree.data?, found, valid, Except.toOption] using given
              simp only [valid]
              exact .refl

/-- Outputs are printed before whatever comes next. -/
theorem run_writingOutputs (toStdout : options.out = none) (sources : List Source)
    (next : Program) :
    (writingOutputs options (unitsOf options data sources) next).run tree =
      { next.run tree with
        stdout := String.join ((sources.map (shareOf colors options data)).map (·.printed))
          ++ (next.run tree).stdout } := by
  induction sources with
  | nil => exact congrArg (Outcome.mk _ · _ _) String.empty_append.symm
  | cons source sources ih =>
      rw [unitsOf, List.map_cons, writingOutputs, List.map_cons, List.map_cons, String.join_cons,
        shareOf]
      cases renderSource options data source with
      | ok output =>
          simp only [writingOutput, toStdout, Program.run, printedOutput]
          rw [← unitsOf, ih, String.append_assoc]
      | error diagnostic =>
          simp only
          rw [← unitsOf, ih, String.empty_append]

theorem run_reporting (sources : List Source) :
    (reporting colors (problems (unitsOf options data sources))).run tree =
      { outcomeOf colors (sources.map (shareOf colors options data)) tree with stdout := "" } := by
  rw [outcomeOf, failureCount_share, reported_share, ← write_summary, reporting]
  generalize problems (unitsOf options data sources) = found
  cases found with
  | nil => rfl
  | cons problem others =>
      simp only [List.isEmpty_cons, Bool.false_eq_true, if_false, fail, Program.run, reportText,
        Terminal.write_append, String.append_empty, List.length_cons, Nat.succ_ne_zero]

end Program

/-- A run that prints its outputs is made up of the shares of its templates. -/
theorem run_render (toStdout : options.out = none)
    (readable : ∀ path ∈ options.files, (tree.read path).isOk = true)
    (given : tree.data? options.data = some data) :
    (render colors options).run tree =
      outcomeOf colors ((options.files.map tree.source).map (shareOf colors options data))
        tree := by
  have noCollision (next : Program) :
      (Program.refusingCollision options next).run tree = next.run tree := by
    rw [Program.refusingCollision, toStdout]
    rfl
  rw [render, noCollision, (Program.passes_readingData given _).run_eq,
    (Program.passes_readingSources readable _).run_eq]
  simp only [toStdout, Program.preparingOutput]
  rw [← unitsOf, Program.run_writingOutputs toStdout, Program.run_reporting]
  exact congrArg (Outcome.mk _ · _ _) String.append_empty

/-- A run fails just if one of its templates does. -/
theorem exitCode_outcomeOf (sources : List Source) :
    (outcomeOf colors (sources.map (shareOf colors options data)) tree).exitCode = 1 ↔
      ∃ source ∈ sources, (renderSource options data source).isOk = false := by
  induction sources with
  | nil => simp [outcomeOf, failureCount]
  | cons source sources ih =>
      simp only [outcomeOf, List.map_cons, failureCount, List.exists_mem_cons_iff] at ih ⊢
      rw [← ih, shareOf]
      cases renderSource options data source with
      | ok output => simp [Except.isOk, Except.toBool]
      | error diagnostic => simp [Except.isOk, Except.toBool]

variable {arguments : List String}

/-- The outcome of a run that prints its outputs is made up of the shares of its templates,
in the order of the arguments; a run for one of them alone has the outcome that its share
makes; and if a file is overwritten, the data apart, only the shares of the arguments that
lead to it become others. -/
theorem run_render_shares (colors : Bool)
    (asked : RenderOptions.ofArguments arguments = .ok options) (toStdout : options.out = none)
    (readable : ∀ path ∈ options.files, (tree.read path).isOk = true)
    (given : tree.data? options.data = some data) :
    ((program colors ("render" :: arguments)).run tree =
        outcomeOf colors ((options.files.map tree.source).map (shareOf colors options data)) tree ∧
      (((program colors ("render" :: arguments)).run tree).exitCode = 1 ↔
        ∃ source ∈ options.files.map tree.source,
          (renderSource options data source).isOk = false)) ∧
    (∀ path ∈ options.files, (render colors { options with files := [path] }).run tree =
      outcomeOf colors [shareOf colors options data (tree.source path)] tree) ∧
    ∀ path place text, tree.leadsTo path place = true →
      (∀ dataPath ∈ options.data, tree.leadsTo dataPath place = false) →
      ∃ other, tree.write path text = .ok other ∧
        (program colors ("render" :: arguments)).run other =
          outcomeOf colors ((options.files.map fun path =>
            if tree.leadsTo path place then ⟨path, text⟩ else tree.source path).map
              (shareOf colors options data)) other := by
  have runs (other : FileTree) :
      (program colors ("render" :: arguments)).run other = (render colors options).run other := by
    simp only [program, renderArguments, asked]
  refine ⟨⟨?_, ?_⟩, ?_, ?_⟩
  · rw [runs, run_render toStdout readable given]
  · rw [runs, run_render toStdout readable given, exitCode_outcomeOf]
  · intro path member
    have alone : ∀ other ∈ [path], (tree.read other).isOk = true :=
      List.forall_mem_singleton.2 (readable path member)
    exact run_render toStdout alone given
  · intro path place text leads apart
    refine ⟨tree.overwrite place text, FileTree.write_of_leadsTo leads, ?_⟩
    rw [runs, run_render toStdout
      (fun path member => FileTree.isOk_read_overwrite (readable path member) place text)
      ((FileTree.data?_overwrite apart text).trans given),
      List.map_congr_left fun path _ => FileTree.source_overwrite tree place text path]

/-- Three templates, the second of which misses an end tag, and data for the first. -/
def threeTemplates : FileTree :=
  .ofFiles [("a.t", some "<p>\x7b\x7b x \x7d\x7d</p>"), ("b.t", some "<p>"), ("c.t", some "c"),
    ("d.json", some "\x7b\"x\": \"1\"\x7d")]

/-- Arguments to render them with the data. -/
def threeTemplatesArguments : List String :=
  ["a.t", "b.t", "--data=d.json", "c.t"]

/-- What these arguments ask for. -/
def threeTemplatesOptions : RenderOptions :=
  ⟨["a.t", "b.t", "c.t"], some "d.json", .standard, none, .html⟩

theorem run_render_shares_threeTemplates :
    ∃ data other,
      RenderOptions.ofArguments threeTemplatesArguments = .ok threeTemplatesOptions ∧
      threeTemplatesOptions.out = none ∧
      (∀ path ∈ threeTemplatesOptions.files, (threeTemplates.read path).isOk = true) ∧
      threeTemplates.data? threeTemplatesOptions.data = some data ∧
      (program false ("render" :: threeTemplatesArguments)).run threeTemplates =
        outcomeOf false [⟨"<!DOCTYPE html>\n<p>\n  1\n</p>\n", "", 0⟩,
          ⟨"", "error[E1004]: unclosed element <p> at end of input\n  --> b.t:1:1\n" ++
            "> 1 | <p>\n    | ^^^\n\n", 1⟩, ⟨"<!DOCTYPE html>\nc\n", "", 0⟩] threeTemplates ∧
      ((program false ("render" :: threeTemplatesArguments)).run threeTemplates).stderr =
        "error[E1004]: unclosed element <p> at end of input\n  --> b.t:1:1\n" ++
          "> 1 | <p>\n    | ^^^\n\n" ++ "error: aborting due to previous error\n" ∧
      (render false { threeTemplatesOptions with files := ["c.t"] }).run threeTemplates =
        outcomeOf false [⟨"<!DOCTYPE html>\nc\n", "", 0⟩] threeTemplates ∧
      threeTemplates.write "./b.t" "b" = .ok other ∧
      (program false ("render" :: threeTemplatesArguments)).run other =
        outcomeOf false [⟨"<!DOCTYPE html>\n<p>\n  1\n</p>\n", "", 0⟩,
          ⟨"<!DOCTYPE html>\nb\n", "", 0⟩, ⟨"<!DOCTYPE html>\nc\n", "", 0⟩] other ∧
      ((program false ("render" :: threeTemplatesArguments)).run other).stderr = "" := by
  have asked : RenderOptions.ofArguments threeTemplatesArguments = .ok threeTemplatesOptions := by
    decide +kernel
  have readable : ∀ path ∈ threeTemplatesOptions.files,
      (threeTemplates.read path).isOk = true := by
    decide +kernel
  have someData : (threeTemplates.data? threeTemplatesOptions.data).isSome = true := by
    decide +kernel
  have given : threeTemplates.data? threeTemplatesOptions.data =
      some ((threeTemplates.data? threeTemplatesOptions.data).getD (.object [])) := by
    obtain ⟨value, found⟩ := Option.isSome_iff_exists.1 someData
    rw [found]
    rfl
  obtain ⟨⟨whole, -⟩, alone, overwritten⟩ :=
    run_render_shares false asked rfl readable given
  obtain ⟨other, written, wholeThen⟩ := overwritten "./b.t" ["b.t".toList] "b"
    (by decide +kernel) (by decide +kernel)
  refine ⟨_, other, asked, rfl, readable, given, ?_, ?_, ?_, written, ?_, ?_⟩
  · rw [whole]
    exact congrArg (outcomeOf false · threeTemplates) (by decide +kernel)
  · rw [whole]
    decide +kernel
  · rw [alone "c.t" (by decide)]
    exact congrArg (outcomeOf false · threeTemplates) (by decide +kernel)
  · rw [wholeThen]
    exact congrArg (outcomeOf false · other) (by decide +kernel)
  · rw [wholeThen]
    -- What is reported does not depend on the tree.
    change (outcomeOf false _ threeTemplates).stderr = ""
    decide +kernel

end Shares

end Command

end TemplateCompiler
