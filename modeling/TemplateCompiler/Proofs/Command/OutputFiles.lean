import TemplateCompiler.Proofs.Command.TreeWrites

/-!
# Outputs in files of their own

Templates whose outputs collide are refused before anything is read.  When there are none of
them, every template that can be rendered has a path of its own, and the paths lead to
different files.  So a run writes every output once, in the order of the arguments, and what
it has written stays until its end.  A run that cannot read everything writes nothing, and one
that cannot write a file says so and stops there.
-/

namespace TemplateCompiler

namespace Command

/-- What a run of a program against a tree writes: the paths with the texts. -/
def Program.writes : Program → FileTree → List (String × String)
  | .finish _, _ => []
  | .readFile path next, tree => (next (tree.read path)).writes tree
  | .makeDirectory path next, tree =>
      match tree.makeDirectory path with
      | .ok larger => (next (.ok ())).writes larger
      | .error failure => (next (.error failure)).writes tree
  | .isDirectory path next, tree => (next (tree.isDirectory path)).writes tree
  | .writeFile path text next, tree =>
      match tree.write path text with
      | .ok larger => (path, text) :: (next (.ok ())).writes larger
      | .error failure => (next (.error failure)).writes tree
  | .print _ next, tree => next.writes tree
  | .printError _ next, tree => next.writes tree

/-- The outputs of the templates that can be rendered, each with its path. -/
def outputsOf (options : RenderOptions) (directory : String) (data : Json)
    (sources : List Source) : List (String × String) :=
  sources.filterMap fun source =>
    match renderSource options data source with
    | .ok output => some (outputPath directory options.kind source.name, output)
    | .error _ => none

/-- The outputs of a run.  If the data or a template cannot be read there are none. -/
def FileTree.outputs (tree : FileTree) (options : RenderOptions) (directory : String) :
    List (String × String) :=
  match tree.data? options.data with
  | some data =>
      if ∀ path ∈ options.files, (tree.read path).isOk = true then
        outputsOf options directory data (options.files.map tree.source)
      else []
  | none => []

/-- What is said of a file that cannot be written. -/
def unwrittenText (path : String) (failure : FileError) : String :=
  s!"error: cannot write '{path}': {failure.systemMessage}\n"

/-- What is said of a directory that cannot be made. -/
def unmadeText (directory : String) (failure : FileError) : String :=
  s!"error: cannot create output directory '{directory}': {failure.systemMessage}\n"

/-- How a run ends before it has written the rest of its outputs: there is no rest, or the
first one of it cannot be written, and the run says so and fails. -/
inductive EndsBefore (outcome : Outcome) : (rest : List (String × String)) → Prop
  | done : EndsBefore outcome []
  | unwritten {rest : List (String × String)} {path text : String} {failure : FileError}
      (refused : outcome.tree.write path text = .error failure) (failed : outcome.exitCode = 1)
      (reported : outcome.stderr = unwrittenText path failure) :
      EndsBefore outcome ((path, text) :: rest)

/-- Whether a run against a tree comes to nothing because the directory for its outputs cannot
be made: its outcome is that of a run that is to do no more than that. -/
structure LacksDirectory (directory : String) (tree : FileTree) (outcome : Outcome) : Prop where
  failed : outcome.exitCode = 1
  outcomeEq : outcome = (Program.preparingOutput (some directory) (.finish 0)).run tree
  reported : ∃ failure, outcome.stderr = unmadeText directory failure

/-- Whether a tree holds all that was written, with a file for each text that nothing else
was written to. -/
structure FileTree.Holds (tree : FileTree) (written : List (String × String)) : Prop where
  once : (written.map Prod.fst).Nodup
  own : ∀ entry ∈ written, tree.read entry.1 = .ok entry.2
  apart : ∀ first ∈ written, ∀ second ∈ written, ∀ place,
    tree.leadsTo first.1 place = true → tree.leadsTo second.1 place = true → first = second

namespace Program

section Writes

variable {first second : Program} {tree after : FileTree}

theorem Passes.writes_eq (passes : Passes first tree second after) :
    first.writes tree = second.writes after := by
  induction passes with
  | refl => rfl
  | readFile _ ih => rw [writes, ih]
  | makeDirectory made _ ih => simp only [writes, made, ih]
  | makeNoDirectory unmade _ ih => simp only [writes, unmade, ih]
  | isDirectory _ ih => rw [writes, ih]

theorem writes_readingData {path? : Option String} (missing : tree.data? path? = none)
    (next : Json → Program) : (readingData path? next).writes tree = [] := by
  cases path? with
  | none => contradiction
  | some path =>
      rw [readingData, reading, writes]
      cases found : tree.read path with
      | error failure => rfl
      | ok text =>
          cases invalid : Json.read Json.dataDepth text with
          | error error =>
              simp only [invalid]
              rfl
          | ok value => simp [FileTree.data?, found, invalid, Except.toOption] at missing

theorem writes_readingSources {paths : List String}
    (unreadable : ∃ path ∈ paths, ¬ (tree.read path).isOk = true)
    (next : List Source → Program) : (readingSources paths next).writes tree = [] := by
  induction paths generalizing next with
  | nil => simp at unreadable
  | cons path paths ih =>
      rw [readingSources, reading, writes]
      cases found : tree.read path with
      | error failure => rfl
      | ok text =>
          have others : ∃ other ∈ paths, ¬ (tree.read other).isOk = true := by
            rcases List.exists_mem_cons_iff .. |>.1 unreadable with isFirst | others
            · simp [found, Except.isOk, Except.toBool] at isFirst
            · exact others
          exact ih others _

/-- Whether a program passes to what it is continued by, with a result that does not depend on
that. -/
def Reaches (program : (Except FileError Unit → Program) → Program) (tree : FileTree) : Prop :=
  ∃ result larger, ∀ next, Passes (program next) tree (next result) larger

variable {program : (Except FileError Unit → Program) → Program}
  {between : Except FileError Unit → (Except FileError Unit → Program) → Program} {path : String}

theorem Reaches.pass (tree : FileTree) (result : Except FileError Unit) :
    Reaches (· result) tree :=
  ⟨result, tree, fun _ => .refl⟩

theorem Reaches.bind (reaches : Reaches program tree)
    (onward : ∀ result larger, Reaches (between result) larger) :
    Reaches (fun next => program fun result => between result next) tree := by
  obtain ⟨result, larger, passes⟩ := reaches
  obtain ⟨last, largest, passesOn⟩ := onward result larger
  exact ⟨last, largest, fun next => (passes _).trans (passesOn next)⟩

theorem acceptingDirectory_reaches (tree : FileTree) (failure : FileError) :
    Reaches (makingDirectories.acceptingDirectory path failure) tree :=
  ⟨_, tree, fun _ => .isDirectory .refl⟩

theorem makeDirectory_reaches (onward : ∀ result larger, Reaches (between result) larger) :
    Reaches (fun next => .makeDirectory path fun result => between result next) tree := by
  cases made : tree.makeDirectory path with
  | ok larger =>
      obtain ⟨last, largest, passes⟩ := onward (.ok ()) larger
      exact ⟨last, largest, fun next => .makeDirectory made (passes next)⟩
  | error failure =>
      obtain ⟨last, largest, passes⟩ := onward (.error failure) tree
      exact ⟨last, largest, fun next => .makeNoDirectory made (passes next)⟩

/-- A directory is made, or found to be there, or not, without anything being written. -/
theorem makingDirectories_reaches (path : String) (bound : Nat) (tree : FileTree) :
    Reaches (makingDirectories path bound) tree := by
  induction bound generalizing path tree with
  | zero => exact .pass tree _
  | succ bound ih =>
      by_cases isEmpty : path.isEmpty = true
      · refine ⟨.ok (), tree, fun next => ?_⟩
        rw [makingDirectories, if_pos isEmpty]
        exact .refl
      · simp only [Reaches, makingDirectories, if_neg isEmpty]
        refine makeDirectory_reaches fun result tree => ?_
        cases result with
        | ok _ => exact .pass tree (.ok ())
        | error failure =>
            cases failure with
            | notFound =>
                cases parentPath? path with
                | none => exact .pass tree _
                | some parent =>
                    refine (ih parent tree).bind fun result tree => ?_
                    cases result with
                    | error failure => exact .pass tree (.error failure)
                    | ok _ =>
                        refine makeDirectory_reaches fun result tree => ?_
                        cases result with
                        | ok _ => exact .pass tree (.ok ())
                        | error failure => exact acceptingDirectory_reaches tree failure
            | _ => exact acceptingDirectory_reaches tree _

/-- A program that needs a directory goes on once it is there, or fails. -/
theorem preparingOutput_passes (directory : String) (tree : FileTree) :
    (∃ larger, ∀ next, Passes (preparingOutput (some directory) next) tree next larger) ∨
      ∃ failure larger, ∀ next, Passes (preparingOutput (some directory) next) tree
        (fail (unmadeText directory failure)) larger := by
  obtain ⟨result, larger, passes⟩ :=
    makingDirectories_reaches directory (directory.length + 1) tree
  cases result with
  | ok _ =>
      refine .inl ⟨larger, fun next => ?_⟩
      rw [preparingOutput]
      exact passes _
  | error failure =>
      refine .inr ⟨failure, larger, fun next => ?_⟩
      rw [preparingOutput]
      exact passes _

end Writes

end Program

section Outputs

variable {colors : Bool} {options : RenderOptions} {directory : String} {data : Json}
  {sources : List Source} {tree : FileTree} {start : TreePlace} {names : List (List Char)}

theorem outputsOf_cons (source : Source) (sources : List Source) :
    outputsOf options directory data (source :: sources) =
      match renderSource options data source with
      | .ok output =>
          (outputPath directory options.kind source.name, output) ::
            outputsOf options directory data sources
      | .error _ => outputsOf options directory data sources := by
  rw [outputsOf, List.filterMap_cons]
  cases renderSource options data source <;> rfl

/-- The paths of outputs are among those of the templates, in the same order. -/
theorem paths_outputsOf_sublist (sources : List Source) :
    ((outputsOf options directory data sources).map Prod.fst).Sublist
      (sources.map fun source => outputPath directory options.kind source.name) := by
  induction sources with
  | nil => exact .slnil
  | cons source sources ih =>
      rw [outputsOf_cons, List.map_cons]
      cases renderSource options data source with
      | ok output => exact ih.cons_cons _
      | error diagnostic => exact ih.cons _

/-- What becomes of some outputs when a program is run that is to write them. -/
structure Program.WritesOut (directory : String) (outputs : List (String × String))
    (program : Program) (tree : FileTree) : Prop where
  inOrder : ∃ rest, outputs = program.writes tree ++ rest ∧ EndsBefore (program.run tree) rest
  own : ∀ entry ∈ program.writes tree, ∃ found,
    (program.run tree).tree.target entry.1 = .ok (.file found (some entry.2))
  others : ∀ name, IsFileName name → joinPath directory name ∉ outputs.map Prod.fst →
    ∀ found content, tree.target (joinPath directory name) = .ok (.file found content) →
      (program.run tree).tree.target (joinPath directory name) = .ok (.file found content)

theorem writingOutputs_cons (source : Source) (sources : List Source) (next : Program) :
    Program.writingOutputs options (unitsOf options data (source :: sources)) next =
      match renderSource options data source with
      | .ok output => Program.writingOutput options source.name output
          (Program.writingOutputs options (unitsOf options data sources) next)
      | .error _ => Program.writingOutputs options (unitsOf options data sources) next := by
  rw [unitsOf, List.map_cons, Program.writingOutputs]
  cases renderSource options data source <;> rfl

/-- A program that writes nothing is one that writes no outputs. -/
theorem Program.writesOut_nil {program : Program} (writesEq : program.writes tree = [])
    (treeEq : (program.run tree).tree = tree) : program.WritesOut directory [] tree := by
  refine ⟨⟨[], by rw [writesEq]; rfl, .done⟩, ?_, ?_⟩
  · rw [writesEq]
    exact List.forall_mem_nil _
  · rw [treeEq]
    exact fun _ _ _ _ _ targetEq => targetEq

section OneOutput

variable {template output : String} {larger : FileTree} {failure : FileError} (next : Program)

theorem writingOutput_of_ok (toFiles : options.out = some directory)
    (written : tree.write (outputPath directory options.kind template) output = .ok larger) :
    (Program.writingOutput options template output next).writes tree =
        (outputPath directory options.kind template, output) :: next.writes larger ∧
      (Program.writingOutput options template output next).run tree = next.run larger := by
  rw [Program.writingOutput, toFiles]
  simp only [Program.writes, Program.run, written, and_self]

theorem writingOutput_of_error (toFiles : options.out = some directory)
    (failed : tree.write (outputPath directory options.kind template) output = .error failure) :
    (Program.writingOutput options template output next).writes tree = [] ∧
      (Program.writingOutput options template output next).run tree =
        ⟨1, "", unwrittenText (outputPath directory options.kind template) failure, tree⟩ := by
  rw [Program.writingOutput, toFiles]
  simp only [Program.writes, Program.run, failed, Program.fail, String.append_empty, true_and]
  rfl

/-- One output is written, and then the others, or it is not and the run ends. -/
theorem writingOutput_writesOut {next : Program} (toFiles : options.out = some directory)
    (joins : FileTree.JoinsAt directory start names) {outputs : List (String × String)}
    (isNew : outputPath directory options.kind template ∉ outputs.map Prod.fst)
    (writesOut : ∀ tree, next.WritesOut directory outputs tree) :
    (Program.writingOutput options template output next).WritesOut directory
      ((outputPath directory options.kind template, output) :: outputs) tree := by
  have isName := isFileName_outputName options.kind template
  cases written : tree.write (outputPath directory options.kind template) output with
  | error failure =>
      obtain ⟨writesEq, runEq⟩ := writingOutput_of_error next toFiles written
      refine ⟨⟨(outputPath directory options.kind template, output) :: outputs, ?_, ?_⟩, ?_, ?_⟩
      · rw [writesEq]
        rfl
      · rw [runEq]
        exact .unwritten written rfl rfl
      · rw [writesEq]
        exact List.forall_mem_nil _
      · rw [runEq]
        exact fun _ _ _ _ _ targetEq => targetEq
  | ok larger =>
      obtain ⟨writesEq, runEq⟩ := writingOutput_of_ok next toFiles written
      obtain ⟨⟨rest, outputsEq, ends⟩, own, others⟩ := writesOut larger
      refine ⟨⟨rest, ?_, ?_⟩, ?_, ?_⟩
      · rw [writesEq, outputsEq]
        rfl
      · rw [runEq]
        exact ends
      · rw [writesEq, runEq, List.forall_mem_cons]
        -- No later output has this path, so the file stays as it was written here.
        obtain ⟨found, targetEq⟩ := FileTree.target_of_write joins isName written
        exact ⟨⟨found, others _ isName isNew found _ targetEq⟩, own⟩
      · intro name isOtherName isOther found content targetEq
        rw [List.map_cons, List.mem_cons, not_or] at isOther
        rw [runEq]
        refine others name isOtherName isOther.2 found content ?_
        refine FileTree.target_of_write_other joins isName written isOtherName ?_ targetEq
        exact fun same => isOther.1 (congrArg (joinPath directory) same)

end OneOutput

/-- Outputs with different paths are written until there are none left or one cannot be
written. -/
theorem writingOutputs_writesOut (toFiles : options.out = some directory)
    (joins : FileTree.JoinsAt directory start names) {next : Program}
    (quiet : ∀ tree, next.writes tree = [] ∧ (next.run tree).tree = tree)
    (apart : ((outputsOf options directory data sources).map Prod.fst).Nodup) (tree : FileTree) :
    (Program.writingOutputs options (unitsOf options data sources) next).WritesOut directory
      (outputsOf options directory data sources) tree := by
  induction sources generalizing tree with
  | nil => exact Program.writesOut_nil (quiet tree).1 (quiet tree).2
  | cons source sources ih =>
      rw [outputsOf_cons] at apart ⊢
      rw [writingOutputs_cons]
      cases rendered : renderSource options data source with
      | ok output =>
          rw [rendered] at apart
          obtain ⟨isNew, apart⟩ := List.nodup_cons.1 apart
          exact writingOutput_writesOut toFiles joins isNew (ih apart)
      | error diagnostic =>
          rw [rendered] at apart
          exact ih apart tree

theorem reporting_quiet (colors : Bool) (problems : List (Source × Diagnostic))
    (tree : FileTree) :
    (Program.reporting colors problems).writes tree = [] ∧
      ((Program.reporting colors problems).run tree).tree = tree := by
  rw [Program.reporting]
  split
  · exact ⟨rfl, rfl⟩
  · exact ⟨rfl, rfl⟩

theorem FileTree.holds_nil (tree : FileTree) : tree.Holds [] :=
  ⟨List.nodup_nil, List.forall_mem_nil _, List.forall_mem_nil _⟩

theorem exists_name_of_mem_outputsOf {entry : String × String}
    (member : entry ∈ outputsOf options directory data sources) :
    ∃ name, IsFileName name ∧ entry.1 = joinPath directory name := by
  have isPath := (paths_outputsOf_sublist sources).subset (List.mem_map_of_mem member)
  obtain ⟨source, -, pathEq⟩ := List.mem_map.1 isPath
  exact ⟨_, isFileName_outputName options.kind source.name, pathEq.symm⟩

/-- What was written is in files of its own. -/
theorem Program.WritesOut.holds {program : Program}
    (writesOut : program.WritesOut directory (outputsOf options directory data sources) tree)
    (joins : FileTree.JoinsAt directory start names)
    (apart : ((outputsOf options directory data sources).map Prod.fst).Nodup) :
    (program.run tree).tree.Holds (program.writes tree) := by
  obtain ⟨⟨rest, outputsEq, -⟩, own, -⟩ := writesOut
  have isOutput : ∀ entry ∈ program.writes tree, ∃ name, IsFileName name ∧
      entry.1 = joinPath directory name := by
    intro entry member
    have isOutput : entry ∈ outputsOf options directory data sources :=
      outputsEq ▸ List.mem_append_left rest member
    exact exists_name_of_mem_outputsOf isOutput
  have once : ((program.writes tree).map Prod.fst).Nodup := by
    rw [outputsEq, List.map_append] at apart
    exact apart.of_append_left
  refine ⟨once, ?_, ?_⟩
  · intro entry member
    obtain ⟨found, targetEq⟩ := own entry member
    rw [FileTree.read, targetEq]
  · intro first isFirst second isSecond place leads leadsThen
    obtain ⟨name, isName, pathEq⟩ := isOutput first isFirst
    obtain ⟨other, isOther, otherEq⟩ := isOutput second isSecond
    obtain ⟨content, targetEq⟩ := FileTree.exists_target_of_leadsTo leads
    obtain ⟨otherContent, otherTargetEq⟩ := FileTree.exists_target_of_leadsTo leadsThen
    rw [pathEq] at targetEq
    rw [otherEq] at otherTargetEq
    have sameName :=
      FileTree.name_eq_of_target_eq joins isName isOther targetEq otherTargetEq
    exact List.inj_on_of_nodup_map once isFirst isSecond (by rw [pathEq, otherEq, sameName])

/-- The part of a run behind the reading. -/
def Program.writingUnits (colors : Bool) (options : RenderOptions) (data : Json)
    (sources : List Source) : Program :=
  .preparingOutput options.out <|
    .writingOutputs options (unitsOf options data sources) <|
      .reporting colors (problems (unitsOf options data sources))

theorem refusingCollision_of_accepted (toFiles : options.out = some directory)
    (accepted : findCollision? options.files directory options.kind = none) (next : Program) :
    Program.refusingCollision options next = next := by
  rw [Program.refusingCollision, toFiles]
  simp only [Option.bind_some, accepted]

/-- Whether a program, run against a tree, delivers some outputs: it writes them in their
order, until none is left or the run fails, and what it has written is in files of its own at
the end. -/
structure Program.Delivers (directory : String) (outputs : List (String × String))
    (program : Program) (tree : FileTree) : Prop where
  inOrder : ∃ rest, outputs = program.writes tree ++ rest ∧
    (EndsBefore (program.run tree) rest ∨
      program.writes tree = [] ∧ LacksDirectory directory tree (program.run tree))
  holds : (program.run tree).tree.Holds (program.writes tree)

theorem Program.Delivers.of_passes {first second : Program} {outputs : List (String × String)}
    (passes : Passes first tree second tree) (delivers : second.Delivers directory outputs tree) :
    first.Delivers directory outputs tree := by
  obtain ⟨inOrder, holds⟩ := delivers
  rw [← passes.writes_eq, ← passes.run_eq] at inOrder holds
  exact ⟨inOrder, holds⟩

theorem Program.delivers_of_nil {program : Program} (writesEq : program.writes tree = []) :
    program.Delivers directory [] tree := by
  refine ⟨⟨[], ?_, .inl .done⟩, ?_⟩
  · rw [writesEq]
    rfl
  · rw [writesEq]
    exact FileTree.holds_nil _

theorem writingUnits_delivers (colors : Bool) (toFiles : options.out = some directory)
    (apart : ((outputsOf options directory data sources).map Prod.fst).Nodup) :
    (Program.writingUnits colors options data sources).Delivers directory
      (outputsOf options directory data sources) tree := by
  obtain ⟨start, names, joins⟩ := exists_route directory
  rw [Program.writingUnits, toFiles]
  rcases Program.preparingOutput_passes directory tree with
    ⟨larger, passes⟩ | ⟨failure, larger, passes⟩
  · have writesOut := writingOutputs_writesOut toFiles joins
      (reporting_quiet colors (problems (unitsOf options data sources))) apart larger
    obtain ⟨rest, outputsEq, ends⟩ := writesOut.inOrder
    constructor
    · rw [(passes _).writes_eq, (passes _).run_eq]
      exact ⟨rest, outputsEq, .inl ends⟩
    · rw [(passes _).writes_eq, (passes _).run_eq]
      exact writesOut.holds joins apart
  · have lacks : LacksDirectory directory tree
        ((Program.fail (unmadeText directory failure)).run larger) :=
      ⟨rfl, (passes (.finish 0)).run_eq.symm, failure, String.append_empty⟩
    constructor
    · rw [(passes _).writes_eq, (passes _).run_eq]
      exact ⟨_, rfl, .inr ⟨rfl, lacks⟩⟩
    · rw [(passes _).writes_eq]
      exact FileTree.holds_nil _

theorem nodup_paths_outputsOf (data : Json) (tree : FileTree) {paths : List String}
    (accepted : findCollision? paths directory options.kind = none) :
    ((outputsOf options directory data (paths.map tree.source)).map Prod.fst).Nodup := by
  refine (paths_outputsOf_sublist (paths.map tree.source)).nodup ?_
  rw [List.map_map]
  exact findCollision?_eq_none_iff.1 accepted

/-- Templates that do not collide have different paths, and a run delivers their outputs. -/
theorem render_delivers (colors : Bool) (toFiles : options.out = some directory)
    (accepted : findCollision? options.files directory options.kind = none) (tree : FileTree) :
    ((tree.outputs options directory).map Prod.fst).Nodup ∧
      (render colors options).Delivers directory (tree.outputs options directory) tree := by
  rw [render, refusingCollision_of_accepted toFiles accepted, FileTree.outputs]
  cases given : tree.data? options.data with
  | none =>
      exact ⟨List.nodup_nil, Program.delivers_of_nil (Program.writes_readingData given _)⟩
  | some data =>
      have passes := Program.passes_readingData given fun data =>
        .readingSources options.files (.writingUnits colors options data)
      by_cases readable : ∀ path ∈ options.files, (tree.read path).isOk = true
      · simp only [if_pos readable]
        have passesOn := Program.passes_readingSources readable
          (.writingUnits colors options data)
        have apart := nodup_paths_outputsOf data tree accepted
        exact ⟨apart, .of_passes passes
          (.of_passes passesOn (writingUnits_delivers colors toFiles apart))⟩
      · simp only [if_neg readable]
        push Not at readable
        exact ⟨List.nodup_nil, .of_passes passes
          (Program.delivers_of_nil (Program.writes_readingSources readable _))⟩

/-- The search for a collision finds nothing just if the outputs of the templates have
different paths, and otherwise the first template that has the path of an earlier one, with
the only one that it shares the path with.  A run in which it finds nothing delivers the
outputs of the templates that can be rendered. -/
theorem findCollision?_exact (colors : Bool) (directory : String) :
    (∀ templates kind,
      (findCollision? templates directory kind = none ↔
        (templates.map (outputPath directory kind)).Nodup) ∧
      ∀ found, findCollision? templates directory kind = some found ↔
        ∃ first second,
          found.IsFirst templates (templates.map (outputPath directory kind)) first second) ∧
    ∀ options tree, options.out = some directory →
      findCollision? options.files directory options.kind = none →
        ((tree.outputs options directory).map Prod.fst).Nodup ∧
          (render colors options).Delivers directory (tree.outputs options directory) tree :=
  ⟨fun _ _ => ⟨findCollision?_eq_none_iff, fun _ => findCollision?_eq_some_iff⟩,
    fun _ tree toFiles accepted => render_delivers colors toFiles accepted tree⟩

/-- What three templates are rendered with into a directory. -/
def threeFilesOptions : RenderOptions :=
  { threeTemplatesOptions with out := some "out" }

/-- The outputs of those that can be rendered. -/
def threeFilesOutputs : List (String × String) :=
  [("out/a.html", "<!DOCTYPE html>\n<p>\n  1\n</p>\n"), ("out/c.html", "<!DOCTYPE html>\nc\n")]

theorem findCollision?_exact_threeFiles :
    threeFilesOptions.out = some "out" ∧
      findCollision? threeFilesOptions.files "out" .html = none ∧
      threeTemplates.outputs threeFilesOptions "out" = threeFilesOutputs ∧
      (render false threeFilesOptions).writes threeTemplates = threeFilesOutputs ∧
      ((render false threeFilesOptions).run threeTemplates).tree.Holds threeFilesOutputs ∧
      ∃ first second, Collision.IsFirst ["i.t", "a.t", "b/i.t", "a.t"]
        ["out/i.json", "out/a.json", "out/i.json", "out/a.json"]
        ⟨"i.t", "b/i.t", "out/i.json"⟩ first second := by
  have accepted : findCollision? threeFilesOptions.files "out" .html = none := by decide +kernel
  have outputsEq : threeTemplates.outputs threeFilesOptions "out" = threeFilesOutputs := by
    decide +kernel
  have writesEq : (render false threeFilesOptions).writes threeTemplates = threeFilesOutputs := by
    decide +kernel
  have collides : findCollision? ["i.t", "a.t", "b/i.t", "a.t"] "out" .tree =
      some ⟨"i.t", "b/i.t", "out/i.json"⟩ := by decide +kernel
  obtain ⟨exact, delivers⟩ := findCollision?_exact false "out"
  obtain ⟨-, -, holds⟩ := delivers threeFilesOptions threeTemplates rfl accepted
  rw [writesEq] at holds
  refine ⟨rfl, accepted, outputsEq, writesEq, holds, ?_⟩
  have isFirst := ((exact _ _).2 _).1 collides
  have pathsEq : ["i.t", "a.t", "b/i.t", "a.t"].map (outputPath "out" .tree) =
      ["out/i.json", "out/a.json", "out/i.json", "out/a.json"] := by decide +kernel
  rwa [pathsEq] at isFirst

end Outputs

end Command

end TemplateCompiler
