import TemplateCompiler.Proofs.Command.Independence
import TemplateCompiler.Proofs.Command.OutputPaths

/-!
# Files written into one directory

A path leads through directories, and no file that is written ever stands in the way of one
that was led through before.  So paths that are joined from one directory and different names
lead to different files, and what is written to one of them leaves the others as they are.
-/

namespace TemplateCompiler

namespace Command

/-- Where a target stands. -/
def Target.place : Target → TreePlace
  | .file place _ | .directory place | .missing place => place

namespace FileTree

/-- Whether a name of a path is looked up in the directory that the path has led to. -/
structure IsLookedUp (name : List Char) : Prop where
  nonempty : name ≠ []
  notHere : name ≠ ['.']
  notAbove : name ≠ above
  short : (String.ofList name).utf8ByteSize ≤ maxNameLength

/-- Whether names that are followed from a place lead to a target. -/
inductive Leads (tree : FileTree) : TreePlace → List (List Char) → Target → Prop
  | here {place : TreePlace} : Leads tree place [] (.directory place)
  | stay {place : TreePlace} {name : List Char} {names : List (List Char)} {target : Target}
      (nowhere : name = [] ∨ name = ['.']) (leads : Leads tree place names target) :
      Leads tree place (name :: names) target
  | up {place : TreePlace} {names : List (List Char)} {target : Target}
      (leads : Leads tree (placeAbove place) names target) :
      Leads tree place (above :: names) target
  | file {place : TreePlace} {name : List Char} {content : Option String}
      (lookedUp : IsLookedUp name) (found : tree.files.lookup (place ++ [name]) = some content) :
      Leads tree place [name] (.file (place ++ [name]) content)
  | into {place : TreePlace} {name : List Char} {names : List (List Char)} {target : Target}
      (lookedUp : IsLookedUp name) (noFile : tree.files.lookup (place ++ [name]) = none)
      (isDirectory : tree.hasDirectory (place ++ [name]) = true)
      (leads : Leads tree (place ++ [name]) names target) :
      Leads tree place (name :: names) target
  | missing {place : TreePlace} {name : List Char} {names : List (List Char)}
      (lookedUp : IsLookedUp name) (noFile : tree.files.lookup (place ++ [name]) = none)
      (notDirectory : tree.hasDirectory (place ++ [name]) = false)
      (ends : names.all List.isEmpty = true) :
      Leads tree place (name :: names) (.missing (place ++ [name]))

section Leading

variable {tree larger : FileTree} {start place : TreePlace} {names : List (List Char)}
  {target : Target}

theorem leads_of_follow (followed : tree.follow start names = .ok target) :
    tree.Leads start names target := by
  induction names generalizing start with
  | nil =>
      obtain rfl := Except.ok.inj followed
      exact .here
  | cons name names ih =>
      rw [follow] at followed
      split at followed
      · next nowhere => exact .stay (by simpa using nowhere) (ih followed)
      · next somewhere =>
          split at followed
          · next isAbove => exact isAbove ▸ .up (ih followed)
          · next notAbove =>
              split at followed
              · contradiction
              · next short =>
                  have lookedUp : IsLookedUp name := by
                    simp only [Bool.or_eq_true, List.isEmpty_iff, decide_eq_true_eq, not_or]
                      at somewhere
                    exact ⟨somewhere.1, somewhere.2, notAbove, Nat.le_of_not_lt short⟩
                  cases found : tree.files.lookup (start ++ [name]) with
                  | some content =>
                      simp only [found] at followed
                      split at followed
                      · next isLast =>
                          obtain rfl := List.isEmpty_iff.1 isLast
                          obtain rfl := Except.ok.inj followed
                          exact .file lookedUp found
                      · contradiction
                  | none =>
                      simp only [found] at followed
                      split at followed
                      · next isDirectory => exact .into lookedUp found isDirectory (ih followed)
                      · next notDirectory =>
                          split at followed
                          · next ends =>
                              obtain rfl := Except.ok.inj followed
                              exact .missing lookedUp found (by simpa using notDirectory) ends
                          · contradiction

theorem Leads.follow_eq (leads : tree.Leads start names target) :
    tree.follow start names = .ok target := by
  induction leads with
  | here => rfl
  | stay nowhere _ ih => rcases nowhere with rfl | rfl <;> simpa [follow] using ih
  | up _ ih => simpa [follow, above] using ih
  | file lookedUp found =>
      simp [follow, lookedUp.nonempty, lookedUp.notHere, lookedUp.notAbove,
        Nat.not_lt.2 lookedUp.short, found]
  | into lookedUp noFile isDirectory _ ih =>
      simp [follow, lookedUp.nonempty, lookedUp.notHere, lookedUp.notAbove,
        Nat.not_lt.2 lookedUp.short, noFile, isDirectory, ih]
  | missing lookedUp noFile notDirectory ends =>
      simp [follow, lookedUp.nonempty, lookedUp.notHere, lookedUp.notAbove,
        Nat.not_lt.2 lookedUp.short, noFile, notDirectory, ends]

/-- Whether a target is what stands in a tree at its place. -/
def Stands (tree : FileTree) : Target → Prop
  | .file place content => tree.files.lookup place = some content
  | .missing place => tree.files.lookup place = none ∧ tree.hasDirectory place = false
  | .directory _ => True

theorem Leads.stands (leads : tree.Leads start names target) : tree.Stands target := by
  induction leads with
  | here => trivial
  | stay _ _ ih => exact ih
  | up _ ih => exact ih
  | file _ found => exact found
  | into _ _ _ _ ih => exact ih
  | missing _ noFile notDirectory _ => exact ⟨noFile, notDirectory⟩

theorem Leads.append {more : List (List Char)}
    (leads : tree.Leads start names (.directory place)) (onward : tree.Leads place more target) :
    tree.Leads start (names ++ more) target := by
  generalize reached : Target.directory place = through at leads
  induction leads with
  | here =>
      obtain rfl := Target.directory.inj reached
      exact onward
  | stay nowhere _ ih => exact .stay nowhere (ih reached)
  | up _ ih => exact .up (ih reached)
  | file _ _ => contradiction
  | into lookedUp noFile isDirectory _ ih => exact .into lookedUp noFile isDirectory (ih reached)
  | missing _ _ _ _ => contradiction

/-- Names behind which there is another one lead to a directory. -/
theorem Leads.of_append_singleton {name : List Char} (nonempty : name ≠ [])
    (leads : tree.Leads start (names ++ [name]) target) :
    ∃ place, tree.Leads start names (.directory place) ∧ tree.Leads place [name] target := by
  induction names generalizing start with
  | nil => exact ⟨start, .here, leads⟩
  | cons first names ih =>
      rw [List.cons_append] at leads
      generalize behindEq : names ++ [name] = behind at leads
      cases leads with
      | stay nowhere leads =>
          obtain ⟨place, toPlace, onward⟩ := ih (behindEq ▸ leads)
          exact ⟨place, .stay nowhere toPlace, onward⟩
      | up leads =>
          obtain ⟨place, toPlace, onward⟩ := ih (behindEq ▸ leads)
          exact ⟨place, .up toPlace, onward⟩
      | file _ _ => simp at behindEq
      | into lookedUp noFile isDirectory leads =>
          obtain ⟨place, toPlace, onward⟩ := ih (behindEq ▸ leads)
          exact ⟨place, .into lookedUp noFile isDirectory toPlace, onward⟩
      | missing _ _ _ ends => simp [← behindEq, nonempty] at ends

theorem exists_leads_of_target {path : String} (targetEq : tree.target path = .ok target) :
    ∃ start names, route path = .ok (start, names) ∧ tree.Leads start names target := by
  unfold FileTree.target at targetEq
  split at targetEq
  · next start names routed => exact ⟨start, names, routed, leads_of_follow targetEq⟩
  · contradiction

theorem stands_of_target {path : String} (targetEq : tree.target path = .ok target) :
    tree.Stands target := by
  obtain ⟨start, names, -, leads⟩ := exists_leads_of_target targetEq
  exact leads.stands

theorem Leads.target_eq {path : String} (leads : tree.Leads start names target)
    (routed : route path = .ok (start, names)) : tree.target path = .ok target := by
  rw [FileTree.target, routed]
  exact leads.follow_eq

end Leading

section Putting

/-- Whether a tree becomes another one when a text is put into the file at a place. -/
structure Puts (tree larger : FileTree) (place : TreePlace) (text : String) : Prop where
  directories : larger.directories = tree.directories
  notDirectory : tree.files.lookup place = none → tree.hasDirectory place = false
  lookup : ∀ other, larger.files.lookup other =
    if other = place then some (some text) else tree.files.lookup other

variable {tree larger : FileTree} {start place : TreePlace} {names : List (List Char)}
  {text : String}

theorem puts_overwrite {content : Option String} (found : tree.files.lookup place = some content) :
    tree.Puts (tree.overwrite place text) place text := by
  refine ⟨rfl, fun noFile => ?_, fun other => ?_⟩
  · rw [found] at noFile
    contradiction
  · rw [lookup_overwrite]
    by_cases same : other = place
    · subst same
      simp [found]
    · simp [same]

theorem puts_append (noFile : tree.files.lookup place = none)
    (notDirectory : tree.hasDirectory place = false) :
    tree.Puts { tree with files := tree.files ++ [(place, some text)] } place text := by
  refine ⟨rfl, fun _ => notDirectory, fun other => ?_⟩
  rw [List.lookup_append, List.lookup_cons]
  by_cases same : other = place
  · subst same
    simp [noFile]
  · simp [same, beq_false_of_ne same]

/-- What is written is put where the path leads. -/
theorem puts_of_write {path : String} (written : tree.write path text = .ok larger) :
    ∃ target, tree.target path = .ok target ∧ tree.Puts larger target.place text := by
  unfold write at written
  split at written
  · next place content targetEq =>
      obtain rfl := Except.ok.inj written
      exact ⟨_, targetEq, puts_overwrite (stands_of_target targetEq)⟩
  · next place targetEq =>
      obtain rfl := Except.ok.inj written
      obtain ⟨noFile, notDirectory⟩ := stands_of_target targetEq
      exact ⟨_, targetEq, puts_append noFile notDirectory⟩
  · contradiction
  · contradiction

theorem Puts.hasDirectory_eq (puts : tree.Puts larger place text) (other : TreePlace) :
    larger.hasDirectory other = tree.hasDirectory other := by
  rw [hasDirectory, hasDirectory, puts.directories]

/-- Directories are led to as before. -/
theorem Puts.leads (puts : tree.Puts larger place text) {found : TreePlace}
    (leads : tree.Leads start names (.directory found)) :
    larger.Leads start names (.directory found) := by
  generalize reached : Target.directory found = target at leads
  induction leads with
  | here => exact .here
  | stay nowhere _ ih => exact .stay nowhere (ih reached)
  | up _ ih => exact .up (ih reached)
  | file _ _ => contradiction
  | @into start name _ _ lookedUp noFile isDirectory _ ih =>
      -- The place that is written to is a file or missing, and this one is a directory.
      have notPut : start ++ [name] ≠ place := by
        rintro rfl
        rw [puts.notDirectory noFile] at isDirectory
        contradiction
      refine .into lookedUp ?_ ?_ (ih reached)
      · rw [puts.lookup, if_neg notPut, noFile]
      · rw [puts.hasDirectory_eq, isDirectory]
  | missing _ _ _ _ => contradiction

end Putting

section Directory

/-- Whether every name that is joined to a directory is followed from a place, behind some
names. -/
def JoinsAt (directory : String) (start : TreePlace) (names : List (List Char)) : Prop :=
  ∀ name, IsFileName name → ∀ found, route (joinPath directory name) = .ok found →
    found = (start, names ++ [name.toList])

variable {tree larger : FileTree} {directory name other text : String} {start place : TreePlace}
  {names : List (List Char)} {content : Option String} {target : Target}

/-- What a name leads to stands in the directory in which it is looked up. -/
theorem Leads.of_isFileName (isName : IsFileName name)
    (leads : tree.Leads place [name.toList] target) :
    IsLookedUp name.toList ∧ target.place = place ++ [name.toList] := by
  obtain ⟨-, nonempty, notHere, notAbove⟩ := isName
  generalize name.toList = word at *
  cases leads with
  | stay nowhere _ => exact absurd nowhere (not_or.2 ⟨nonempty, notHere⟩)
  | up _ => contradiction
  | file lookedUp _ => exact ⟨lookedUp, rfl⟩
  | into lookedUp _ _ leads =>
      cases leads
      exact ⟨lookedUp, rfl⟩
  | missing lookedUp _ _ _ => exact ⟨lookedUp, rfl⟩

/-- A name that is joined to a directory is looked up in that directory. -/
theorem exists_leads_of_joined (joins : JoinsAt directory start names) (isName : IsFileName name)
    (targetEq : tree.target (joinPath directory name) = .ok target) :
    ∃ place, tree.Leads start names (.directory place) ∧
      route (joinPath directory name) = .ok (start, names ++ [name.toList]) ∧
      IsLookedUp name.toList ∧ target.place = place ++ [name.toList] := by
  obtain ⟨from', through, routed, leads⟩ := exists_leads_of_target targetEq
  obtain ⟨rfl, rfl⟩ := Prod.mk.inj (joins name isName _ routed)
  obtain ⟨place, toPlace, onward⟩ := leads.of_append_singleton isName.nonempty
  exact ⟨place, toPlace, routed, onward.of_isFileName isName⟩

theorem Leads.directory_unique {first second : TreePlace}
    (leads : tree.Leads start names (.directory first))
    (leadsThen : tree.Leads start names (.directory second)) : first = second :=
  Target.directory.inj (Except.ok.inj (leads.follow_eq.symm.trans leadsThen.follow_eq))

/-- What is written to a name in a directory is put into that directory. -/
theorem exists_puts_of_write (joins : JoinsAt directory start names) (isName : IsFileName name)
    (written : tree.write (joinPath directory name) text = .ok larger) :
    ∃ place, tree.Leads start names (.directory place) ∧
      route (joinPath directory name) = .ok (start, names ++ [name.toList]) ∧
      IsLookedUp name.toList ∧ tree.Puts larger (place ++ [name.toList]) text := by
  obtain ⟨target, targetEq, puts⟩ := puts_of_write written
  obtain ⟨place, toPlace, routed, lookedUp, placeEq⟩ :=
    exists_leads_of_joined joins isName targetEq
  exact ⟨place, toPlace, routed, lookedUp, placeEq ▸ puts⟩

/-- What is written to a name in a directory is in the file that it leads to from then on. -/
theorem target_of_write (joins : JoinsAt directory start names) (isName : IsFileName name)
    (written : tree.write (joinPath directory name) text = .ok larger) :
    ∃ found, larger.target (joinPath directory name) = .ok (.file found (some text)) := by
  obtain ⟨place, toPlace, routed, lookedUp, puts⟩ := exists_puts_of_write joins isName written
  have found : larger.files.lookup (place ++ [name.toList]) = some (some text) := by
    rw [puts.lookup, if_pos rfl]
  exact ⟨_, ((puts.leads toPlace).append (.file lookedUp found)).target_eq routed⟩

theorem name_eq_of_place_eq (same : place ++ [name.toList] = place ++ [other.toList]) :
    name = other :=
  String.toList_inj.1 (List.singleton_inj.1 (List.append_cancel_left same))

/-- What is written to a name in a directory leaves the other files in it as they are. -/
theorem target_of_write_other (joins : JoinsAt directory start names) (isName : IsFileName name)
    (written : tree.write (joinPath directory name) text = .ok larger)
    (isOtherName : IsFileName other) (differ : other ≠ name) {found : TreePlace}
    (targetEq : tree.target (joinPath directory other) = .ok (.file found content)) :
    larger.target (joinPath directory other) = .ok (.file found content) := by
  obtain ⟨place, toPlace, -, -, puts⟩ := exists_puts_of_write joins isName written
  obtain ⟨otherPlace, toOther, routed, lookedUp, rfl⟩ :=
    exists_leads_of_joined joins isOtherName targetEq
  obtain rfl := toPlace.directory_unique toOther
  have stands : tree.files.lookup (place ++ [other.toList]) = some content :=
    stands_of_target targetEq
  have found : larger.files.lookup (place ++ [other.toList]) = some content := by
    rw [puts.lookup, if_neg fun same => differ (name_eq_of_place_eq same), stands]
  exact ((puts.leads toPlace).append (.file lookedUp found)).target_eq routed

/-- Different names in a directory lead to different files. -/
theorem name_eq_of_target_eq (joins : JoinsAt directory start names) (isName : IsFileName name)
    (isOtherName : IsFileName other) {found : TreePlace} {otherContent : Option String}
    (targetEq : tree.target (joinPath directory name) = .ok (.file found content))
    (otherEq : tree.target (joinPath directory other) = .ok (.file found otherContent)) :
    name = other := by
  obtain ⟨place, toPlace, -, -, rfl⟩ := exists_leads_of_joined joins isName targetEq
  obtain ⟨otherPlace, toOther, -, -, same⟩ := exists_leads_of_joined joins isOtherName otherEq
  obtain rfl := toPlace.directory_unique toOther
  exact name_eq_of_place_eq same

end Directory

end FileTree

end Command

end TemplateCompiler
