import TemplateCompiler.Command.FileTree
import TemplateCompiler.Command.OutputPath
import TemplateCompiler.Proofs.Template.Paths
import Mathlib.Data.List.Nodup

/-!
# Colliding outputs

The search for a collision goes through the templates once and keeps the path of every
template it has passed.  As long as it finds nothing these paths are different, so a path
that it meets again is that of just one earlier template, and the first one it meets again is
the first that there is.
-/

namespace TemplateCompiler

namespace Command

/-- Whether a collision is the first one among templates with some paths, for two of their
numbers: the second template is the first one that has the path of an earlier one, and that
earlier one is the only one. -/
structure Collision.IsFirst (templates paths : List String) (found : Collision)
    (first second : Nat) : Prop where
  inOrder : first < second
  firstEq : templates[first]? = some found.first
  secondEq : templates[second]? = some found.second
  pathFirst : paths[first]? = some found.path
  pathSecond : paths[second]? = some found.path
  earliest : ∀ earlier later, earlier < later → later < second →
    paths[earlier]? ≠ paths[later]?
  only : ∀ other < second, paths[other]? = some found.path → other = first

namespace Collision.IsFirst

variable {templates paths : List String} {found other : Collision}
  {first second otherFirst otherSecond : Nat}

theorem not_nodup (isFirst : found.IsFirst templates paths first second) : ¬ paths.Nodup := by
  intro nodup
  have bound : second < paths.length := (List.getElem?_eq_some_iff.1 isFirst.pathSecond).1
  have differ := List.nodup_iff_getElem?_ne_getElem?.1 nodup first second isFirst.inOrder bound
  exact differ (isFirst.pathFirst.trans isFirst.pathSecond.symm)

theorem second_le (isFirst : found.IsFirst templates paths first second)
    (otherIsFirst : other.IsFirst templates paths otherFirst otherSecond) :
    second ≤ otherSecond := by
  by_contra later
  refine isFirst.earliest otherFirst otherSecond otherIsFirst.inOrder (by omega) ?_
  rw [otherIsFirst.pathFirst, otherIsFirst.pathSecond]

/-- There is one first collision at most. -/
theorem unique (isFirst : found.IsFirst templates paths first second)
    (otherIsFirst : other.IsFirst templates paths otherFirst otherSecond) : found = other := by
  obtain rfl : second = otherSecond :=
    Nat.le_antisymm (isFirst.second_le otherIsFirst) (otherIsFirst.second_le isFirst)
  have samePath : found.path = other.path :=
    Option.some_inj.1 (isFirst.pathSecond.symm.trans otherIsFirst.pathSecond)
  obtain rfl : first = otherFirst :=
    otherIsFirst.only first isFirst.inOrder (samePath ▸ isFirst.pathFirst)
  have sameFirst : found.first = other.first :=
    Option.some_inj.1 (isFirst.firstEq.symm.trans otherIsFirst.firstEq)
  have sameSecond : found.second = other.second :=
    Option.some_inj.1 (isFirst.secondEq.symm.trans otherIsFirst.secondEq)
  cases found
  cases other
  simp_all

end Collision.IsFirst

section Searching

variable {path : String → String}

/-- Templates with their paths, as the search keeps them. -/
def withPaths (path : String → String) (templates : List String) : List (String × String) :=
  templates.map fun template => (path template, template)

theorem lookup_withPaths (templates : List String) (wanted : String) :
    (withPaths path templates).lookup wanted = templates.find? (wanted == path ·) := by
  induction templates with
  | nil => rfl
  | cons template templates ih =>
      rw [withPaths, List.map_cons, List.lookup_cons, List.find?_cons, ← withPaths, ih]

/-- A template that has the path of an earlier one makes the first collision, if the paths
before it are different. -/
theorem isFirst_of_mem {before : List String} {first template : String} (after : List String)
    (apart : (before.map path).Nodup) (member : first ∈ before)
    (same : path first = path template) :
    ∃ position, Collision.IsFirst (before ++ template :: after)
      ((before ++ template :: after).map path) ⟨first, template, path template⟩ position
      before.length := by
  obtain ⟨position, bound, firstEq⟩ := List.getElem_of_mem member
  have pathsBefore {number : Nat} (isBefore : number < before.length) :
      ((before ++ template :: after).map path)[number]? = (before.map path)[number]? := by
    rw [List.map_append, List.getElem?_append_left (by rwa [List.length_map])]
  have earliest : ∀ earlier later, earlier < later → later < before.length →
      ((before ++ template :: after).map path)[earlier]? ≠
        ((before ++ template :: after).map path)[later]? := by
    intro earlier later isEarlier isBefore
    rw [pathsBefore isBefore, pathsBefore (Nat.lt_trans isEarlier isBefore)]
    exact List.nodup_iff_getElem?_ne_getElem?.1 apart earlier later isEarlier
      (by rwa [List.length_map])
  have pathFirst :
      ((before ++ template :: after).map path)[position]? = some (path template) := by
    rw [pathsBefore bound, List.getElem?_map, List.getElem?_eq_getElem bound, firstEq,
      Option.map_some, same]
  refine ⟨position, bound, ?_, by simp, pathFirst, by simp, earliest, ?_⟩
  · rw [List.getElem?_append_left bound, List.getElem?_eq_getElem bound, firstEq]
  · intro other isBefore otherPath
    rcases Nat.lt_trichotomy other position with isEarlier | rfl | isLater
    · exact absurd (otherPath.trans pathFirst.symm) (earliest other position isEarlier bound)
    · rfl
    · exact absurd (pathFirst.trans otherPath.symm) (earliest position other isLater isBefore)

/-- What the search finds behind templates with different paths. -/
theorem collisionAfter_spec (before templates : List String)
    (apart : (before.map path).Nodup) :
    match collisionAfter path (withPaths path before) templates with
    | none => ((before ++ templates).map path).Nodup
    | some found => ∃ first second,
        found.IsFirst (before ++ templates) ((before ++ templates).map path) first second := by
  induction templates generalizing before with
  | nil =>
      rw [List.append_nil]
      exact apart
  | cons template templates ih =>
      rw [collisionAfter, lookup_withPaths]
      cases earlier : before.find? (path template == path ·) with
      | some first =>
          have same := List.find?_some earlier
          obtain ⟨position, isFirst⟩ := isFirst_of_mem templates apart
            (List.mem_of_find?_eq_some earlier) (eq_of_beq same).symm
          exact ⟨position, before.length, isFirst⟩
      | none =>
          have isNew : path template ∉ before.map path := by
            rw [List.mem_map]
            rintro ⟨other, member, same⟩
            exact List.find?_eq_none.1 earlier other member (beq_iff_eq.2 same.symm)
          have apartThen : ((before ++ [template]).map path).Nodup := by
            rw [List.map_append, List.map_singleton]
            exact List.nodup_append_comm.1 (List.nodup_cons.2 ⟨isNew, apart⟩)
          have continued := ih _ apartThen
          rw [List.append_assoc, List.singleton_append] at continued
          rw [withPaths, List.map_append] at continued
          exact continued

variable {templates : List String} {directory : String} {kind : OutputKind}

theorem findCollision?_spec (templates : List String) (directory : String) (kind : OutputKind) :
    match findCollision? templates directory kind with
    | none => (templates.map (outputPath directory kind)).Nodup
    | some found => ∃ first second,
        found.IsFirst templates (templates.map (outputPath directory kind)) first second :=
  collisionAfter_spec [] templates List.nodup_nil

theorem findCollision?_eq_none_iff :
    findCollision? templates directory kind = none ↔
      (templates.map (outputPath directory kind)).Nodup := by
  have spec := findCollision?_spec templates directory kind
  cases found? : findCollision? templates directory kind with
  | none =>
      rw [found?] at spec
      exact ⟨fun _ => spec, fun _ => rfl⟩
  | some found =>
      rw [found?] at spec
      obtain ⟨first, second, isFirst⟩ := spec
      exact ⟨nofun, fun nodup => absurd nodup isFirst.not_nodup⟩

theorem findCollision?_eq_some_iff {found : Collision} :
    findCollision? templates directory kind = some found ↔
      ∃ first second,
        found.IsFirst templates (templates.map (outputPath directory kind)) first second := by
  constructor
  · intro found?
    have spec := findCollision?_spec templates directory kind
    rw [found?] at spec
    exact spec
  · rintro ⟨first, second, isFirst⟩
    have spec := findCollision?_spec templates directory kind
    cases found? : findCollision? templates directory kind with
    | none =>
        rw [found?] at spec
        exact absurd spec isFirst.not_nodup
    | some other =>
        rw [found?] at spec
        obtain ⟨otherFirst, otherSecond, otherIsFirst⟩ := spec
        rw [isFirst.unique otherIsFirst]

end Searching

section FileNames

/-- Whether a name is that of something in a directory: it is none of those that lead
nowhere or above. -/
structure IsFileName (name : String) : Prop where
  noSlash : '/' ∉ name.toList
  nonempty : name.toList ≠ []
  notHere : name.toList ≠ ['.']
  notAbove : name.toList ≠ FileTree.above

/-- The name of the file for the output of a template. -/
def outputName (kind : OutputKind) (template : String) : String :=
  (fileStem? template).getD "out" ++ "." ++ kind.extension

theorem joinPath_inj {directory name other : String}
    (same : joinPath directory name = joinPath directory other) : name = other := by
  unfold joinPath at same
  split at same
  · exact (String.append_right_inj _).1 same
  · exact (String.append_right_inj _).1 same

/-- Templates collide just if the names of their files are the same up to the extension, with
the same name for all that have none. -/
theorem outputPath_eq_iff {directory first second : String} {kind : OutputKind} :
    outputPath directory kind first = outputPath directory kind second ↔
      (fileStem? first).getD "out" = (fileStem? second).getD "out" := by
  constructor
  · intro same
    have sameName := joinPath_inj same
    exact (String.append_left_inj _).1 ((String.append_left_inj _).1 sameName)
  · intro same
    rw [outputPath, outputPath, same]

theorem mem_of_mem_stem {name : List Char} {c : Char} (member : c ∈ stem name) : c ∈ name := by
  unfold stem at member
  split at member
  · exact member
  · have inReverse := List.mem_of_mem_drop (List.mem_reverse.1 member)
    exact List.mem_reverse.1 ((List.dropWhile_sublist _).subset inReverse)

theorem noSlash_fileStem {template name : String} (isStem : fileStem? template = some name) :
    '/' ∉ name.toList := by
  unfold fileStem? at isStem
  split at isStem
  · contradiction
  · next last lastEq =>
      split at isStem
      · contradiction
      · obtain rfl := Option.some.inj isStem
        rw [String.toList_ofList]
        have isPiece := List.mem_of_mem_filter (List.mem_of_getLast? lastEq)
        exact fun member => Text.not_mem_of_mem_pieces isPiece (mem_of_mem_stem member)

theorem isFileName_outputName (kind : OutputKind) (template : String) :
    IsFileName (outputName kind template) := by
  have toListEq : (outputName kind template).toList =
      ((fileStem? template).getD "out").toList ++ '.' :: kind.extension.toList := by
    simp [outputName]
  have length : 4 ≤ kind.extension.toList.length := by cases kind <;> decide
  have lengthEq := congrArg List.length toListEq
  rw [List.length_append, List.length_cons] at lengthEq
  refine ⟨?_, ?_, ?_, ?_⟩
  · have inStem : '/' ∉ ((fileStem? template).getD "out").toList := by
      cases isStem : fileStem? template with
      | none => decide
      | some name => exact noSlash_fileStem isStem
    have inExtension : '/' ∉ kind.extension.toList := by cases kind <;> decide
    rw [toListEq]
    simp [inStem, inExtension]
  · intro nameEq
    rw [nameEq] at lengthEq
    simp at lengthEq
  · intro nameEq
    rw [nameEq, List.length_singleton] at lengthEq
    omega
  · intro nameEq
    rw [nameEq, FileTree.above, List.length_cons, List.length_singleton] at lengthEq
    omega

theorem pieces_of_isFileName {name : String} (isName : IsFileName name) :
    Text.pieces '/' name.toList = [name.toList] := by
  rw [Text.pieces_eq_splitOn, List.splitOn_eq_singleton isName.noSlash]

theorem pieces_append_of_isFileName {name : String} (isName : IsFileName name)
    (before : List Char) :
    Text.pieces '/' (before ++ '/' :: name.toList) = Text.pieces '/' before ++ [name.toList] := by
  rw [Text.pieces_eq_splitOn, List.splitOn_append_cons_self, ← Text.pieces_eq_splitOn,
    ← Text.pieces_eq_splitOn, pieces_of_isFileName isName]

/-- A name that is joined to a directory stands behind a slash, unless the directory is the
one that is worked in. -/
theorem toList_joinPath (directory : String) :
    directory = "" ∨ ∃ before, ∀ name : String,
      (joinPath directory name).toList = before ++ '/' :: name.toList := by
  by_cases isEmpty : directory = ""
  · exact .inl isEmpty
  · right
    have nonempty : directory.isEmpty = false := by simpa using isEmpty
    by_cases ends : directory.toList.getLast? = some '/'
    · obtain ⟨before, directoryEq⟩ := List.getLast?_eq_some_iff.1 ends
      refine ⟨before, fun name => ?_⟩
      simp [joinPath, directoryEq]
    · refine ⟨directory.toList, fun name => ?_⟩
      simp [joinPath, ends, nonempty]

theorem route_absolute {path : String} {rest : List Char} {found : TreePlace × List (List Char)}
    (pathEq : path.toList = '/' :: rest) (routed : FileTree.route path = .ok found) :
    found = ([['/']], Text.pieces '/' rest) := by
  rw [FileTree.route, pathEq] at routed
  split at routed
  · contradiction
  · exact (Except.ok.inj routed).symm

theorem route_relative {path : String} {c : Char} {rest : List Char}
    {found : TreePlace × List (List Char)} (pathEq : path.toList = c :: rest) (relative : c ≠ '/')
    (routed : FileTree.route path = .ok found) : found = ([], Text.pieces '/' (c :: rest)) := by
  rw [FileTree.route, pathEq] at routed
  split at routed
  · contradiction
  · split at routed
    · contradiction
    · next later restEq => exact absurd (List.cons.inj restEq).1 relative
    · exact (Except.ok.inj routed).symm

/-- Names that are joined to one directory are followed from one place, behind the same
names. -/
theorem exists_route (directory : String) :
    ∃ start names, ∀ name, IsFileName name → ∀ found,
      FileTree.route (joinPath directory name) = .ok found →
        found = (start, names ++ [name.toList]) := by
  rcases toList_joinPath directory with rfl | ⟨before, joined⟩
  · refine ⟨[], [], fun name isName found routed => ?_⟩
    obtain ⟨c, rest, nameEq⟩ := List.exists_cons_of_ne_nil isName.nonempty
    have relative : c ≠ '/' := fun isSlash =>
      isName.noSlash (nameEq ▸ isSlash ▸ List.mem_cons_self)
    have joined : (joinPath "" name).toList = c :: rest := by simp [joinPath, nameEq]
    rw [route_relative joined relative routed, ← nameEq, pieces_of_isFileName isName]
    rfl
  · cases before with
    | nil =>
        refine ⟨[['/']], [], fun name isName found routed => ?_⟩
        rw [route_absolute (joined name) routed, pieces_of_isFileName isName]
        rfl
    | cons c before =>
        by_cases isSlash : c = '/'
        · subst isSlash
          refine ⟨[['/']], Text.pieces '/' before, fun name isName found routed => ?_⟩
          rw [← pieces_append_of_isFileName isName]
          exact route_absolute (joined name) routed
        · refine ⟨[], Text.pieces '/' (c :: before), fun name isName found routed => ?_⟩
          rw [← pieces_append_of_isFileName isName]
          exact route_relative (joined name) isSlash routed

end FileNames

end Command

end TemplateCompiler
