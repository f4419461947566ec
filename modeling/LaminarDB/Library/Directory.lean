import Mathlib

/-!
# A directory of files

A file has a name and holds items. The operations are those of a file system: a file
is created empty or truncated, written at its end, removed, and renamed over another
one. A removal or a renaming of a file that does not exist has no effect.

A list of operations that stops early is the same list with fewer operations, so what
a crash leaves is the result of `List.take`.
-/

namespace LaminarDB.Library

open List

universe u v

structure Directory (Name : Type u) (Item : Type v) where
  files : List (Name × List Item)
deriving DecidableEq

inductive FileOperation (Name : Type u) (Item : Type v) where
  /-- Create the file, or truncate it. -/
  | create (name : Name)
  | append (name : Name) (items : List Item)
  | sync (name : Name)
  | remove (name : Name)
  | rename (source target : Name)
deriving DecidableEq

open FileOperation

def FileOperation.touches {Name : Type u} {Item : Type v} :
    FileOperation Name Item → List Name
  | .create name => [name]
  | .append name _ => [name]
  | .sync _ => []
  | .remove name => [name]
  | .rename source target => [source, target]

namespace Directory

variable {Name : Type u} {Item : Type v} [DecidableEq Name]

def empty : Directory Name Item := ⟨[]⟩

variable (directory : Directory Name Item)

section

variable (name : Name)

def find? : Option (List Item) :=
  directory.files.lookup name

def read : List Item :=
  (directory.find? name).getD []

def held (selects : Name → Bool) (directory : Directory Name Item) : List Item :=
  (directory.files.filter fun file => selects file.1).flatMap Prod.snd

def drop : Directory Name Item :=
  ⟨directory.files.filter fun file => file.1 ≠ name⟩

def put (items : List Item) : Directory Name Item :=
  ⟨(directory.drop name).files ++ [(name, items)]⟩

end

def apply : FileOperation Name Item → Directory Name Item
  | .create name => directory.put name []
  | .append name items =>
    ⟨directory.files.map fun file => if file.1 = name then (file.1, file.2 ++ items) else file⟩
  | .sync _ => directory
  | .remove name => directory.drop name
  | .rename source target =>
    match directory.find? source with
    | none => directory
    | some items => (directory.drop source).put target items

def applyAll (operations : List (FileOperation Name Item)) : Directory Name Item :=
  operations.foldl apply directory

variable {directory : Directory Name Item} {name other : Name}
  {operations : List (FileOperation Name Item)} {operation : FileOperation Name Item}

section Lookup

variable (files : List (Name × List Item))

theorem lookup_filter_ne (different : other ≠ name) :
    (files.filter fun file => file.1 ≠ name).lookup other = files.lookup other := by
  induction files with
  | nil => rfl
  | cons file files ih =>
    obtain ⟨first, items⟩ := file
    by_cases isName : first = name
    · have noMatch : (other == first) = false := by
        simpa [isName] using different
      simpa [isName, lookup_cons, noMatch, beq_false_of_ne different] using ih
    · simp only [filter_cons, isName, ne_eq, not_false_eq_true, decide_true, if_true, lookup_cons]
      cases other == first
      · simpa using ih
      · rfl

theorem lookup_filter_self : (files.filter fun file => file.1 ≠ name).lookup name = none := by
  rw [lookup_eq_none_iff]
  intro file isMember
  have different : file.1 ≠ name := by simpa using (mem_filter.mp isMember).2
  exact bne_iff_ne.mpr different.symm

theorem find?_drop_of_ne (different : other ≠ name) :
    (directory.drop name).find? other = directory.find? other :=
  lookup_filter_ne directory.files different

theorem find?_drop_self : (directory.drop name).find? name = none :=
  lookup_filter_self directory.files

section

variable (items : List Item)

theorem find?_put_of_ne (different : other ≠ name) :
    (directory.put name items).find? other = directory.find? other := by
  have noMatch : [(name, items)].lookup other = none := by
    simp [lookup_cons, beq_false_of_ne different]
  calc (directory.put name items).find? other
      = ((directory.drop name).find? other).or ([(name, items)].lookup other) := lookup_append
    _ = directory.find? other := by
        rw [noMatch, Option.or_none, find?_drop_of_ne different]

theorem find?_put_self : (directory.put name items).find? name = some items := by
  calc (directory.put name items).find? name
      = ((directory.drop name).find? name).or ([(name, items)].lookup name) := lookup_append
    _ = some items := by
        rw [find?_drop_self]
        simp

theorem find?_append :
    (directory.apply (.append name items)).find? other =
      if other = name then (directory.find? name).map (· ++ items)
      else directory.find? other := by
  obtain ⟨files⟩ := directory
  simp only [apply, find?]
  induction files with
  | nil => simp
  | cons file files ih =>
    obtain ⟨first, contents⟩ := file
    by_cases isFirst : other = first
    · subst isFirst
      by_cases isName : other = name <;> simp [isName]
    · have skip (rest : List (Name × List Item)) (items : List Item) :
          ((first, items) :: rest).lookup other = rest.lookup other := by
        rw [lookup_cons, beq_false_of_ne isFirst]
      rw [map_cons, skip]
      split
      next firstIsName =>
        have otherIsNot : other ≠ name := fun isName => isFirst (isName.trans firstIsName.symm)
        rw [skip, ih, if_neg otherIsNot, if_neg otherIsNot]
      next firstIsNot =>
        rw [skip, ih]
        by_cases isName : other = name
        · rw [if_pos isName, if_pos isName, ← isName, skip]
        · rw [if_neg isName, if_neg isName]

end

theorem find?_apply_of_untouched (untouched : name ∉ operation.touches) :
    (directory.apply operation).find? name = directory.find? name := by
  cases operation with
  | create created =>
    exact find?_put_of_ne [] (by simpa [touches] using untouched)
  | append appended items =>
    have different : name ≠ appended := by simpa [touches] using untouched
    rw [find?_append, if_neg different]
  | sync synced => rfl
  | remove removed =>
    exact find?_drop_of_ne (by simpa [touches] using untouched)
  | rename source target =>
    have different : name ≠ source ∧ name ≠ target := by
      simpa [touches] using untouched
    simp only [apply]
    split
    · rfl
    · rw [find?_put_of_ne _ different.2, find?_drop_of_ne different.1]

theorem find?_applyAll_of_untouched
    (untouched : ∀ operation ∈ operations, name ∉ operation.touches) :
    (directory.applyAll operations).find? name = directory.find? name :=
  foldlRecOn operations apply (motive := fun after => after.find? name = directory.find? name) rfl
    fun _ kept operation among => (find?_apply_of_untouched (untouched operation among)).trans kept

theorem read_create_self : (directory.apply (.create name)).read name = [] := by
  rw [read, apply, find?_put_self, Option.getD_some]

theorem read_append_self {items : List Item} (exists_ : (directory.find? name).isSome = true) :
    (directory.apply (.append name items)).read name = directory.read name ++ items := by
  obtain ⟨contents, isFile⟩ := Option.isSome_iff_exists.mp exists_
  simp [read, find?_append, isFile]

theorem applyAll_append (first second : List (FileOperation Name Item)) :
    directory.applyAll (first ++ second) = (directory.applyAll first).applyAll second :=
  foldl_append

end Lookup

section Held

variable {selects : Name → Bool}

theorem held_drop (unselected : selects name = false) :
    (directory.drop name).held selects = directory.held selects := by
  simp only [held, drop, filter_filter]
  congr 1
  apply filter_congr
  intro file _
  by_cases isName : file.1 = name
  · simp [isName, unselected]
  · simp [isName]

section

variable (items : List Item)

theorem held_put_of_unselected (unselected : selects name = false) :
    (directory.put name items).held selects = directory.held selects := by
  calc (directory.put name items).held selects = (directory.drop name).held selects := by
        simp [held, put, filter_append, unselected]
    _ = directory.held selects := held_drop unselected

theorem drop_of_missing (missing : directory.find? name = none) :
    directory.drop name = directory := by
  obtain ⟨files⟩ := directory
  simp only [find?, lookup_eq_none_iff] at missing
  simp only [drop, Directory.mk.injEq, filter_eq_self]
  intro file isMember
  have different : name ≠ file.1 := by simpa using missing file isMember
  simpa using different.symm

theorem held_put_of_missing (selected : selects name = true)
    (missing : directory.find? name = none) :
    (directory.put name items).held selects = directory.held selects ++ items := by
  rw [put, drop_of_missing missing]
  simp [held, filter_append, selected]

theorem held_append_of_unselected (unselected : selects name = false) :
    (directory.apply (.append name items)).held selects = directory.held selects := by
  obtain ⟨files⟩ := directory
  simp only [held, apply]
  induction files with
  | nil => rfl
  | cons file files ih =>
    by_cases isName : file.1 = name
    · simpa [isName, unselected] using ih
    · cases isSelected : selects file.1 <;> simpa [isName, isSelected] using ih

end

theorem held_apply_of_unselected (unselected : ∀ name ∈ operation.touches, selects name = false) :
    (directory.apply operation).held selects = directory.held selects := by
  cases operation with
  | create created =>
    exact held_put_of_unselected [] (unselected created (by simp [touches]))
  | append appended items =>
    exact held_append_of_unselected items (unselected appended (by simp [touches]))
  | sync synced => rfl
  | remove removed => exact held_drop (unselected removed (by simp [touches]))
  | rename source target =>
    have ofSource := unselected source (by simp [touches])
    have ofTarget := unselected target (by simp [touches])
    simp only [apply]
    split
    · rfl
    · rw [held_put_of_unselected _ ofTarget, held_drop ofSource]

theorem held_applyAll_of_unselected
    (unselected : ∀ operation ∈ operations, ∀ name ∈ operation.touches, selects name = false) :
    (directory.applyAll operations).held selects = directory.held selects :=
  foldlRecOn operations apply (motive := fun after => after.held selects = directory.held selects)
    rfl fun _ kept operation among =>
      (held_apply_of_unselected (unselected operation among)).trans kept

theorem held_rename {source target : Name} (unselected : selects source = false)
    (selected : selects target = true) (missing : directory.find? target = none) :
    (directory.apply (.rename source target)).held selects =
      directory.held selects ++ directory.read source := by
  have different : target ≠ source := by
    rintro rfl
    cases unselected.symm.trans selected
  simp only [apply, read]
  split
  next isMissing => simp [isMissing]
  next items isFile =>
    rw [held_put_of_missing items selected ((find?_drop_of_ne different).trans missing),
      held_drop unselected, isFile, Option.getD_some]

theorem held_renameAll {sources : List Name} {target : Name → Name} (distinct : sources.Nodup)
    (injective : ∀ first ∈ sources, ∀ second ∈ sources,
      target first = target second → first = second)
    (unselected : ∀ source ∈ sources, selects source = false)
    (selected : ∀ source ∈ sources, selects (target source) = true)
    (missing : ∀ source ∈ sources, directory.find? (target source) = none) :
    (directory.applyAll (sources.map fun source => .rename source (target source))).held
        selects = directory.held selects ++ sources.flatMap directory.read := by
  induction sources generalizing directory with
  | nil => simp [applyAll]
  | cons source sources ih =>
    rw [nodup_cons] at distinct
    rw [forall_mem_cons] at unselected selected missing
    have untouched : ∀ later ∈ sources, later ∉
        (rename source (target source) : FileOperation Name Item).touches ∧
        target later ∉ (rename source (target source) : FileOperation Name Item).touches := by
      intro later isLater
      have different : later ≠ source := by
        rintro rfl
        exact distinct.1 isLater
      have notTarget : later ≠ target source := by
        rintro rfl
        have isUnselected := unselected.2 _ isLater
        cases selected.1.symm.trans isUnselected
      have targetNotSource : target later ≠ source := by
        rintro rfl
        have isSelected := selected.2 _ isLater
        cases unselected.1.symm.trans isSelected
      have targetsDiffer : target later ≠ target source := fun same =>
        different (injective _ (.tail _ isLater) _ (.head _) same)
      simp [touches, different, notTarget, targetNotSource, targetsDiffer]
    have sameReads : sources.flatMap
        (directory.apply (.rename source (target source))).read =
          sources.flatMap directory.read := by
      apply flatMap_congr
      intro later isLater
      rw [read, find?_apply_of_untouched (untouched later isLater).1, read]
    calc ((directory.apply (.rename source (target source))).applyAll
            (sources.map fun source => .rename source (target source))).held selects
        = (directory.apply (.rename source (target source))).held selects ++
            sources.flatMap (directory.apply (.rename source (target source))).read := by
          refine ih distinct.2 ?_ unselected.2 selected.2 ?_
          · intro first isFirst second isSecond
            exact injective first (.tail _ isFirst) second (.tail _ isSecond)
          intro later isLater
          rw [find?_apply_of_untouched (untouched later isLater).2]
          exact missing.2 later isLater
      _ = (directory.held selects ++ directory.read source) ++ sources.flatMap directory.read := by
          rw [held_rename unselected.1 selected.1 missing.1, sameReads]
      _ = directory.held selects ++ (source :: sources).flatMap directory.read := by
          rw [flatMap_cons, append_assoc]

end Held

end Directory

end LaminarDB.Library
