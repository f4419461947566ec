import Mathlib

/-!
# Keeping the largest

A list is sorted and all but its last elements are dropped. An element is dropped exactly if
more elements are at least as large as the list keeps.
-/

namespace LaminarDB.Library

open List

variable {Element : Type} [LinearOrder Element]

/-- The elements that are dropped if the `keep` largest stay. -/
def outdated (keep : Nat) (elements : List Element) : List Element :=
  (elements.insertionSort (· ≤ ·)).take (elements.length - keep)

variable {elements : List Element} {element : Element}

theorem sorted_eq_append (sorted : elements.Pairwise (· ≤ ·)) (element : Element) :
    elements = elements.filter (fun other => decide (other < element)) ++
      elements.filter fun other => decide (element ≤ other) := by
  induction elements with
  | nil => rfl
  | cons first elements ih =>
    rw [pairwise_cons] at sorted
    by_cases below : first < element
    · rw [filter_cons_of_pos (by simpa using below), filter_cons_of_neg (by simpa using below),
        cons_append, ← ih sorted.2]
    · have atLeast : element ≤ first := not_lt.mp below
      have noneBelow : elements.filter (fun other => decide (other < element)) = [] := by
        apply filter_eq_nil_iff.mpr
        intro other mem
        simpa using atLeast.trans (sorted.1 other mem)
      have allAbove : elements.filter (fun other => decide (element ≤ other)) = elements := by
        apply filter_eq_self.mpr
        intro other mem
        simpa using atLeast.trans (sorted.1 other mem)
      rw [filter_cons_of_neg (by simpa using atLeast),
        filter_cons_of_pos (by simpa using atLeast), noneBelow, allAbove, nil_append]

theorem head_filter_of_sorted (sorted : elements.Pairwise (· ≤ ·)) (mem : element ∈ elements) :
    ∃ rest, elements.filter (fun other => decide (element ≤ other)) = element :: rest := by
  have inFilter : element ∈ elements.filter fun other => decide (element ≤ other) := by
    simpa using mem
  have stillSorted := sorted.sublist (filter_sublist (p := fun other =>
    decide (element ≤ other)))
  cases isFilter : elements.filter fun other => decide (element ≤ other) with
  | nil =>
    rw [isFilter] at inFilter
    cases inFilter
  | cons first rest =>
    rw [isFilter] at inFilter stillSorted
    have firstAbove : element ≤ first := by
      have inList : first ∈ elements.filter fun other => decide (element ≤ other) := by
        rw [isFilter]
        exact mem_cons_self
      simpa using (mem_filter.mp inList).2
    rcases mem_cons.mp inFilter with rfl | inRest
    · exact ⟨rest, rfl⟩
    · have isFirst := le_antisymm firstAbove ((pairwise_cons.mp stillSorted).1 _ inRest)
      exact ⟨rest, by rw [isFirst]⟩

theorem mem_outdated_iff {keep : Nat} (mem : element ∈ elements) :
    element ∈ outdated keep elements ↔
      keep < (elements.filter fun other => decide (element ≤ other)).length := by
  have sorted := pairwise_insertionSort (· ≤ ·) elements
  have permuted := perm_insertionSort (· ≤ ·) elements
  have split := sorted_eq_append sorted element
  obtain ⟨rest, isRest⟩ := head_filter_of_sorted sorted ((mem_insertionSort _).mpr mem)
  have sameAbove := (permuted.filter fun other => decide (element ≤ other)).length_eq
  have sameLength := permuted.length_eq
  have lengths := congrArg List.length split
  rw [length_append, sameLength] at lengths
  rw [isRest] at split
  have notBelow : element ∉ (elements.insertionSort (· ≤ ·)).filter
      fun other => decide (other < element) := by
    simp
  rw [outdated, split, take_append, mem_append, ← sameAbove]
  constructor
  · rintro (inBelow | inAbove)
    · exact absurd (mem_of_mem_take inBelow) notBelow
    · have positive : 0 < elements.length -
          keep - ((elements.insertionSort (· ≤ ·)).filter
            fun other => decide (other < element)).length := by
        apply Nat.pos_of_ne_zero
        intro isZero
        rw [isZero] at inAbove
        cases inAbove
      omega
  · intro many
    right
    obtain ⟨count, isCount⟩ : ∃ count, elements.length -
        keep - ((elements.insertionSort (· ≤ ·)).filter
          fun other => decide (other < element)).length = count + 1 :=
      Nat.exists_eq_succ_of_ne_zero (by omega)
    rw [isCount]
    exact mem_cons_self

end LaminarDB.Library
