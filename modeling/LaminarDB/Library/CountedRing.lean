import Mathlib

/-!
# Rings with counts of readers

A log is kept in a ring of slots. A slot counts the readers that have not yet released its value,
and is taken for a new value when the count is zero. The writer reserves a slot, writes the value
and sets the count, one after the other.
-/

namespace LaminarDB.Library

open Function Finset

variable {Reader Value : Type}

theorem eq_of_mod_eq {capacity first second : Nat} (same : first % capacity = second % capacity)
    (firstNear : first < second + capacity) (secondNear : second < first + capacity) :
    first = second := by
  rcases Nat.le_total first second with before | before
  · have divides := (Nat.modEq_iff_dvd' before).mp same
    have none := Nat.eq_zero_of_dvd_of_lt divides (by omega)
    omega
  · have divides := (Nat.modEq_iff_dvd' before).mp same.symm
    have none := Nat.eq_zero_of_dvd_of_lt divides (by omega)
    omega

def behind [Fintype Reader] (released : Reader → Nat) (number : Nat) : Nat :=
  (univ.filter fun reader => released reader ≤ number).card

/-- The slots hold the last values of a log, and their counts the readers that are behind. -/
structure CountedRing [Fintype Reader] (capacity : Nat) (slots : Nat → Option Value)
    (counts : Nat → Nat) (released : Reader → Nat) (log : List Value) (reserved counted : Nat) :
    Prop where
  countedLe : counted ≤ log.length
  writtenLe : log.length ≤ reserved
  room : ∀ reader, reserved ≤ released reader + capacity
  stored : ∀ number value, log[number]? = some value → log.length ≤ number + capacity →
    slots (number % capacity) = some value
  waiting : ∀ number < counted, counted ≤ number + capacity →
    counts (number % capacity) = behind released number
  unused : ∀ slot < capacity, counted ≤ slot → counts slot = 0

namespace CountedRing

variable [Fintype Reader] {capacity reserved counted number : Nat} {slots : Nat → Option Value}
  {counts : Nat → Nat} {released : Reader → Nat} {log : List Value}

theorem empty : CountedRing capacity (fun _ => none) (fun _ => 0) (fun _ : Reader => 0)
    ([] : List Value) 0 0 where
  countedLe := Nat.le_refl 0
  writtenLe := Nat.le_refl 0
  room := fun _ => Nat.zero_le _
  stored := nofun
  waiting := fun number below => absurd below (Nat.not_lt_zero number)
  unused := fun _ _ _ => rfl

variable (ring : CountedRing capacity slots counts released log reserved counted) {reader : Reader}

include ring in
theorem read {value : Value} (unreleased : released reader ≤ number)
    (found : log[number]? = some value) : slots (number % capacity) = some value := by
  have room := ring.room reader
  have written := ring.writtenLe
  exact ring.stored number value found (by omega)

theorem reserve (ring : CountedRing capacity slots counts released log counted counted)
    (positive : 0 < capacity) (free : counts (counted % capacity) = 0) :
    CountedRing capacity slots counts released log (counted + 1) counted := by
  refine { ring with writtenLe := Nat.le_succ_of_le ring.writtenLe, room := ?_ }
  intro reader
  by_contra full
  have round : capacity ≤ counted := by omega
  have isCounted := ring.waiting (counted - capacity) (by omega) (by omega)
  rw [← Nat.mod_eq_sub_mod round, free] at isCounted
  have nobody := card_eq_zero.mp isCounted.symm
  refine eq_empty_iff_forall_notMem.mp nobody reader ?_
  rw [mem_filter]
  exact ⟨mem_univ reader, by omega⟩

theorem write (ring : CountedRing capacity slots counts released log (log.length + 1) counted)
    (positive : 0 < capacity) (value : Value) :
    CountedRing capacity (update slots (log.length % capacity) (some value)) counts
      released (log ++ [value]) (log.length + 1) counted := by
  have longer : (log ++ [value]).length = log.length + 1 := List.length_append
  refine { ring with
    countedLe := ring.countedLe.trans (by omega), writtenLe := longer.le, stored := ?_ }
  intro number found isFound near
  have below := (List.getElem?_eq_some_iff.mp isFound).1
  rw [longer] at near below
  rcases Nat.lt_succ_iff_lt_or_eq.mp below with earlier | rfl
  · have other : number % capacity ≠ log.length % capacity := by
      intro same
      have equal := eq_of_mod_eq same (by omega) (by omega)
      omega
    rw [List.getElem?_append_left earlier] at isFound
    rw [update_of_ne other]
    exact ring.stored number found isFound (by omega)
  · rw [List.getElem?_concat_length] at isFound
    rw [update_self, isFound]

theorem count (ring : CountedRing capacity slots counts released log (counted + 1) counted)
    (isWritten : log.length = counted + 1) (positive : 0 < capacity)
    (behindAll : ∀ reader, released reader ≤ counted) :
    CountedRing capacity slots
      (update counts (counted % capacity) (Fintype.card Reader)) released log
      (counted + 1) (counted + 1) := by
  refine { ring with countedLe := isWritten.ge, waiting := ?_, unused := ?_ }
  · intro number below near
    rcases Nat.lt_succ_iff_lt_or_eq.mp below with earlier | rfl
    · have other : number % capacity ≠ counted % capacity := by
        intro same
        have equal := eq_of_mod_eq same (by omega) (by omega)
        omega
      rw [update_of_ne other]
      exact ring.waiting number earlier (by omega)
    · rw [update_self, behind, filter_true_of_mem fun reader _ => behindAll reader, card_univ]
  · intro slot within unusedYet
    have other : slot ≠ counted % capacity := by
      rw [Nat.mod_eq_of_lt (by omega)]
      omega
    rw [update_of_ne other]
    exact ring.unused slot within (by omega)

include ring in
theorem counted_pos (unreleased : released reader < counted) :
    0 < counts (released reader % capacity) ∧
      counts (released reader % capacity) ≤ Fintype.card Reader := by
  have room := ring.room reader
  have lengths := ring.countedLe.trans ring.writtenLe
  rw [ring.waiting (released reader) unreleased (by omega)]
  constructor
  · refine card_pos.mpr ⟨reader, ?_⟩
    rw [mem_filter]
    exact ⟨mem_univ reader, Nat.le_refl _⟩
  · exact card_le_univ _

theorem behind_update [DecidableEq Reader] :
    behind (update released reader (released reader + 1)) number =
      if number = released reader then behind released number - 1 else behind released number := by
  split
  · rename_i same
    have erased : (univ.filter fun other =>
        update released reader (released reader + 1) other ≤ number) =
        (univ.filter fun other => released other ≤ number).erase reader := by
      ext other
      by_cases isReader : other = reader
      · subst isReader
        simp [same]
      · simp [isReader]
    rw [behind, erased, card_erase_of_mem, behind]
    rw [mem_filter]
    exact ⟨mem_univ reader, same.ge⟩
  · rename_i differs
    unfold behind
    congr 1
    ext other
    by_cases isReader : other = reader
    · subst isReader
      simp only [mem_filter, mem_univ, true_and, update_self]
      omega
    · simp [isReader]

include ring in
theorem release [DecidableEq Reader] (reader : Reader) (unreleased : released reader < counted) :
    CountedRing capacity slots
      (update counts (released reader % capacity) (counts (released reader % capacity) - 1))
      (update released reader (released reader + 1)) log reserved counted := by
  have room := ring.room reader
  have lengths := ring.countedLe.trans ring.writtenLe
  refine { ring with room := ?_, waiting := ?_, unused := ?_ }
  · intro other
    have otherRoom := ring.room other
    by_cases isReader : other = reader
    · subst isReader
      rw [update_self]
      omega
    · rw [update_of_ne isReader]
      exact otherRoom
  · intro number below near
    rw [behind_update]
    split
    · rename_i same
      subst same
      rw [update_self, ring.waiting _ below near]
    · rename_i differs
      have other : number % capacity ≠ released reader % capacity := by
        intro same
        exact differs (eq_of_mod_eq same (by omega) (by omega))
      rw [update_of_ne other]
      exact ring.waiting number below near
  · intro slot within unusedYet
    have other : slot ≠ released reader % capacity := by
      rw [Nat.mod_eq_of_lt (by omega)]
      omega
    rw [update_of_ne other]
    exact ring.unused slot within unusedYet

end CountedRing

end LaminarDB.Library
