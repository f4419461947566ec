import Mathlib

/-!
# Reading an ordered log through a queue

A reader fetches the records of a log in ascending order into a queue, and a consumer takes them
from its front. The mark is the largest record taken, and it is monotone.

`Progress` says that nothing is passed over: every record from the start on is handled up to the
mark, and is handled or queued no later than any queued record and before the position of the
reader. It is kept when the reader starts again at a later record with the earlier mark and queue.
-/

namespace LaminarDB.Library

open List

universe u

variable {Record : Type u} [LinearOrder Record]

def advance (mark : Option Record) (record : Record) : Option Record :=
  match mark with
  | none => some record
  | some earlier => if earlier < record then some record else some earlier

/-- The records from `start` on are handled up to the mark, and none is passed over in
the queue or by the reader. -/
structure Progress (log : List Record) (start : Record) (handled queue : List Record)
    (mark : Option Record) : Prop where
  marked : ∀ last, mark = some last →
    ∀ record ∈ log, start ≤ record → record ≤ last → record ∈ handled
  queued : ∀ before last after, queue = before ++ last :: after →
    ∀ record ∈ log, start ≤ record → record ≤ last → record ∈ handled ∨ record ∈ before ++ [last]

def Fetched (log : List Record) (start position : Record) (handled queue : List Record) : Prop :=
  ∀ record ∈ log, start ≤ record → record < position → record ∈ handled ∨ record ∈ queue

variable {log handled queue : List Record} {start position : Record} {mark : Option Record}
  {last : Record}

theorem advance_eq_some {record : Record} (isLast : advance mark record = some last) :
    last = record ∨ mark = some last := by
  unfold advance at isLast
  split at isLast
  next => exact .inl (Option.some.inj isLast).symm
  next earlier =>
    split at isLast
    next => exact .inl (Option.some.inj isLast).symm
    next => exact .inr isLast

variable {records : List Record}

theorem foldl_advance_eq_some (isLast : records.foldl advance mark = some last) :
    last ∈ records ∨ mark = some last := by
  induction records generalizing mark with
  | nil => exact .inr isLast
  | cons record records ih =>
    rcases ih isLast with inRest | isNext
    · exact .inl (.tail _ inRest)
    · rcases advance_eq_some isNext with rfl | isMark
      · exact .inl (.head _)
      · exact .inr isMark

theorem le_advance {bound record : Record}
    (below : mark = some bound) : ∃ last, advance mark record = some last ∧ bound ≤ last := by
  subst below
  unfold advance
  dsimp only
  split
  next before => exact ⟨record, rfl, before.le⟩
  next => exact ⟨bound, rfl, le_refl bound⟩

theorem record_le_advance (record : Record) :
    ∃ last, advance mark record = some last ∧ record ≤ last := by
  unfold advance
  split
  next => exact ⟨record, rfl, le_refl record⟩
  next earlier =>
    split
    next => exact ⟨record, rfl, le_refl record⟩
    next notBefore => exact ⟨earlier, rfl, not_lt.mp notBefore⟩

theorem le_foldl_advance {bound : Record} (below : mark = some bound) :
    ∃ last, records.foldl advance mark = some last ∧ bound ≤ last := by
  induction records generalizing mark bound with
  | nil => exact ⟨bound, below, le_refl bound⟩
  | cons record records ih =>
    obtain ⟨next, isNext, boundLe⟩ := @le_advance _ _ mark bound record below
    obtain ⟨last, isLast, nextLe⟩ := ih isNext
    exact ⟨last, isLast, boundLe.trans nextLe⟩

theorem mem_le_foldl_advance {record : Record} (isTaken : record ∈ records) :
    ∃ last, records.foldl advance mark = some last ∧ record ≤ last := by
  induction records generalizing mark with
  | nil => cases isTaken
  | cons first records ih =>
    rcases mem_cons.mp isTaken with rfl | inRest
    · obtain ⟨next, isNext, recordLe⟩ := record_le_advance record
      obtain ⟨last, isLast, nextLe⟩ := @le_foldl_advance _ _ _ records next isNext
      exact ⟨last, isLast, recordLe.trans nextLe⟩
    · exact ih inRest

variable {taken rest : List Record}

namespace Progress

theorem unread (log : List Record) (start : Record) (handled : List Record) :
    Progress log start handled [] none := by
  constructor
  · intro last isLast
    cases isLast
  · intro before last after isQueue
    cases before <;> cases isQueue

theorem resumed (after : last < start) : Progress log start handled [] (some last) := by
  constructor
  · intro mark isMark record _ fromStart upToMark
    cases isMark
    exact absurd (fromStart.trans upToMark) (not_le.mpr after)
  · intro before next rest isQueue
    cases before <;> cases isQueue

theorem take (progress : Progress log start handled (taken ++ rest) mark) :
    Progress log start (handled ++ taken) rest (taken.foldl advance mark) := by
  constructor
  · intro last isLast record inLog fromStart upToLast
    rw [mem_append]
    rcases foldl_advance_eq_some isLast with isTaken | isMark
    · obtain ⟨before, after, isSplit⟩ := append_of_mem isTaken
      have isQueue : taken ++ rest = before ++ last :: (after ++ rest) := by
        rw [isSplit, append_assoc, cons_append]
      rcases progress.queued before last _ isQueue record inLog fromStart upToLast with
        isHandled | isBefore
      · exact .inl isHandled
      · apply Or.inr
        rw [isSplit]
        rcases mem_append.mp isBefore with inBefore | isSame
        · exact mem_append_left _ inBefore
        · rw [mem_singleton.mp isSame]
          exact mem_append_right _ (.head _)
    · exact .inl (progress.marked last isMark record inLog fromStart upToLast)
  · intro before last after isRest record inLog fromStart upToLast
    have isQueue : taken ++ rest = (taken ++ before) ++ last :: after := by
      rw [isRest, append_assoc]
    rcases progress.queued _ last after isQueue record inLog fromStart upToLast with
      isHandled | isBefore
    · exact .inl (mem_append_left _ isHandled)
    · rw [append_assoc] at isBefore
      rcases mem_append.mp isBefore with isTaken | isQueued
      · exact .inl (mem_append_right _ isTaken)
      · exact .inr isQueued

section

variable (progress : Progress log start handled queue mark)

include progress

theorem fetch {next : Record} (fetched : Fetched log start position handled queue)
    (isNext : ∀ record ∈ log, position ≤ record → record ≤ next → record = next) :
    Progress log start handled (queue ++ [next]) mark := by
  refine ⟨progress.marked, ?_⟩
  intro before last after isQueue record inLog fromStart upToLast
  rcases eq_nil_or_concat after with rfl | ⟨earlier, final, rfl⟩
  · obtain ⟨rfl, isLast⟩ := append_inj' isQueue rfl
    cases isLast
    rcases lt_or_ge record position with isFetched | notFetched
    · rcases fetched record inLog fromStart isFetched with isHandled | isQueued
      · exact .inl isHandled
      · exact .inr (mem_append_left _ isQueued)
    · rw [isNext record inLog notFetched upToLast]
      exact .inr (mem_append_right _ (.head _))
  · have isOld : queue = before ++ last :: earlier := by
      rw [concat_eq_append, ← cons_append, ← append_assoc] at isQueue
      exact append_inj_left' isQueue rfl
    exact progress.queued before last earlier isOld record inLog fromStart upToLast

theorem restart {later : Record}
    (notBefore : start ≤ later) : Progress log later handled queue mark :=
  ⟨fun last isLast record inLog fromLater =>
      progress.marked last isLast record inLog (notBefore.trans fromLater),
    fun before last after isQueue record inLog fromLater =>
      progress.queued before last after isQueue record inLog (notBefore.trans fromLater)⟩

theorem unmark : Progress log start handled queue none :=
  ⟨fun _ isLast => (Option.some_ne_none _ isLast.symm).elim, progress.queued⟩

end

end Progress

namespace Fetched

theorem take (fetched : Fetched log start position handled (taken ++ rest)) :
    Fetched log start position (handled ++ taken) rest := by
  intro record inLog fromStart isBefore
  rcases fetched record inLog fromStart isBefore with isHandled | isQueued
  · exact .inl (mem_append_left _ isHandled)
  · rcases mem_append.mp isQueued with isTaken | isRest
    · exact .inl (mem_append_right _ isTaken)
    · exact .inr isRest

theorem move {further : Record} {added : List Record}
    (fetched : Fetched log start position handled queue)
    (passes : ∀ record ∈ log, position ≤ record → record < further → record ∈ added) :
    Fetched log start further handled (queue ++ added) := by
  intro record inLog fromStart isBefore
  rcases lt_or_ge record position with isFetched | notFetched
  · rcases fetched record inLog fromStart isFetched with isHandled | isQueued
    · exact .inl isHandled
    · exact .inr (mem_append_left _ isQueued)
  · exact .inr (mem_append_right _ (passes record inLog notFetched isBefore))

theorem atStart (log : List Record) (start : Record) :
    Fetched log start start handled queue := fun _ _ fromStart isBefore =>
  absurd isBefore (not_lt.mpr fromStart)

end Fetched

end LaminarDB.Library
