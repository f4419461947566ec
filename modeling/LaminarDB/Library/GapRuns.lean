import Mathlib

/-!
# Components of times under a gap

Times at most a gap apart are near, and times with a chain of near times between them are
connected. A run is a set of times that are all connected inside it. A run is a
component of every set in which nothing else is near it.
-/

namespace LaminarDB.Library.Gaps

variable {gap : Int} {times others : Set Int} {first last time : Int}

def Near (gap : Int) (times : Set Int) (left right : Int) : Prop :=
  left ∈ times ∧ right ∈ times ∧ |left - right| ≤ gap

def Connected (gap : Int) (times : Set Int) : Int → Int → Prop :=
  Relation.ReflTransGen (Near gap times)

variable {left right : Int}

theorem Near.symm (near : Near gap times left right) : Near gap times right left :=
  ⟨near.2.1, near.1, abs_sub_comm left right ▸ near.2.2⟩

section

variable (connected : Connected gap times left right)

include connected

theorem Connected.symm : Connected gap times right left := by
  induction connected with
  | refl => exact .refl
  | tail _ near ih => exact .head near.symm ih

theorem Connected.mono (included : times ⊆ others) : Connected gap others left right := by
  induction connected with
  | refl => exact .refl
  | tail _ near ih =>
    exact .tail ih ⟨included near.1, included near.2.1, near.2.2⟩

theorem Connected.crosses
    (nonneg : 0 ≤ gap) (mem : left ∈ times) (before : left ≤ time) (after : time ≤ right) :
    ∃ member ∈ times, |member - time| ≤ gap := by
  induction connected using Relation.ReflTransGen.head_induction_on with
  | refl =>
    refine ⟨right, mem, ?_⟩
    rw [abs_le]
    omega
  | @head left next near _ ih =>
    by_cases crossed : time ≤ next
    · refine ⟨left, mem, ?_⟩
      have close := abs_le.mp near.2.2
      rw [abs_le]
      omega
    · exact ih near.2.1 (not_le.mp crossed).le

end

structure IsRun (gap : Int) (times : Set Int) (first last : Int) : Prop where
  least : IsLeast times first
  greatest : IsGreatest times last
  connected : ∀ time ∈ times, Connected gap times first time

theorem isRun_singleton : IsRun gap {time} time time := by
  refine ⟨isLeast_singleton, isGreatest_singleton, fun other mem => ?_⟩
  rw [Set.mem_singleton_iff.mp mem]
  exact .refl

section

variable (run : IsRun gap times first last)

include run

theorem IsRun.exists_near (nonneg : 0 ≤ gap)
    (notBefore : first ≤ time + gap) (notAfter : time ≤ last + gap) :
    ∃ member ∈ times, |member - time| ≤ gap := by
  by_cases before : time < first
  · refine ⟨first, run.least.1, ?_⟩
    rw [abs_le]
    omega
  · by_cases after : last < time
    · refine ⟨last, run.greatest.1, ?_⟩
      rw [abs_le]
      omega
    · exact (run.connected last run.greatest.1).crosses nonneg run.least.1 (not_lt.mp before)
        (not_lt.mp after)

theorem IsRun.union {otherFirst otherLast : Int} (other : IsRun gap others otherFirst otherLast)
    (inRun : left ∈ times) (inOther : right ∈ others) (close : |left - right| ≤ gap) :
    IsRun gap (times ∪ others) (min first otherFirst) (max last otherLast) := by
  have least := run.least.union other.least
  refine ⟨least, run.greatest.union other.greatest, fun time mem => ?_⟩
  have fromLeft : ∀ time ∈ times ∪ others, Connected gap (times ∪ others) left time := by
    rintro time (inTimes | inOthers)
    · have inside := (run.connected left inRun).symm.trans (run.connected time inTimes)
      exact Connected.mono inside Set.subset_union_left
    · have bridge : Near gap (times ∪ others) left right := ⟨.inl inRun, .inr inOther, close⟩
      have inside := (other.connected right inOther).symm.trans (other.connected time inOthers)
      exact Relation.ReflTransGen.head bridge (Connected.mono inside Set.subset_union_right)
  exact (fromLeft _ least.1).symm.trans (fromLeft time mem)

theorem IsRun.connected_iff (included : times ⊆ others)
    (alone : ∀ member ∈ times, ∀ other ∈ others, |member - other| ≤ gap → other ∈ times) :
    Connected gap others first time ↔ time ∈ times := by
  constructor
  · intro connected
    induction connected with
    | refl => exact run.least.1
    | tail _ near ih =>
      exact alone _ ih _ near.2.1 near.2.2
  · intro mem
    exact (run.connected time mem).mono included

end

end LaminarDB.Library.Gaps
